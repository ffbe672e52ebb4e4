import Replatform.Proofs.Store.RoundTrip

/-! # Plans that move

A plan with a relative root can move together with its source tree.  If the root, the file of the
plan and all its absolute paths are below one directory, then a copy of the file at the same place
below another directory reads as the plan with the one directory replaced by the other: what is
written, the root relative to the file and the paths relative to the root, does not depend on what
all of them have in common.  A plan with an absolute root is read as one plan from wherever a copy
of the file is.
-/
namespace Replatform

namespace Store

/-- The root of the plan is at `top` below the directory `base`, and all its absolute paths are
below `base`. -/
structure Inside (cwd : Path) (base top : List String) (p : Plan) : Prop where
  root : (cwd.resolve (.parse p.rootDir)).parts = base ++ top
  values : ∀ v ∈ p.pathValues, isAbsolute v = true →
    ∃ below, ".." ∉ below ∧ Path.parse v = ⟨.slash, base ++ below⟩

/-- A path with the directory `base` replaced by `base'`; a relative one is seen from `top` below
that. -/
def movedValue (base base' top : List String) (v : String) : String :=
  if isAbsolute v then (⟨.slash, base' ++ (Path.parse v).parts.drop base.length⟩ : Path).text
  else ((⟨.slash, base' ++ top⟩ : Path).resolve (.parse v)).text

/-- The plan with the directory `base` replaced by `base'`, if the root is at `top` below it.
Lists that are to have no repeats have none. -/
def moved (base base' top : List String) (p : Plan) : Plan :=
  { p.mapPaths (movedValue base base' top) with
    rootDir := (⟨.slash, base' ++ top⟩ : Path).text }

theorem movedValue_of_absolute {v : String} {base below : List String}
    (h : Path.parse v = ⟨.slash, base ++ below⟩) (base' top : List String) :
    movedValue base base' top v = (⟨.slash, base' ++ below⟩ : Path).text := by
  have habs : isAbsolute v = true := by
    rw [isAbsolute, h]
    rfl
  rw [movedValue, if_pos habs, h, List.drop_left]

/-- A relative root is at the same place below the new directory as it was below the old one. -/
theorem loadedRoot_storedRoot_moved {cwd : Path} {root : String} {base base' top dir : List String}
    (hcwd : cwd.Proper) (habs : cwd.isAbsolute = true) (hrel : ¬isAbsolute root = true)
    (hne : root ≠ "") (hroot : (cwd.resolve (.parse root)).parts = base ++ top)
    (hbase : (⟨.slash, base ++ dir⟩ : Path).IsReal)
    (hbase' : (⟨.slash, base' ++ dir⟩ : Path).IsReal) :
    loadedRoot ⟨.slash, base' ++ dir⟩ (storedRoot cwd ⟨.slash, base ++ dir⟩ root) =
      some ⟨.slash, base' ++ top⟩ := by
  have hhere : (cwd.resolve ⟨.slash, base ++ dir⟩).parts = base ++ dir := by
    rw [hbase.canonical.resolve_eq]
  have hcanonical := Path.isCanonical_resolve habs (.parse root)
  have htarget : (cwd.resolve (cwd.resolve (.parse root))).parts = base ++ top := by
    rw [hcanonical.resolve_eq cwd, hroot]
  have htop : ".." ∉ top := by
    have hdirect := hcanonical.direct
    rw [hroot] at hdirect
    exact fun h => hdirect (List.mem_append_right base h)
  rw [loadedRoot_storedRoot_of_relative hcwd hrel hne,
    Path.resolve_relativeTo_of_common hbase'.canonical rfl hhere htarget htop]

/-- A path that was written relative to the root has moved when it is read from the new root. -/
theorem toAbsolute_toRelative_moved {cwd root : Path} {base base' top : List String}
    (hcwd : cwd.Proper) (hroot : root.IsCanonical) (hparts : root.parts = base ++ top)
    (hroot' : (⟨.slash, base' ++ top⟩ : Path).IsCanonical) {v : String}
    (hv : isAbsolute v = true →
      ∃ below, ".." ∉ below ∧ Path.parse v = ⟨.slash, base ++ below⟩) :
    toAbsolute (some ⟨.slash, base' ++ top⟩) (toRelative cwd (some root) v) =
      movedValue base base' top v := by
  by_cases habs : isAbsolute v = true
  · -- what is written are the steps from the root, and these do not see `base`
    obtain ⟨below, hbelow, hparse⟩ := hv habs
    have hbase : (cwd.resolve root).parts = base ++ top := by rw [hroot.resolve_eq cwd, hparts]
    have hdirect := hroot.direct
    rw [hparts, List.mem_append, not_or] at hdirect
    have hcanonical : (Path.parse v).IsCanonical := by
      refine ⟨habs, ?_⟩
      rw [hparse, List.mem_append, not_or]
      exact ⟨hdirect.1, hbelow⟩
    have htarget : (cwd.resolve (.parse v)).parts = base ++ below := by
      rw [hcanonical.resolve_eq cwd, hparse]
    rw [toAbsolute_toRelative_of_absolute hcwd habs,
      Path.resolve_relativeTo_of_common hroot' rfl hbase htarget hbelow,
      movedValue_of_absolute hparse]
  · rw [toAbsolute_toRelative_of_relative habs, movedValue, if_neg habs]

/-- The document of a plan whose root is relative is the document of the plan that has moved. -/
theorem planOf_moved {cwd : Path} {p : Plan} {d : Document} {base base' top dir : List String}
    (hcwd : cwd.Proper) (habs : cwd.isAbsolute = true) (hrel : ¬isAbsolute p.rootDir = true)
    (hne : p.rootDir ≠ "") (hinside : Inside cwd base top p)
    (hbase : (⟨.slash, base ++ dir⟩ : Path).IsReal)
    (hbase' : (⟨.slash, base' ++ dir⟩ : Path).IsReal)
    (h : document cwd ⟨.slash, base ++ dir⟩ p = .ok d) :
    planOf ⟨.slash, base' ++ dir⟩ d = moved base base' top p := by
  have hcanonical := Path.isCanonical_resolve habs (.parse p.rootDir)
  have hloaded := loadedRoot_storedRoot_moved hcwd habs hrel hne hinside.root hbase hbase'
  -- the new root has the parts of two normal forms, so it has no double dots
  have hroot' : (⟨.slash, base' ++ top⟩ : Path).IsCanonical := by
    have hdirect' := hbase'.direct
    have htop := hcanonical.direct
    rw [List.mem_append, not_or] at hdirect'
    rw [hinside.root, List.mem_append, not_or] at htop
    refine ⟨rfl, ?_⟩
    rw [List.mem_append, not_or]
    exact ⟨hdirect'.1, htop.2⟩
  have hmap := Plan.mapPaths_congr (p := p) fun v hv =>
    @toAbsolute_toRelative_moved cwd _ base base' top hcwd hcanonical hinside.root hroot' v
      (hinside.values v hv)
  obtain ⟨-, hd⟩ := document_ok h
  have hstored : d.rootDir = storedRoot cwd ⟨.slash, base ++ dir⟩ p.rootDir := by rw [hd]
  rw [planOf_eq hcwd h, hstored, hloaded, rootOf_of_ne cwd hne, hmap]
  rfl

/-- The document of a plan whose root is absolute gives one plan from wherever it is read. -/
theorem planOf_mend_eq_of_absolute {cwd base : Path} {p : Plan} {d : Document}
    (hroot : isAbsolute p.rootDir = true) (h : document cwd base p = .ok d) (base' base'' : Path) :
    planOf base' d.mend = planOf base'' d.mend := by
  have hne : p.rootDir ≠ "" := by
    intro hempty
    rw [hempty] at hroot
    exact absurd hroot (by decide)
  obtain ⟨-, hd⟩ := document_ok h
  have hstored : d.mend.rootDir = storedRoot cwd base p.rootDir := by
    rw [hd]
    rfl
  rw [planOf, planOf, hstored, loadedRoot_storedRoot_of_absolute hroot hne,
    loadedRoot_storedRoot_of_absolute hroot hne]

theorem mend_moved_iff (base base' top : List String) (p : Plan) :
    (moved base base' top p).mend = moved base base' top p ↔
      ∀ name ∈ p.services.keys, Text.IsOfChars name := by
  have hkeys : (moved base base' top p).services.keys = p.services.keys := OrderedMap.keys_map _ _
  rw [Plan.mend_eq_self_iff, hkeys]

/-- Of a file that can be read, the directory is known. -/
theorem exists_realPath_of_content {t : FileTree} (ht : t.Grounded) {cwd path : Path}
    (hcwd : t.IsWorkingDirectory cwd) {content : List UInt8}
    (h : t.contentAt cwd path = .ok content) : ∃ base, t.realPath cwd path.parent = .ok base := by
  obtain ⟨here, access, hplace, hfile, -⟩ := FileTree.contentAt_eq_ok.mp h
  obtain ⟨dir, name, hreal, -⟩ :=
    FileTree.realPath_parent ht hcwd hplace (FileTree.not_directoryAt_of_file hfile)
  exact ⟨_, hreal⟩

/-- A copy of the file, at the same place below another directory, reads as the plan that has moved,
under the names that were written. -/
theorem run_read_of_copy {loader : Yaml.Loader} {t t' : FileTree} {cwd path : Path} {p : Plan}
    {j : Log.Journal} (ht : t.Grounded) (hcwd : t.IsWorkingDirectory cwd)
    (hyaml : ∀ d, draft t cwd path p = .ok d →
      Yaml.read loader d.tree.write = .ok d.tree.toValue)
    (ht' : (write t cwd path p).1 = t') (hwrite : ((write t cwd path p).2.run.run j).1 = .ok ())
    (hne : p.rootDir ≠ "") (hrel : ¬isAbsolute p.rootDir = true)
    {base base' top dir : List String} {file : String} (hinside : Inside cwd base top p)
    (hthere : t'.entry cwd path = .ok (base ++ dir ++ [file])) {copied : FileTree}
    {cwd' path' : Path} (hcopied : copied.Grounded) (hcwd' : copied.IsWorkingDirectory cwd')
    (hentry : copied.entry cwd' path' = .ok (base' ++ dir ++ [file]))
    (hcontent : copied.contentAt cwd' path' = t'.contentAt cwd path) (j' : Log.Journal) :
    ((read loader copied cwd' path').run.run j').1 = .ok (moved base base' top p).mend := by
  obtain ⟨d, here, place, hsaved⟩ := saved_of_save ht hcwd (save_of_write ht' hwrite)
  rw [hsaved.content] at hcontent
  obtain ⟨place', access, hplace', hfile', -⟩ := FileTree.contentAt_eq_ok.mp hcontent
  -- the directories in which the file was and is, as the store sees them
  have hbase := FileTree.realPath_parent_of_entry hsaved.grown.grounded
    (hsaved.workingDirectory hcwd) hsaved.place hsaved.notDirectory hthere
  have hbase' := FileTree.realPath_parent_of_entry hcopied hcwd' hplace'
    (FileTree.not_directoryAt_of_file hfile') hentry
  obtain rfl := Except.ok.inj (hsaved.base.symm.trans hbase)
  rw [run_read_of_content (kind_and_names_of_document hsaved.document).1 (hyaml d hsaved.draft)
      hcontent hbase', planOf_mend,
    planOf_moved hcwd.proper hcwd.absolute hrel hne hinside (hsaved.real hcwd)
      (FileTree.isReal_of_realPath hcopied hcwd' hbase') hsaved.document]

/-- **A plan moves with its source tree.**  A plan has been written whose root is relative, and
the root, the file and the absolute paths are below one directory.  Then a copy of the file, at
the same place below another directory, reads as the plan with the directory replaced, under the
names that were written; and these are the names of the plan exactly if they are texts of
characters.  If the root is absolute instead, all copies of the file read as one plan. -/
theorem read_moved {loader : Yaml.Loader} {t t' : FileTree} {cwd path : Path} {p : Plan}
    {j : Log.Journal} (ht : t.Grounded) (hcwd : t.IsWorkingDirectory cwd)
    (hyaml : ∀ d, draft t cwd path p = .ok d →
      Yaml.read loader d.tree.write = .ok d.tree.toValue)
    (ht' : (write t cwd path p).1 = t') (hwrite : ((write t cwd path p).2.run.run j).1 = .ok ()) :
    (p.rootDir ≠ "" → ¬isAbsolute p.rootDir = true →
      ∀ (base base' top dir : List String) (file : String), Inside cwd base top p →
      t'.entry cwd path = .ok (base ++ dir ++ [file]) →
      ∀ (copied : FileTree) (cwd' path' : Path) (j' : Log.Journal),
      copied.Grounded → copied.IsWorkingDirectory cwd' →
      copied.entry cwd' path' = .ok (base' ++ dir ++ [file]) →
      copied.contentAt cwd' path' = t'.contentAt cwd path →
      let outcome := ((read loader copied cwd' path').run.run j').1
      outcome = .ok (moved base base' top p).mend ∧
        (outcome = .ok (moved base base' top p) ↔
          ∀ name ∈ p.services.keys, Text.IsOfChars name)) ∧
    (isAbsolute p.rootDir = true →
      ∃ q, ∀ (copied : FileTree) (cwd' path' : Path) (j' : Log.Journal),
      copied.Grounded → copied.IsWorkingDirectory cwd' →
      copied.contentAt cwd' path' = t'.contentAt cwd path →
      ((read loader copied cwd' path').run.run j').1 = .ok q) := by
  constructor
  · intro hne hrel base base' top dir file hinside hthere copied cwd' path' j' hcopied hcwd' hentry
      hcontent outcome
    have hread : outcome = .ok (moved base base' top p).mend :=
      run_read_of_copy ht hcwd hyaml ht' hwrite hne hrel hinside hthere hcopied hcwd' hentry
        hcontent j'
    refine ⟨hread, ?_⟩
    rw [hread, Except.ok.injEq]
    exact mend_moved_iff base base' top p
  · intro hroot
    obtain ⟨d, base, here, hsaved⟩ := saved_of_save ht hcwd (save_of_write ht' hwrite)
    refine ⟨planOf base d.mend, fun copied cwd' path' j' hcopied hcwd' hcontent => ?_⟩
    rw [hsaved.content] at hcontent
    obtain ⟨base', hbase'⟩ := exists_realPath_of_content hcopied hcwd' hcontent
    rw [run_read_of_content (kind_and_names_of_document hsaved.document).1 (hyaml d hsaved.draft)
        hcontent hbase',
      planOf_mend_eq_of_absolute hroot hsaved.document base' base]

/-- A plan that has been written can be copied: the file is what was written. -/
theorem exists_copy_of_write {t t' : FileTree} {cwd path : Path} {p : Plan} {j : Log.Journal}
    (ht : t.Grounded) (hcwd : t.IsWorkingDirectory cwd) (ht' : (write t cwd path p).1 = t')
    (hwrite : ((write t cwd path p).2.run.run j).1 = .ok ()) (access : FileTree.Access) :
    ∃ content, t'.contentAt cwd path = .ok content ∧
      FileTree.Node.file access ((t'.contentAt cwd path).toOption.getD []) = .file access content := by
  obtain ⟨d, base, here, hsaved⟩ := saved_of_save ht hcwd (save_of_write ht' hwrite)
  exact ⟨_, hsaved.content, by rw [hsaved.content]; rfl⟩

/-- A tree that has moved from `/work` to `/old/shop` with a plan whose root is relative, and a copy
at the top of the tree of a plan whose root is absolute.  The copies may only be read. -/
theorem read_moved_of_copies :
    let cwd : Path := ⟨.slash, ["work"]⟩
    let t := FileTree.empty.set ["work"] (.directory .all)
    let path := Path.parse "plans/shop.yaml"
    let copyOf (p : Plan) : FileTree.Node :=
      .file .read (((write t cwd path p).1.contentAt cwd path).toOption.getD [])
    let web (dir : String) := { Service.new "web" .any with
      image := "", relPath := "", build := .cnb
      sources := ArtifactMap.empty.add .sourceCode dir }
    let shop := { Plan.new "" "" with
      rootDir := "shop"
      k8sFiles := ["../b"]
      services := OrderedMap.empty.insert "web" [web "/work/lib/a"] }
    let moved₁ := (((FileTree.empty.set ["old"] (.directory .all)).set ["old", "shop"]
      (.directory .all)).set ["old", "shop", "plans"] (.directory .all)).set
        ["old", "shop", "plans", "shop.yaml"] (copyOf shop)
    let fixed := { Plan.new "" "" with rootDir := "/work/shop", k8sFiles := ["a"] }
    let moved₂ := FileTree.empty.set ["plan.yaml"] (copyOf fixed)
    (((write t cwd path shop).2.run.run .empty).1 = .ok () ∧
      ((read .standard moved₁ ⟨.slash, ["old"]⟩ (.parse "shop/plans/shop.yaml")).run.run .empty).1 =
        .ok { shop with
          rootDir := "/old/shop/shop"
          k8sFiles := ["/old/shop/b"]
          services := OrderedMap.empty.insert "web" [web "/old/shop/lib/a"] }) ∧
    ((write t cwd path fixed).2.run.run .empty).1 = .ok () ∧
      ∃ q, ((read .standard (write t cwd path fixed).1 cwd path).run.run .empty).1 = .ok q ∧
        ((read .standard moved₂ ⟨.slash, []⟩ (.parse "plan.yaml")).run.run .empty).1 = .ok q := by
  intro cwd t path copyOf web shop moved₁ fixed moved₂
  have ht : t.Grounded := FileTree.grounded_directory
  have hcwd : t.IsWorkingDirectory cwd :=
    FileTree.isWorkingDirectory_directory (by decide) (by decide)
  have hdraft := fun p hkind => @draft_of_realPath t cwd path ⟨.slash, ["work", "plans"]⟩ p hkind
    (FileTree.realPath_of_place ht hcwd (by rfl))
  have hparents : t.makeParents cwd path = (t.set ["work", "plans"] (.directory .all), none) := by
    rfl
  have hwritten : ∀ p : Plan, p.kind = Plan.standardKind →
      (∀ j, ((write t cwd path p).2.run.run j).1 = .ok ()) ∧
        (write t cwd path p).1.entry cwd path = .ok ["work", "plans", "shop.yaml"] ∧
        ∃ content, (write t cwd path p).1.contentAt cwd path = .ok content ∧
          copyOf p = .file .read content := by
    intro p hkind
    obtain ⟨htree, hwrite⟩ := write_of_save (@save_of_openFile _ _ _ _ _ _
      ["work", "plans", "shop.yaml"] (hdraft p hkind) hparents (by rfl) (by rfl))
    exact ⟨hwrite, by rw [htree]; rfl, exists_copy_of_write ht hcwd rfl (hwrite .empty) .read⟩
  refine ⟨?_, ?_⟩
  · obtain ⟨hwrite, hentry, content, hcontent, hcopy⟩ := hwritten shop rfl
    have hyaml := read_draft .standard (hdraft shop rfl) (by decide +kernel) (by decide +kernel)
    have hinside : Inside cwd ["work"] ["shop"] shop := by
      refine ⟨by decide +kernel, fun v hv habs => ⟨["lib", "a"], by decide, ?_⟩⟩
      have hone : ∀ v ∈ shop.pathValues, isAbsolute v = true → v = "/work/lib/a" := by
        decide +kernel
      rw [hone v hv habs]
      decide +kernel
    have hmoved : moved₁ = (((FileTree.empty.set ["old"] (.directory .all)).set ["old", "shop"]
        (.directory .all)).set ["old", "shop", "plans"] (.directory .all)).set
          ["old", "shop", "plans", "shop.yaml"] (.file .read content) :=
      congrArg (FileTree.set _ _) hcopy
    have hcopied : moved₁.Grounded := by
      rw [hmoved]
      exact ((FileTree.grounded_directory.set (FileTree.not_directoryAt_of_none (by rfl))
        ⟨.all, by rfl⟩ _).set (FileTree.not_directoryAt_of_none (by rfl)) ⟨.all, by rfl⟩ _).set
          (FileTree.not_directoryAt_of_none (by rfl)) ⟨.all, by rfl⟩ _
    have hcwd' : moved₁.IsWorkingDirectory ⟨.slash, ["old"]⟩ := by
      rw [hmoved]
      exact ⟨rfl, by decide, by decide, ⟨.all, by rfl⟩⟩
    have hsame : moved₁.contentAt ⟨.slash, ["old"]⟩ (.parse "shop/plans/shop.yaml") =
        (write t cwd path shop).1.contentAt cwd path := by
      rw [hcontent, hmoved]
      rfl
    obtain ⟨hread, -⟩ := (read_moved ht hcwd hyaml rfl (hwrite .empty)).1 (by decide)
      (by decide +kernel) ["work"] ["old", "shop"] ["shop"] ["plans"] "shop.yaml" hinside hentry
      moved₁ _ (.parse "shop/plans/shop.yaml") .empty hcopied hcwd' (by rw [hmoved]; rfl) hsame
    exact ⟨hwrite .empty, hread.trans (congrArg Except.ok (by decide +kernel))⟩
  · obtain ⟨hwrite, -, content, hcontent, hcopy⟩ := hwritten fixed rfl
    have hyaml := read_draft .standard (hdraft fixed rfl) (by decide +kernel) (by decide +kernel)
    have hmoved : moved₂ = FileTree.empty.set ["plan.yaml"] (.file .read content) :=
      congrArg (FileTree.set _ _) hcopy
    have hcopied : moved₂.Grounded := by
      rw [hmoved]
      exact FileTree.grounded_empty.set (FileTree.not_directoryAt_of_none (by rfl))
        (FileTree.directoryAt_root _) _
    obtain ⟨q, hq⟩ := (read_moved ht hcwd hyaml rfl (hwrite .empty)).2 (by decide +kernel)
    have hgrown := grown_of_write ht hcwd (hwrite .empty)
    refine ⟨hwrite .empty, q, ?_, ?_⟩
    · exact hq _ cwd path .empty hgrown.grounded (hgrown.workingDirectory hcwd) rfl
    · refine hq moved₂ ⟨.slash, []⟩ (.parse "plan.yaml") .empty hcopied
        (FileTree.isWorkingDirectory_root moved₂) ?_
      rw [hcontent, hmoved]
      rfl

/-- A plan whose only service has half of a pair for its name moves, but for the name. -/
theorem read_moved_renames_half_pair :
    let cwd : Path := ⟨.slash, ["work"]⟩
    let t := FileTree.empty.set ["work"] (.directory .all)
    let path := Path.parse "plan.yaml"
    let p := { Plan.new "shop" "Kubernetes" with
      rootDir := "shop"
      services := OrderedMap.empty.insert (String.ofList (Text.ofCodes [0xD83D]))
        [Service.new "web" .any] }
    let t' := (write t cwd path p).1
    let copied := (FileTree.empty.set ["old"] (.directory .all)).set ["old", "plan.yaml"]
      (.file .write ((t'.contentAt cwd path).toOption.getD []))
    let outcome := ((read .standard copied ⟨.slash, ["old"]⟩ path).run.run .empty).1
    Inside cwd ["work"] ["shop"] p ∧ ((write t cwd path p).2.run.run .empty).1 = .ok () ∧
      t'.entry cwd path = .ok ["work", "plan.yaml"] ∧
      copied.entry ⟨.slash, ["old"]⟩ path = .ok ["old", "plan.yaml"] ∧
      copied.contentAt ⟨.slash, ["old"]⟩ path = t'.contentAt cwd path ∧
      outcome = .ok { moved ["work"] ["old"] ["shop"] p with
        services := OrderedMap.empty.insert "\ufffd\ufffd\ufffd" [Service.new "web" .any] } ∧
      outcome ≠ .ok (moved ["work"] ["old"] ["shop"] p) := by
  intro cwd t path p t' copied outcome
  have ht : t.Grounded := FileTree.grounded_directory
  have hcwd : t.IsWorkingDirectory cwd :=
    FileTree.isWorkingDirectory_directory (by decide) (by decide)
  have hdraft := @draft_of_realPath t cwd path cwd p rfl
    (FileTree.realPath_of_place ht hcwd (by rfl))
  obtain ⟨htree, hwrite⟩ := write_of_save
    (@save_of_openFile t t _ _ _ _ ["work", "plan.yaml"] hdraft (by rfl) (by rfl) (by rfl))
  have hinside : Inside cwd ["work"] ["shop"] p :=
    ⟨by decide +kernel, fun v hv habs => absurd habs (by revert v; decide +kernel)⟩
  have hyaml := read_draft .standard hdraft (by decide +kernel) (by decide +kernel)
  have hthere : t'.entry cwd path = .ok ["work", "plan.yaml"] := by
    rw [show t' = _ from htree]
    rfl
  obtain ⟨content, hcontent, hcopy⟩ := exists_copy_of_write ht hcwd rfl (hwrite .empty) .write
  have hcopied : copied = (FileTree.empty.set ["old"] (.directory .all)).set ["old", "plan.yaml"]
      (.file .write content) := congrArg (FileTree.set _ _) hcopy
  have hgrounded : copied.Grounded := by
    rw [hcopied]
    exact FileTree.grounded_directory.set (FileTree.not_directoryAt_of_none (by rfl))
      ⟨.all, by rfl⟩ _
  have hcwd' : copied.IsWorkingDirectory ⟨.slash, ["old"]⟩ := by
    rw [hcopied]
    exact ⟨rfl, by decide, by decide, ⟨.all, by rfl⟩⟩
  have hentry : copied.entry ⟨.slash, ["old"]⟩ path = .ok ["old", "plan.yaml"] := by
    rw [hcopied]
    rfl
  have hsame : copied.contentAt ⟨.slash, ["old"]⟩ path = t'.contentAt cwd path := by
    rw [hcontent, hcopied]
    rfl
  have hread : outcome = .ok (moved ["work"] ["old"] ["shop"] p).mend :=
    @run_read_of_copy _ _ _ _ _ _ _ ht hcwd hyaml rfl (hwrite .empty) (by decide) (by decide)
      ["work"] ["old"] ["shop"] [] "plan.yaml" hinside hthere copied _ path hgrounded hcwd' hentry
      hsame .empty
  refine ⟨hinside, hwrite .empty, hthere, hentry, hsame,
    hread.trans (congrArg Except.ok (by decide +kernel)), ?_⟩
  rw [hread]
  exact fun h => absurd (Except.ok.inj h) (by decide +kernel)

end Store
end Replatform
