import Replatform.Proofs.Document.Legible
import Replatform.Proofs.FileTree.RealPath
import Replatform.Proofs.Log.Activity
import Replatform.Proofs.Store.Conversion

/-! # Plans through the store

A plan that has been written is read back, by whatever path names the file from whatever working
directory.  Its root is absolute then, and so are its paths; the repeats in its lists are gone, and
its services stand under the names under which they were written.

Two conversions have to cancel.  A path is written relative to the root of the plan, and a
relative root relative to the directory of the file.  Both are taken at the same directories
again when the file is read: the parent of a path that names the file is always resolved to the
directory in which the file is, and it was resolved to the same before the file was written.
-/
namespace Replatform

namespace Store

variable {loader : Yaml.Loader}

/-! ## Files -/

/-- A written tree reads back as the document with mended names, if the text does as the tree. -/
theorem readDocument_write {path : String} {d : Document} (hkind : d.kind = Plan.standardKind)
    (hyaml : Yaml.read loader d.tree.write = .ok d.tree.toValue) :
    readDocument loader path (Utf8.encode d.tree.write) = .ok d.mend := by
  have hread := Document.read_toValue_tree_mend hkind
  obtain ⟨es, hes⟩ : ∃ es, d.tree.toValue = .map es := ⟨_, rfl⟩
  have hentries : readEntries loader path (Utf8.encode d.tree.write) = .ok es := by
    simp only [readEntries, Utf8.decode_encode, Yaml.Tree.plainLines_write, hyaml, hes]
  rw [hes] at hread
  have hdocument : Document.readEntries es = .ok d.mend := hread
  simp only [readDocument, hentries, bind, Except.bind, hdocument]
  rfl

/-- A plan is written exactly if it is saved. -/
theorem save_of_write {t t' : FileTree} {cwd path : Path} {p : Plan} {j : Log.Journal}
    (ht' : (write t cwd path p).1 = t') (h : ((write t cwd path p).2.run.run j).1 = .ok ()) :
    save t cwd path p = (t', .ok ()) := by
  unfold write at ht' h
  rcases hs : save t cwd path p with ⟨t₁, fault | ⟨⟩⟩
  · rw [hs] at h
    cases fault <;> cases h
  · rw [hs] at ht'
    rw [← ht']

/-- What is saved is the file with the document of the plan, in the directory above it. -/
theorem save_ok {t t' : FileTree} {cwd path : Path} {p : Plan}
    (h : save t cwd path p = (t', .ok ())) :
    ∃ d t₁ here, draft t cwd path p = .ok d ∧ t₁ = (t.makeParents cwd path).1 ∧
      t₁.openFile cwd path = .ok here ∧
      t' = t₁.set here (.file .write (Utf8.encode d.tree.write)) := by
  unfold save at h
  cases hd : draft t cwd path p with
  | error fault =>
    rw [hd] at h
    cases h
  | ok d =>
    rw [hd] at h
    dsimp only at h
    split at h
    · cases h
    · rename_i t₁ hparents
      split at h
      · cases h
      · rename_i t₂ hstore
        obtain ⟨here, hopen, -, rfl⟩ := FileTree.storeFile_none hstore
        obtain rfl : t₁.set here _ = t' := congrArg Prod.fst h
        exact ⟨d, t₁, here, rfl, by rw [hparents], hopen, rfl⟩

/-- Where the directory of the file is known, the document of a plan is so as well. -/
theorem draft_of_realPath {t : FileTree} {cwd path base : Path} {p : Plan}
    (hkind : p.kind = Plan.standardKind) (h : t.realPath cwd path.parent = .ok base) :
    draft t cwd path p = .ok { Document.ofPlan (toRelative cwd (rootOf cwd p.rootDir)) p with
      rootDir := storedRoot cwd base p.rootDir } := by
  have hd := document_of_kind hkind cwd base
  by_cases hrel : isRelativeRoot p.rootDir = true
  · exact draft_eq_ok.mpr ⟨_, (if_pos hrel).trans (directoryOf_eq_ok.mpr h), hd⟩
  · rw [document_of_not_relative hrel cwd base cwd] at hd
    exact draft_eq_ok.mpr ⟨_, if_neg hrel, hd⟩

/-- The document that is written reads as itself if its names fit and its texts are canonical. -/
theorem read_draft (loader : Yaml.Loader) {t : FileTree} {cwd path : Path} {p : Plan} {d : Document}
    (hdraft : draft t cwd path p = .ok d)
    (hfits : ∀ name ∈ d.services.keys, Yaml.keyFits (Text.mended name) = true)
    (hcanonical : d.mend.canonical = d.mend) :
    ∀ e, draft t cwd path p = .ok e → Yaml.read loader e.tree.write = .ok e.tree.toValue := by
  intro e he
  obtain rfl := Except.ok.inj (hdraft.symm.trans he)
  exact Document.read_write_of_canonical hfits hcanonical

/-- A plan is saved where the file can be opened and the device takes its document. -/
theorem save_of_openFile {t t₁ : FileTree} {cwd path : Path} {p : Plan} {d : Document}
    {here : List String} (hdraft : draft t cwd path p = .ok d)
    (hparents : t.makeParents cwd path = (t₁, none)) (hopen : t₁.openFile cwd path = .ok here)
    (hdevice : t₁.device here (Utf8.encode d.tree.write) = none) :
    save t cwd path p = (t₁.set here (.file .write (Utf8.encode d.tree.write)), .ok ()) := by
  simp only [save, hdraft, hparents, FileTree.storeFile_of_openFile hopen hdevice]

theorem write_of_save {t t' : FileTree} {cwd path : Path} {p : Plan}
    (h : save t cwd path p = (t', .ok ())) :
    (write t cwd path p).1 = t' ∧ ∀ j, ((write t cwd path p).2.run.run j).1 = .ok () := by
  rw [write, h]
  exact ⟨rfl, fun _ => rfl⟩

/-- The plan has been saved in the tree `t`, which is `t'` now: the path leads to a file with its
document, as it is made for the directory in which the file is. -/
structure Saved (t t' : FileTree) (cwd path : Path) (p : Plan) (d : Document) (base : Path)
    (here : List String) : Prop where
  draft : draft t cwd path p = .ok d
  document : document cwd base p = .ok d
  grown : FileTree.Grown t t'
  place : t'.place cwd path = .ok here
  file : t'.node? here = some (.file .write (Utf8.encode d.tree.write))
  base : t'.realPath cwd path.parent = .ok base

theorem saved_of_save {t t' : FileTree} {cwd path : Path} {p : Plan} (ht : t.Grounded)
    (hcwd : t.IsWorkingDirectory cwd) (h : save t cwd path p = (t', .ok ())) :
    ∃ d base here, Saved t t' cwd path p d base here := by
  obtain ⟨d, t₁, here, hdraft, rfl, hopen, rfl⟩ := save_ok h
  have hparents := FileTree.grown_makeParents ht hcwd path
  have hcwd₁ := hparents.workingDirectory hcwd
  have hfile := FileTree.grown_openFile hparents.grounded hcwd₁ hopen (Utf8.encode d.tree.write)
  have hgrown := hparents.trans hfile
  have hne : here ≠ [] := FileTree.ne_nil_of_not_directoryAt (FileTree.openFile_ok hopen).2.1
  have hplace := FileTree.place_of_openFile hopen (Utf8.encode d.tree.write)
  have hnode := FileTree.node?_set_self (t.makeParents cwd path).1 hne
    (.file .write (Utf8.encode d.tree.write))
  obtain ⟨dir, name, hreal, -⟩ := FileTree.realPath_parent hfile.grounded
    (hfile.workingDirectory hcwd₁) hplace (FileTree.not_directoryAt_of_file hnode)
  refine ⟨d, ⟨.slash, dir⟩, here, hdraft, ?_, hgrown, hplace, hnode, hreal⟩
  -- a relative root was stored by the same directory, and any other one by none
  obtain ⟨base, hbase, hd⟩ := draft_eq_ok.mp hdraft
  by_cases hrel : isRelativeRoot p.rootDir = true
  · rw [baseOf, if_pos hrel, directoryOf_eq_ok] at hbase
    have hbase' := FileTree.realPath_of_extends ht hgrown.extended hcwd hbase
    rwa [Except.ok.inj (hreal.symm.trans hbase')]
  · rwa [document_of_not_relative hrel cwd ⟨.slash, dir⟩ base]

section

variable {t t' : FileTree} {cwd path base : Path} {p : Plan} {d : Document} {here : List String}

theorem Saved.notDirectory (h : Saved t t' cwd path p d base here) : ¬t'.DirectoryAt here :=
  FileTree.not_directoryAt_of_file h.file

theorem Saved.content (h : Saved t t' cwd path p d base here) :
    t'.contentAt cwd path = .ok (Utf8.encode d.tree.write) :=
  FileTree.contentAt_of_file h.place h.file

theorem Saved.workingDirectory (h : Saved t t' cwd path p d base here)
    (hcwd : t.IsWorkingDirectory cwd) : t'.IsWorkingDirectory cwd :=
  h.grown.workingDirectory hcwd

theorem Saved.real (h : Saved t t' cwd path p d base here) (hcwd : t.IsWorkingDirectory cwd) :
    base.IsReal :=
  FileTree.isReal_of_realPath h.grown.grounded (h.workingDirectory hcwd) h.base

/-- Another path that names the file leads to it as well, and its parent to its directory. -/
theorem Saved.sameFile (h : Saved t t' cwd path p d base here) (hcwd : t.IsWorkingDirectory cwd)
    {cwd' path' : Path} (hcwd' : t'.IsWorkingDirectory cwd')
    (hsame : t'.SameFile cwd path cwd' path') :
    t'.contentAt cwd' path' = .ok (Utf8.encode d.tree.write) ∧
      t'.realPath cwd' path'.parent = .ok base := by
  refine ⟨FileTree.contentAt_of_file (hsame.place.trans h.place) h.file, ?_⟩
  rw [hsame.realPath_parent h.grown.grounded (h.workingDirectory hcwd) hcwd' h.place
    h.notDirectory]
  exact h.base

end

/-- What a file gives is the plan of the document in it, for the directory in which the file is. -/
theorem load_of_content {t : FileTree} {cwd path base : Path} {content : List UInt8}
    (hcontent : t.contentAt cwd path = .ok content) (hbase : t.realPath cwd path.parent = .ok base) :
    load loader t cwd path = (readDocument loader path.text content).map (planOf base) := by
  rw [load, hcontent]
  dsimp only
  cases hd : readDocument loader path.text content with
  | error fault => rfl
  | ok d =>
    show (baseOf t cwd path _ >>= fun base => pure (planOf base d)) = _
    by_cases hroot : d.rootDir = ""
    · rw [baseOf, if_neg (by simpa using hroot)]
      exact congrArg Except.ok (planOf_of_no_root hroot cwd base)
    · rw [baseOf, if_pos (by simpa using hroot), directoryOf_eq_ok.mpr hbase]
      rfl

theorem run_read {t : FileTree} {cwd path : Path} {p : Plan} (h : load loader t cwd path = .ok p)
    (j : Log.Journal) : ((read loader t cwd path).run.run j).1 = .ok p := by
  unfold read
  rw [h]
  rfl

/-- What is read of a file with the document of a plan, in whatever tree it stands. -/
theorem run_read_of_content {t : FileTree} {cwd path base : Path} {d : Document}
    (hkind : d.kind = Plan.standardKind)
    (hyaml : Yaml.read loader d.tree.write = .ok d.tree.toValue)
    (hcontent : t.contentAt cwd path = .ok (Utf8.encode d.tree.write))
    (hbase : t.realPath cwd path.parent = .ok base) (j : Log.Journal) :
    ((read loader t cwd path).run.run j).1 = .ok (planOf base d.mend) := by
  refine run_read ?_ j
  rw [load_of_content hcontent hbase, readDocument_write hkind hyaml]
  rfl

/-! ## There and back -/

theorem mend_restored_iff (cwd : Path) (p : Plan) :
    (restored cwd p).mend = restored cwd p ↔ ∀ name ∈ p.services.keys, Text.IsOfChars name := by
  have hkeys : (restored cwd p).services.keys = p.services.keys := by
    unfold restored
    cases rootOf cwd p.rootDir <;> exact OrderedMap.keys_map _ _
  rw [Plan.mend_eq_self_iff, hkeys]

/-- If no path begins with exactly two slashes, all of them are taken as seen from the root. -/
theorem restored_of_singleSlash {cwd root : Path} {p : Plan} (hcwd : cwd.root = .slash)
    (hroot : rootOf cwd p.rootDir = some root) (hslash : (Path.parse p.rootDir).SingleSlash)
    (hvalues : ∀ v ∈ p.pathValues, (Path.parse v).SingleSlash) :
    restored cwd p =
      { p.mapPaths (fun v => (root.resolve (.parse v)).text) with rootDir := root.text } := by
  have hne : p.rootDir ≠ "" := by
    intro hempty
    rw [rootOf, if_pos hempty] at hroot
    cases hroot
  have hsingle : root.root = .slash := by
    rw [rootOf_of_ne cwd hne] at hroot
    rw [← Option.some.inj hroot, Path.root_resolve hcwd hslash]
  have hmap := Plan.mapPaths_congr (p := p) fun v hv =>
    congrArg Path.text (located_of_singleSlash hsingle (hvalues v hv))
  rw [restored, hroot]
  dsimp only
  rw [hmap]

/-- A plan that has been written is read as it is restored, under the names that were written. -/
theorem run_read_of_write {t t' : FileTree} {cwd cwd' path path' : Path} {p : Plan}
    {j : Log.Journal} (ht : t.Grounded) (hcwd : t.IsWorkingDirectory cwd)
    (hcwd' : t'.IsWorkingDirectory cwd')
    (hyaml : ∀ d, draft t cwd path p = .ok d →
      Yaml.read loader d.tree.write = .ok d.tree.toValue)
    (ht' : (write t cwd path p).1 = t') (hwrite : ((write t cwd path p).2.run.run j).1 = .ok ())
    (hsame : t'.SameFile cwd path cwd' path') (j' : Log.Journal) :
    ((read loader t' cwd' path').run.run j').1 = .ok (restored cwd p).mend := by
  obtain ⟨d, base, here, hsaved⟩ := saved_of_save ht hcwd (save_of_write ht' hwrite)
  obtain ⟨hcontent, hbase⟩ := hsaved.sameFile hcwd hcwd' hsame
  rw [run_read_of_content (kind_and_names_of_document hsaved.document).1
    (hyaml d hsaved.draft) hcontent hbase, planOf_mend,
    planOf_document hcwd.proper hcwd.real (hsaved.real hcwd) hsaved.document]

theorem grown_of_write {t : FileTree} {cwd path : Path} {p : Plan} {j : Log.Journal}
    (ht : t.Grounded) (hcwd : t.IsWorkingDirectory cwd)
    (hwrite : ((write t cwd path p).2.run.run j).1 = .ok ()) :
    FileTree.Grown t (write t cwd path p).1 := by
  obtain ⟨d, base, here, hsaved⟩ := saved_of_save ht hcwd (save_of_write rfl hwrite)
  exact hsaved.grown

/-- **A plan that has been written is read back**, with its paths absolute, without repeats, and
with the names under which its services were written.  It is the plan itself, but for the paths
and the repeats, exactly if all names are texts of characters; and if no path begins with exactly
two slashes, the paths are those seen from the root.  The tree has directories above all that
stands in it, the working directories are directories in it, and the second path names the same
file as the first.  What is assumed of YAML is that the document that is written reads as itself. -/
theorem read_write {t t' : FileTree} {cwd cwd' path path' : Path} {p : Plan} {j j' : Log.Journal}
    (ht : t.Grounded) (hcwd : t.IsWorkingDirectory cwd) (hcwd' : t'.IsWorkingDirectory cwd')
    (hyaml : ∀ d, draft t cwd path p = .ok d →
      Yaml.read loader d.tree.write = .ok d.tree.toValue)
    (ht' : (write t cwd path p).1 = t') (hwrite : ((write t cwd path p).2.run.run j).1 = .ok ())
    (hsame : t'.SameFile cwd path cwd' path') :
    let outcome := ((read loader t' cwd' path').run.run j').1
    outcome = .ok (restored cwd p).mend ∧
      (outcome = .ok (restored cwd p) ↔ ∀ name ∈ p.services.keys, Text.IsOfChars name) ∧
      ∀ root, rootOf cwd p.rootDir = some root → (Path.parse p.rootDir).SingleSlash →
        (∀ v ∈ p.pathValues, (Path.parse v).SingleSlash) →
        restored cwd p =
          { p.mapPaths (fun v => (root.resolve (.parse v)).text) with rootDir := root.text } := by
  intro outcome
  have hread : outcome = .ok (restored cwd p).mend :=
    run_read_of_write ht hcwd hcwd' hyaml ht' hwrite hsame j'
  refine ⟨hread, ?_, fun root => restored_of_singleSlash hcwd.root⟩
  rw [hread, Except.ok.injEq]
  exact mend_restored_iff cwd p

/-- A plan with a relative root that is written below the working directory and read from the top
of the tree. -/
theorem read_write_of_relative_root :
    let cwd : Path := ⟨.slash, ["work"]⟩
    let t := FileTree.empty.set ["work"] (.directory .all)
    let web := { Service.new "web" .any with
      targetOptions := ["image", "image"]
      sources := ArtifactMap.empty.add .sourceCode "/work/shop/src" }
    let p := { Plan.new "shop" "Kubernetes" with
      rootDir := "shop"
      services := OrderedMap.empty.insert "web" [web] }
    let path := Path.parse "plans/shop.yaml"
    let path' := Path.parse "work/plans/shop.yaml"
    let t' := (write t cwd path p).1
    ((write t cwd path p).2.run.run .empty).1 = .ok () ∧
      t'.SameFile cwd path ⟨.slash, []⟩ path' ∧
      ((read .standard t' ⟨.slash, []⟩ path').run.run .empty).1 = .ok (restored cwd p) := by
  intro cwd t web p path path' t'
  have hcwd : t.IsWorkingDirectory cwd :=
    FileTree.isWorkingDirectory_directory (by decide) (by decide)
  have hdraft := @draft_of_realPath t cwd path ⟨.slash, ["work", "plans"]⟩ p rfl
    (FileTree.realPath_of_place FileTree.grounded_directory hcwd (by rfl))
  have hyaml := read_draft .standard hdraft (by decide +kernel) (by decide +kernel)
  have hparents : t.makeParents cwd path = (t.set ["work", "plans"] (.directory .all), none) := by
    rfl
  obtain ⟨ht', hwrite⟩ := write_of_save
    (@save_of_openFile _ _ _ _ _ _ ["work", "plans", "shop.yaml"] hdraft hparents (by rfl) (by rfl))
  have hsame : t'.SameFile cwd path ⟨.slash, []⟩ path' := by
    rw [show t' = _ from ht']
    exact ⟨by rfl, by rfl⟩
  have hnames : ∀ name ∈ p.services.keys, Text.IsOfChars name := by
    intro name hname
    obtain rfl : name = "web" := List.mem_singleton.mp hname
    exact ⟨"web".toList, by decide⟩
  obtain ⟨-, hread, -⟩ := read_write FileTree.grounded_directory hcwd
    (FileTree.isWorkingDirectory_root t') hyaml rfl (hwrite .empty) hsame
  exact ⟨hwrite .empty, hsame, hread.mpr hnames⟩

/-- A service whose name is half of a pair is read under another name. -/
theorem read_write_renames_half_pair :
    let p := { Plan.new "shop" "Kubernetes" with
      services := OrderedMap.empty.insert (String.ofList (Text.ofCodes [0xD83D]))
        [Service.new "web" .any] }
    let path := Path.parse "plan.yaml"
    let t := (write .empty ⟨.slash, []⟩ path p).1
    p.kind = Plan.standardKind ∧
      (∀ d, draft .empty ⟨.slash, []⟩ path p = .ok d →
        Yaml.read .standard d.tree.write = .ok d.tree.toValue) ∧
      ((write .empty ⟨.slash, []⟩ path p).2.run.run .empty).1 = .ok () ∧
      ((read .standard t ⟨.slash, []⟩ path).run.run .empty).1 =
        .ok { restored ⟨.slash, []⟩ p with
          services := OrderedMap.empty.insert "\ufffd\ufffd\ufffd" [Service.new "web" .any] } ∧
      ((read .standard t ⟨.slash, []⟩ path).run.run .empty).1 ≠ .ok (restored ⟨.slash, []⟩ p) := by
  intro p path t
  have hcwd := FileTree.isWorkingDirectory_root .empty
  have hdraft : draft .empty ⟨.slash, []⟩ path p = .ok (Document.ofPlan id p) := by rfl
  have hyaml := read_draft .standard hdraft (by decide +kernel) (by decide +kernel)
  obtain ⟨-, hwrite⟩ := write_of_save
    (@save_of_openFile _ .empty _ _ _ _ ["plan.yaml"] hdraft (by rfl) (by rfl) (by rfl))
  have hread := run_read_of_write FileTree.grounded_empty hcwd
    ((grown_of_write FileTree.grounded_empty hcwd (hwrite .empty)).workingDirectory hcwd) hyaml rfl
    (hwrite .empty) ⟨rfl, rfl⟩ .empty
  refine ⟨rfl, hyaml, hwrite .empty, hread.trans (congrArg Except.ok (by decide +kernel)), ?_⟩
  rw [hread]
  intro hsame
  exact absurd (Except.ok.inj hsame) (by decide +kernel)

end Store
end Replatform
