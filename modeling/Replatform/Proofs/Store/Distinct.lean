import Replatform.Proofs.Assembly.Offer
import Replatform.Proofs.Store.RoundTrip

/-! # Services that a file keeps apart

Services are told apart by the texts of their build directories, but a file does not keep these
texts: a directory is read back as the place that it is as seen from the root.  So two entries
of a plan become the same service exactly if they agree in everything else that tells services
apart, and their build directories are two **spellings of one place**, such as `src` and
`./src`, or `src` and the absolute path of it.  In a plan without a root nothing is changed, and
the entries stay apart as they are.
-/
namespace Replatform

/-! ## Converted services -/

namespace Service

@[simp] theorem profile_mapPaths (f : String → String) (s : Service) :
    (s.mapPaths f).profile = s.profile := rfl

theorem buildDir?_mapPaths (f : String → String) (s : Service) :
    (s.mapPaths f).buildDir? = s.buildDir?.map f :=
  ArtifactMap.first?_mapPaths f s.builds .sourceCode

/-- Services that are not the same become the same if only their build directories tell them
apart, and these are converted to one. -/
theorem isSame_mapPaths_iff {s t : Service} (h : ¬s.isSame t = true) (f : String → String) :
    (s.mapPaths f).isSame (t.mapPaths f) = true ↔
      s.profile = t.profile ∧
        ∃ d d', s.buildDir? = some d ∧ t.buildDir? = some d' ∧ f d = f d' := by
  rw [isSame_iff, profile_mapPaths, profile_mapPaths, buildDir?_mapPaths, buildDir?_mapPaths]
  refine and_congr_right fun hp => ?_
  obtain ⟨d, d', hd, hd', -⟩ := (not_isSame_iff.mp h).resolve_left fun hne => hne hp
  simp [hd, hd']

end Service

namespace Store

/-! ## Spellings of one place -/

/-- The two texts name one place, as seen from the root of a plan; without a root a text names
nothing but itself. -/
def SamePlace (root : Option Path) (d d' : String) : Prop :=
  match root with
  | none => d = d'
  | some root => (root.resolve (.parse d)).parts = (root.resolve (.parse d')).parts

/-- If two services agree in everything else that tells services apart, then their build
directories are different places. -/
def PlacesApart (root : Option Path) (s t : Service) : Prop :=
  s.profile = t.profile → ∀ d d', s.buildDir? = some d → t.buildDir? = some d' →
    ¬SamePlace root d d'

/-- Services that are not the same stay so under a conversion that tells places apart, exactly if
their build directories are different places. -/
theorem not_isSame_mapPaths_iff {root : Option Path} {f : String → String}
    (hf : ∀ d d', f d = f d' ↔ SamePlace root d d') {s t : Service} (h : ¬s.isSame t = true) :
    ¬(s.mapPaths f).isSame (t.mapPaths f) = true ↔ PlacesApart root s t := by
  rw [Service.isSame_mapPaths_iff h, PlacesApart]
  constructor
  · intro hnot hp d d' hd hd' hplace
    exact hnot ⟨hp, d, d', hd, hd', (hf d d').mpr hplace⟩
  · rintro hapart ⟨hp, d, d', hd, hd', hdd'⟩
    exact hapart hp d d' hd hd' ((hf d d').mp hdd')

theorem pairwise_mapPaths_iff {root : Option Path} {f : String → String}
    (hf : ∀ d d', f d = f d' ↔ SamePlace root d d') {es : List Service}
    (h : es.Pairwise fun s t => ¬s.isSame t = true) :
    (es.map (·.mapPaths f)).Pairwise (fun s t => ¬s.isSame t = true) ↔
      es.Pairwise (PlacesApart root) := by
  rw [List.pairwise_map]
  constructor
  · exact fun hmap => (h.and hmap).imp fun hst => (not_isSame_mapPaths_iff hf hst.1).mp hst.2
  · exact fun hplaces => (h.and hplaces).imp fun hst =>
      (not_isSame_mapPaths_iff hf hst.1).mpr hst.2

/-! ## What the file makes of a directory -/

/-- The conversion of the paths of a plan on their way through a file. -/
def located? (root : Option Path) (v : String) : String :=
  match root with
  | none => v
  | some root => (located root v).text

/-- On the way through a file two directories become one exactly if they are one place. -/
theorem located?_eq_iff {cwd : Path} (hcwd : cwd.Proper) (root d d' : String) :
    located? (rootOf cwd root) d = located? (rootOf cwd root) d' ↔
      SamePlace (rootOf cwd root) d d' := by
  by_cases hne : root = ""
  · rw [rootOf, if_pos hne]
    exact Iff.rfl
  · rw [rootOf_of_ne cwd hne]
    let place (v : String) : Path := located (cwd.resolve (.parse root)) v
    have hproper : ∀ v, (place v).Proper := fun v =>
      (hcwd.resolve (Path.proper_parse root)).resolve (Path.proper_parse v)
    constructor
    · intro htext
      have hsame : place d = place d' := Path.text_injective (hproper d) (hproper d') htext
      exact (Path.mk.inj hsame).2
    · intro hsame
      exact congrArg (fun parts => (⟨_, parts⟩ : Path).text) hsame

theorem services_restored (cwd : Path) (p : Plan) : (restored cwd p).services =
    p.services.map (·.map (·.mapPaths (located? (rootOf cwd p.rootDir)))) := by
  unfold restored located?
  cases rootOf cwd p.rootDir <;> rfl

/-! ## Entries -/

/-- The entries under a mended name are the entries under some name. -/
theorem under_mendNames (ss : Services) (name : String) :
    Services.under (Document.mendNames ss) name = [] ∨
      ∃ name', Services.under (Document.mendNames ss) name = ss.under name' := by
  unfold Services.under
  cases hes : (Document.mendNames ss).get? name with
  | none => exact Or.inl rfl
  | some es =>
    obtain ⟨name', hmem, -⟩ := Document.mem_of_get?_mendNames hes
    refine Or.inr ⟨name', ?_⟩
    rw [OrderedMap.get?, OrderedMap.find?_of_mem ss.keys_nodup hmem]

/-- The entries of a plan are apart after it has been restored, exactly if no two of them under one
name are the same but for two spellings of one place. -/
theorem apart_restored_iff {cwd : Path} (hcwd : cwd.Proper) {p : Plan}
    (hapart : ∀ name, (p.services.under name).Pairwise fun s s' => ¬s.isSame s' = true)
    (name : String) :
    ((restored cwd p).services.under name).Pairwise (fun s s' => ¬s.isSame s' = true) ↔
      (p.services.under name).Pairwise (PlacesApart (rootOf cwd p.rootDir)) := by
  rw [services_restored, Services.under_map _ _ rfl]
  exact pairwise_mapPaths_iff (located?_eq_iff hcwd p.rootDir) (hapart name)

/-- **The entries of a plan stay apart in a file, unless two of them name one place.**  What is
read of the file is a plan, and if no two entries under a name that agree in all else have build
directories that are one place as seen from the root, then its entries are apart.  For names
that are texts of characters the converse holds as well. -/
theorem entries_apart_after_read {loader : Yaml.Loader} {t t' : FileTree}
    {cwd cwd' path path' : Path} {p : Plan} {j j' : Log.Journal} (ht : t.Grounded)
    (hcwd : t.IsWorkingDirectory cwd) (hcwd' : t'.IsWorkingDirectory cwd')
    (hyaml : ∀ d, draft t cwd path p = .ok d →
      Yaml.read loader d.tree.write = .ok d.tree.toValue)
    (hapart : ∀ name, (p.services.under name).Pairwise fun s s' => ¬s.isSame s' = true)
    (ht' : (write t cwd path p).1 = t') (hwrite : ((write t cwd path p).2.run.run j).1 = .ok ())
    (hsame : t'.SameFile cwd path cwd' path') :
    ∃ q, ((read loader t' cwd' path').run.run j').1 = .ok q ∧
      ((∀ name, (p.services.under name).Pairwise (PlacesApart (rootOf cwd p.rootDir))) →
        ∀ name, (q.services.under name).Pairwise fun s s' => ¬s.isSame s' = true) ∧
      ((∀ name ∈ p.services.keys, Text.IsOfChars name) →
        (∀ name, (q.services.under name).Pairwise fun s s' => ¬s.isSame s' = true) →
          ∀ name, (p.services.under name).Pairwise (PlacesApart (rootOf cwd p.rootDir))) := by
  refine ⟨_, run_read_of_write ht hcwd hcwd' hyaml ht' hwrite hsame j', ?_, ?_⟩
  · intro hpap name
    show (Services.under (Document.mendNames (restored cwd p).services) name).Pairwise _
    rcases under_mendNames (restored cwd p).services name with hnil | ⟨name', hname'⟩
    · rw [hnil]
      exact List.Pairwise.nil
    · rw [hname']
      exact (apart_restored_iff hcwd.proper hapart name').mpr (hpap name')
  · intro hnames hq name
    rw [(mend_restored_iff cwd p).mpr hnames] at hq
    exact (apart_restored_iff hcwd.proper hapart name).mp (hq name)

set_option maxRecDepth 2000 in
/-- Two entries for different directories, in a plan with a relative root that is written below
the working directory and read from the top of the tree. -/
theorem entries_apart_after_read_of_two_dirs :
    let t := FileTree.empty.set ["work"] (.directory .all)
    let entry (dir : String) := { (Service.new "web" .any).addBuild .sourceCode dir with
      image := "", relPath := "", build := .cnb }
    let p := { Plan.new "" "" with
      rootDir := "shop"
      services := OrderedMap.empty.insert "web" [entry "north", entry "/work/shop/south"] }
    let path := Path.parse "plans/shop.yaml"
    let path' := Path.parse "work/plans/shop.yaml"
    let t' := (write t ⟨.slash, ["work"]⟩ path p).1
    ((write t ⟨.slash, ["work"]⟩ path p).2.run.run .empty).1 = .ok () ∧
      t'.SameFile ⟨.slash, ["work"]⟩ path ⟨.slash, []⟩ path' ∧
      ∃ q, ((read .standard t' ⟨.slash, []⟩ path').run.run .empty).1 = .ok q ∧
        ∀ name, (q.services.under name).Pairwise fun s s' => ¬s.isSame s' = true := by
  intro t entry p path path' t'
  have hcwd : t.IsWorkingDirectory ⟨.slash, ["work"]⟩ :=
    FileTree.isWorkingDirectory_directory (by decide) (by decide)
  have hdraft := @draft_of_realPath t ⟨.slash, ["work"]⟩ path ⟨.slash, ["work", "plans"]⟩ p rfl
    (FileTree.realPath_of_place FileTree.grounded_directory hcwd (by rfl))
  have hyaml := read_draft .standard hdraft (by decide +kernel) (by decide +kernel)
  have hparents : t.makeParents ⟨.slash, ["work"]⟩ path =
      (t.set ["work", "plans"] (.directory .all), none) := by rfl
  obtain ⟨ht', hwrite⟩ := write_of_save
    (@save_of_openFile _ _ _ _ _ _ ["work", "plans", "shop.yaml"] hdraft hparents (by rfl) (by rfl))
  have hsame : t'.SameFile ⟨.slash, ["work"]⟩ path ⟨.slash, []⟩ path' := by
    rw [show t' = _ from ht']
    exact ⟨by rfl, by rfl⟩
  have hapart : ∀ name, (p.services.under name).Pairwise fun s s' => ¬s.isSame s' = true := by
    intro name
    rw [Services.under_insert]
    split
    · decide
    · exact List.Pairwise.nil
  have hplaces : ∀ name, (p.services.under name).Pairwise
      (PlacesApart (rootOf ⟨.slash, ["work"]⟩ p.rootDir)) := by
    intro name
    rw [Services.under_insert]
    split
    · refine List.pairwise_pair.mpr fun _ d d' hd hd' => ?_
      obtain rfl : "north" = d := Option.some.inj hd
      obtain rfl : "/work/shop/south" = d' := Option.some.inj hd'
      show ¬_ = _
      decide +kernel
    · exact List.Pairwise.nil
  obtain ⟨q, hq, hkept, -⟩ := entries_apart_after_read FileTree.grounded_directory hcwd
    (FileTree.isWorkingDirectory_root t') hyaml hapart rfl (hwrite .empty) hsame
  exact ⟨hwrite .empty, hsame, q, hq, hkept hplaces⟩

set_option maxRecDepth 2000 in
/-- Entries that are apart need not be so after a plan has been written and read: `north` and its
absolute path are two build directories before, and one after. -/
theorem entries_collide_after_read :
    ¬∀ (loader : Yaml.Loader) (t : FileTree) (cwd path : Path) (p q : Plan) (j j' : Log.Journal),
      t.Grounded → t.IsWorkingDirectory cwd → p.kind = Plan.standardKind →
      (∀ d, draft t cwd path p = .ok d → Yaml.read loader d.tree.write = .ok d.tree.toValue) →
      (∀ name, (p.services.under name).Pairwise fun s s' => ¬s.isSame s' = true) →
      ((write t cwd path p).2.run.run j).1 = .ok () →
      ((read loader (write t cwd path p).1 cwd path).run.run j').1 = .ok q →
      ∀ name, (q.services.under name).Pairwise fun s s' => ¬s.isSame s' = true := by
  intro h
  let t := FileTree.empty.set ["work"] (.directory .all)
  let entry (dir : String) := { (Service.new "web" .any).addBuild .sourceCode dir with
    image := "", relPath := "", build := .cnb }
  let p := { Plan.new "" "" with
    rootDir := "/work"
    services := OrderedMap.empty.insert "web" [entry "north", entry "/work/north"] }
  let path := Path.parse "plan.yaml"
  have hcwd : t.IsWorkingDirectory ⟨.slash, ["work"]⟩ :=
    FileTree.isWorkingDirectory_directory (by decide) (by decide)
  have hdraft := @draft_of_realPath t ⟨.slash, ["work"]⟩ path ⟨.slash, ["work"]⟩ p rfl
    (FileTree.realPath_of_place FileTree.grounded_directory hcwd (by rfl))
  have hyaml := read_draft .standard hdraft (by decide +kernel) (by decide +kernel)
  have hapart : ∀ name, (p.services.under name).Pairwise fun s s' => ¬s.isSame s' = true := by
    intro name
    rw [Services.under_insert]
    split
    · decide
    · exact List.Pairwise.nil
  obtain ⟨-, hwrite⟩ := write_of_save
    (@save_of_openFile t t _ _ _ _ ["work", "plan.yaml"] hdraft (by rfl) (by rfl) (by rfl))
  have hread := run_read_of_write FileTree.grounded_directory hcwd
    ((grown_of_write FileTree.grounded_directory hcwd (hwrite .empty)).workingDirectory hcwd) hyaml
    rfl (hwrite .empty) ⟨rfl, rfl⟩ .empty
  have hloaded := h .standard t _ path p _ .empty .empty FileTree.grounded_directory hcwd rfl hyaml
    hapart (hwrite .empty) hread "web"
  exact absurd hloaded (by decide +kernel)

end Store
end Replatform
