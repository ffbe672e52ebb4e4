import Replatform.Proofs.Document.Legible
import Replatform.Proofs.Store.Outcome
import Replatform.Proofs.Yaml.Sets

/-! # Plans and working directories

The working directory of a process has a say in what a path of it leads to, and in nothing else.
What is read of a file depends on the file, on the directory in which it is, and on the order in
which sets are gone through, if there is one in the file; and this directory is the same place by
whatever path the file was reached.  If the file states a root, then nothing relative is left in
what is read.  What is written to an absolute path is the same from everywhere, if the root of the
plan is absolute or missing: paths are relative to the root then, and the root stays as it is.
-/
namespace Replatform
namespace Store

variable {loader : Yaml.Loader}

/-! ## Reading -/

theorem isAbsolute_toAbsolute {root : Path} (h : root.isAbsolute = true) (v : String) :
    isAbsolute (toAbsolute (some root) v) = true := by
  unfold toAbsolute
  dsimp only
  split
  · assumption
  · exact Path.isAbsolute_parse_text (Path.isCanonical_resolve h _).absolute

/-- Everything is absolute in the plan of a document that states a root. -/
theorem absolute_planOf {base : Path} (hbase : base.isAbsolute = true) {d : Document}
    (hroot : d.rootDir ≠ "") :
    isAbsolute (planOf base d).rootDir = true ∧
      (planOf base d).PathsAre fun v => isAbsolute v = true := by
  have habs := (Path.isCanonical_resolve hbase (.parse d.rootDir)).absolute
  have hloaded : loadedRoot base d.rootDir = some (base.resolve (.parse d.rootDir)) :=
    if_neg hroot
  unfold planOf
  rw [hloaded]
  have hpaths : (Document.toPlan _ d).PathsAre fun v => isAbsolute v = true :=
    Document.pathsAre_toPlan (isAbsolute_toAbsolute habs) d
  exact ⟨Path.isAbsolute_parse_text habs,
    ⟨hpaths.k8sFiles, hpaths.services, hpaths.targets, hpaths.clusterPath⟩⟩

/-- A plan is read exactly where the path leads to a file that holds the document of it. -/
theorem run_read_eq_ok {t : FileTree} (ht : t.Grounded) {cwd path : Path} {p : Plan}
    {j : Log.Journal} : ((read loader t cwd path).run.run j).1 = .ok p ↔
      ∃ content base d, t.contentAt cwd path = .ok content ∧
        t.realPath cwd path.parent = .ok base ∧ HoldsDocument loader content d ∧
          planOf base d = p := by
  rw [run_read_eq]
  constructor
  · intro h
    cases hcontent : t.contentAt cwd path with
    | error r =>
      rw [load, hcontent] at h
      cases r <;> cases h
    | ok content =>
      obtain ⟨base, hbase⟩ := exists_realPath_of_contentAt ht hcontent
      rw [load_of_content hcontent hbase] at h
      cases hd : readDocument loader path.text content with
      | error fault =>
        rw [hd] at h
        cases h
      | ok d =>
        rw [hd] at h
        exact ⟨content, base, d, rfl, hbase, readDocument_eq_ok.mp hd, Except.ok.inj h⟩
  · rintro ⟨content, base, d, hcontent, hbase, hd, rfl⟩
    rw [load_of_content hcontent hbase, readDocument_eq_ok.mpr hd]
    rfl

/-- The value of a file in which there is no set is the same in every order of sets. -/
theorem HasValue.of_not_hasSet {loader' : Yaml.Loader} {content : List UInt8} {v : Value}
    (h : HasValue loader content v) (hset : ¬v.HasSet) (hroom : loader'.room = loader.room)
    (hchain : loader'.chain = loader.chain) : HasValue loader' content v := by
  obtain ⟨cs, hcontent, hread⟩ := h
  exact ⟨cs, hcontent, Yaml.read_of_not_hasSet hroom hchain hread hset⟩

/-! ## Writing -/

/-- The document of a plan with an absolute root or none is the same from everywhere. -/
theorem document_of_absolute {p : Plan} (hroot : p.rootDir = "" ∨ isAbsolute p.rootDir = true)
    (cwd cwd' base base' : Path) : document cwd base p = document cwd' base' p := by
  have hsame : toRelative cwd (rootOf cwd p.rootDir) = toRelative cwd' (rootOf cwd' p.rootDir) ∧
      storedRoot cwd base p.rootDir = storedRoot cwd' base' p.rootDir := by
    by_cases hempty : p.rootDir = ""
    · rw [hempty]
      exact ⟨rfl, rfl⟩
    · have habs : isAbsolute p.rootDir = true := hroot.resolve_left hempty
      have hrootOf : ∀ cwd, rootOf cwd p.rootDir = some (Path.parse p.rootDir).normal :=
        fun cwd => by rw [rootOf_of_ne cwd hempty, Path.resolve_of_isAbsolute habs]
      have hstored : ∀ cwd base, storedRoot cwd base p.rootDir = p.rootDir := fun cwd base => by
        rw [storedRoot, hrootOf]
        exact if_pos habs
      refine ⟨?_, by rw [hstored, hstored]⟩
      funext v
      rw [hrootOf, hrootOf, toRelative, toRelative]
      split
      · rename_i hv
        rw [Path.relativeTo_of_isAbsolute hv (Path.isCanonical_normal habs).absolute cwd cwd']
      · rfl
  unfold document converted
  rw [hsame.1, hsame.2]

theorem not_isRelativeRoot {root : String} (h : root = "" ∨ isAbsolute root = true) :
    ¬isRelativeRoot root = true := by
  rcases h with rfl | habs
  · exact Bool.false_ne_true
  · simp [isRelativeRoot, habs]

/-- No directory is looked for to make the document of such a plan. -/
theorem draft_of_absolute {p : Plan} (hroot : p.rootDir = "" ∨ isAbsolute p.rootDir = true) (t : FileTree)
    (cwd path : Path) {d : Document} (hd : document ⟨.slash, []⟩ ⟨.slash, []⟩ p = .ok d) :
    draft t cwd path p = .ok d :=
  draft_eq_ok.mpr ⟨cwd, if_neg (not_isRelativeRoot hroot),
    (document_of_absolute hroot cwd ⟨.slash, []⟩ cwd ⟨.slash, []⟩).trans hd⟩

theorem write_of_absolute {p : Plan} (hkind : p.kind = Plan.standardKind)
    (hroot : p.rootDir = "" ∨ isAbsolute p.rootDir = true) {path : Path}
    (hpath : path.isAbsolute = true) (t : FileTree) (cwd cwd' : Path) :
    write t cwd path p = write t cwd' path p := by
  have hd := document_of_kind hkind ⟨.slash, []⟩ ⟨.slash, []⟩
  have hdraft := fun cwd => draft_of_absolute hroot t cwd path hd
  have hsave : save t cwd path p = save t cwd' path p := by
    unfold save
    rw [hdraft, hdraft, FileTree.makeParents_of_isAbsolute hpath t cwd cwd']
    simp only [FileTree.storeFile_of_isAbsolute hpath _ cwd cwd']
  unfold write
  rw [hsave]

/-- A plan with an absolute root or none has one text at an absolute path. -/
theorem exists_content_of_absolute {p : Plan} (hkind : p.kind = Plan.standardKind)
    (hroot : p.rootDir = "" ∨ isAbsolute p.rootDir = true) (path : Path) :
    ∃ content, ∀ t cwd j, t.Grounded → t.IsWorkingDirectory cwd →
      ((write t cwd path p).2.run.run j).1 = .ok () →
      (write t cwd path p).1.contentAt cwd path = .ok content := by
  obtain ⟨d, hd⟩ : ∃ d, document ⟨.slash, []⟩ ⟨.slash, []⟩ p = .ok d :=
    ⟨_, document_of_kind hkind _ _⟩
  refine ⟨Utf8.encode d.tree.write, fun t cwd j ht hcwd hwrite => ?_⟩
  obtain ⟨d', base, here, hsaved⟩ := saved_of_save ht hcwd (save_of_write rfl hwrite)
  obtain rfl := Except.ok.inj (hsaved.draft.symm.trans (draft_of_absolute hroot t cwd path hd))
  exact hsaved.content

/-! ## Both -/

end Store
end Replatform
