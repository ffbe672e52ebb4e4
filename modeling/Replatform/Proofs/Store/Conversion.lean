import Replatform.Proofs.Document.Rewriting
import Replatform.Proofs.Path
import Replatform.Store

/-! # Paths there and back

A path is written relative to the root of the plan, and a relative root relative to the directory
of the file.  What is read of them depends on two directories only: the one in which the file is
then, and the root that is found from there.  If the file is where it was written, then the root is
found again, and a path is read as the place that it was as seen from the root.  Only the number of
slashes that it begins with is lost: it is that of the root.
-/
namespace Replatform

namespace Store

/-- The place of a path as seen from a root, as a path that begins like the root. -/
def located (root : Path) (v : String) : Path := ⟨root.root, (root.resolve (.parse v)).parts⟩

/-- The plan as a file gives it back that was written in the directory `cwd`: the root is
absolute, all paths are seen from there, and lists that are to have no repeats have none. -/
def restored (cwd : Path) (p : Plan) : Plan :=
  match rootOf cwd p.rootDir with
  | none => p.mapPaths id
  | some root => { p.mapPaths (fun v => (located root v).text) with rootDir := root.text }

theorem located_of_singleSlash {root : Path} (hslash : root.root = .slash) {v : String}
    (hv : (Path.parse v).SingleSlash) : located root v = root.resolve (.parse v) := by
  rw [located, hslash, ← Path.root_resolve hslash hv]

/-! ## Roots -/

theorem rootOf_of_ne (cwd : Path) {root : String} (h : root ≠ "") :
    rootOf cwd root = some (cwd.resolve (.parse root)) :=
  if_neg h

/-- An absolute root is stored as it is, and so it is the same from wherever it is read. -/
theorem loadedRoot_storedRoot_of_absolute {root : String} (hroot : isAbsolute root = true)
    (hne : root ≠ "") (cwd base base' : Path) :
    loadedRoot base' (storedRoot cwd base root) = some (Path.parse root).normal := by
  have hstored : storedRoot cwd base root = root := by
    rw [storedRoot, rootOf_of_ne cwd hne]
    exact if_pos hroot
  rw [hstored, loadedRoot, if_neg hne, Path.resolve_of_isAbsolute hroot]

/-- A relative root is stored as seen from the directory of the file. -/
theorem storedRoot_of_relative {root : String} (hroot : isAbsolute root = false) (hne : root ≠ "")
    (cwd base : Path) :
    storedRoot cwd base root = (cwd.relativeTo (cwd.resolve (.parse root)) base).text := by
  rw [storedRoot, rootOf_of_ne cwd hne]
  exact if_neg (Bool.eq_false_iff.mp hroot)

/-- A relative root is stored as seen from the directory of the file, and read from the directory
in which the file is then. -/
theorem loadedRoot_storedRoot_of_relative {cwd : Path} (hcwd : cwd.Proper) {root : String}
    (hroot : ¬isAbsolute root = true) (hne : root ≠ "") (base base' : Path) :
    loadedRoot base' (storedRoot cwd base root) =
      some (base'.resolve (cwd.relativeTo (cwd.resolve (.parse root)) base)) := by
  have hproper : (cwd.relativeTo (cwd.resolve (.parse root)) base).Proper :=
    Path.proper_relativeTo hcwd (hcwd.resolve (Path.proper_parse root)) _
  rw [storedRoot_of_relative (Bool.eq_false_iff.mpr hroot) hne, loadedRoot,
    if_neg (Path.text_ne_empty hproper), Path.parse_text hproper]

/-- The root that a file states is the one that the plan had. -/
theorem loadedRoot_storedRoot {cwd base : Path} (hcwd : cwd.Proper) (hreal : cwd.IsReal)
    (hbase : base.IsReal) (root : String) :
    loadedRoot base (storedRoot cwd base root) = rootOf cwd root := by
  by_cases hempty : root = ""
  · simp [storedRoot, loadedRoot, rootOf, hempty]
  · rw [rootOf_of_ne cwd hempty]
    by_cases hroot : isAbsolute root = true
    · rw [loadedRoot_storedRoot_of_absolute hroot hempty, Path.resolve_of_isAbsolute hroot]
    · have hrel : (Path.parse root).isAbsolute = false := Bool.eq_false_iff.mpr hroot
      have hcanonical := Path.isCanonical_resolve hreal.canonical.absolute (.parse root)
      have hself : cwd.resolve (cwd.resolve (.parse root)) = cwd.resolve (.parse root) :=
        hcanonical.resolve_eq cwd
      have hthere := @Path.resolve_relativeTo_of_parts cwd base (cwd.resolve (.parse root)) base
        hbase.canonical (by rw [hbase.canonical.resolve_eq]) (hself.symm ▸ hcanonical)
      have hslash : (cwd.resolve (.parse root)).root = base.root := by
        rw [Path.root_resolve_of_relative hrel, hreal.root, hbase.root]
      rw [loadedRoot_storedRoot_of_relative hcwd hroot hempty, hthere, hself, ← hslash]

/-! ## Paths -/

theorem toRelative_ne_empty {cwd : Path} (hcwd : cwd.Proper) (root : Option Path) {v : String}
    (hv : v ≠ "") : toRelative cwd root v ≠ "" := by
  unfold toRelative
  split
  · exact hv
  · split
    · exact Path.text_ne_empty (Path.proper_relativeTo hcwd (Path.proper_parse v) _)
    · exact hv

theorem toRelative_of_absolute {v : String} (hv : isAbsolute v = true) (cwd root : Path) :
    toRelative cwd (some root) v = (cwd.relativeTo (.parse v) root).text :=
  if_pos hv

theorem toRelative_of_relative {v : String} (hv : isAbsolute v = false) (cwd root : Path) :
    toRelative cwd (some root) v = v :=
  if_neg (Bool.eq_false_iff.mp hv)

theorem toAbsolute_toRelative_of_relative {v : String} (h : ¬isAbsolute v = true)
    (cwd root root' : Path) :
    toAbsolute (some root') (toRelative cwd (some root) v) = (root'.resolve (.parse v)).text := by
  rw [toRelative_of_relative (Bool.eq_false_iff.mpr h), toAbsolute, if_neg h]

/-- An absolute path is written relative to the root, and read from what is the root then. -/
theorem toAbsolute_toRelative_of_absolute {cwd : Path} (hcwd : cwd.Proper) {v : String}
    (h : isAbsolute v = true) (root root' : Path) :
    toAbsolute (some root') (toRelative cwd (some root) v) =
      (root'.resolve (cwd.relativeTo (.parse v) root)).text := by
  have hparse : Path.parse (cwd.relativeTo (.parse v) root).text =
      cwd.relativeTo (.parse v) root :=
    Path.parse_text (Path.proper_relativeTo hcwd (Path.proper_parse v) root)
  have hnot : ¬isAbsolute (cwd.relativeTo (.parse v) root).text = true := by
    rw [isAbsolute, hparse]
    exact Bool.false_ne_true
  rw [toRelative_of_absolute h, toAbsolute, if_neg hnot, hparse]

/-- A path that is written relative to the root is read as the place that it is as seen from the
root. -/
theorem toAbsolute_toRelative {cwd root : Path} (hcwd : cwd.Proper) (habs : cwd.isAbsolute = true)
    (hroot : root.IsCanonical) (v : String) :
    toAbsolute (some root) (toRelative cwd (some root) v) = (located root v).text := by
  by_cases hv : isAbsolute v = true
  · have htarget : cwd.resolve (.parse v) = root.resolve (.parse v) := by
      rw [Path.resolve_of_isAbsolute hv, Path.resolve_of_isAbsolute hv]
    have hthere := @Path.resolve_relativeTo_of_parts cwd root (.parse v) root hroot
      (by rw [hroot.resolve_eq]) (Path.isCanonical_resolve habs (.parse v))
    rw [toAbsolute_toRelative_of_absolute hcwd hv, hthere, htarget, located]
  · have hrel : (Path.parse v).isAbsolute = false := Bool.eq_false_iff.mpr hv
    rw [toAbsolute_toRelative_of_relative hv, located, ← Path.root_resolve_of_relative hrel root]

/-! ## Documents -/

theorem converted_ok {cwd : Path} {p : Plan} {d : Document} (h : converted cwd p = .ok d) :
    p.kind = Plan.standardKind ∧
      d = Document.ofPlan (toRelative cwd (rootOf cwd p.rootDir)) p := by
  unfold converted Document.ofPlan? Document.checkKind at h
  by_cases hkind : p.kind = Plan.standardKind
  · rw [if_pos hkind] at h
    exact ⟨hkind, (Schema.Checked.ok.inj h).symm⟩
  · rw [if_neg hkind] at h
    cases h

/-- Only a plan of the right kind has a document. -/
theorem document_ok {cwd base : Path} {p : Plan} {d : Document} (h : document cwd base p = .ok d) :
    p.kind = Plan.standardKind ∧
      d = { Document.ofPlan (toRelative cwd (rootOf cwd p.rootDir)) p with
        rootDir := storedRoot cwd base p.rootDir } := by
  unfold document at h
  cases hd : converted cwd p with
  | faulty issues =>
    rw [hd] at h
    cases h
  | ok d' =>
    rw [hd] at h
    obtain ⟨hkind, rfl⟩ := converted_ok hd
    exact ⟨hkind, (Schema.Checked.ok.inj h).symm⟩

theorem document_of_kind {p : Plan} (h : p.kind = Plan.standardKind) (cwd base : Path) :
    document cwd base p = .ok { Document.ofPlan (toRelative cwd (rootOf cwd p.rootDir)) p with
      rootDir := storedRoot cwd base p.rootDir } := by
  rw [document, converted, Document.ofPlan?_of_kind h]
  rfl

/-- Only a relative root is stored by the directory of the file. -/
theorem storedRoot_of_not_relative {root : String} (h : ¬isRelativeRoot root = true)
    (cwd base base' : Path) : storedRoot cwd base root = storedRoot cwd base' root := by
  unfold storedRoot
  by_cases hempty : root = ""
  · rw [hempty]
    rfl
  · have habs : isAbsolute root = true := by simpa [isRelativeRoot, hempty] using h
    rw [rootOf_of_ne cwd hempty]
    exact (if_pos habs).trans (if_pos habs).symm

theorem document_of_not_relative {p : Plan} (h : ¬isRelativeRoot p.rootDir = true)
    (cwd base base' : Path) : document cwd base p = document cwd base' p := by
  unfold document
  rw [storedRoot_of_not_relative h cwd base base']

/-- What is written for a plan is its document for the directory of the file. -/
theorem draft_eq_ok {t : FileTree} {cwd path : Path} {p : Plan} {d : Document} :
    draft t cwd path p = .ok d ↔ ∃ base,
      baseOf t cwd path (isRelativeRoot p.rootDir) = .ok base ∧ document cwd base p = .ok d := by
  unfold draft document
  cases converted cwd p with
  | faulty issues =>
    refine ⟨fun h => (by cases h), ?_⟩
    rintro ⟨base, -, h⟩
    cases h
  | ok d' =>
    cases hbase : baseOf t cwd path (isRelativeRoot p.rootDir) with
    | error fault =>
      refine ⟨fun h => (by cases h), ?_⟩
      rintro ⟨base, h, -⟩
      cases h
    | ok base =>
      constructor
      · intro h
        exact ⟨base, rfl, congrArg Schema.Checked.ok (Except.ok.inj h)⟩
      · rintro ⟨base', hbase', h⟩
        obtain rfl := Except.ok.inj hbase'
        exact congrArg Except.ok (Schema.Checked.ok.inj h)

theorem directoryOf_eq_ok {t : FileTree} {cwd path base : Path} :
    directoryOf t cwd path = .ok base ↔ t.realPath cwd path.parent = .ok base := by
  unfold directoryOf
  split
  · rename_i hreal
    rw [hreal, Except.ok.injEq, Except.ok.injEq]
  · rename_i hreal
    rw [hreal]
    exact ⟨fun h => (by cases h), fun h => (by cases h)⟩
  · rename_i hreal
    rw [hreal]
    exact ⟨fun h => (by cases h), fun h => (by cases h)⟩

/-- The paths of a document that was made for a root are those of the plan, there and back. -/
theorem toPlan_ofPlan_toRelative {cwd : Path} (hcwd : cwd.Proper) (root root' : Option Path)
    (p : Plan) (stored final : String) :
    { Document.toPlan (toAbsolute root')
        { Document.ofPlan (toRelative cwd root) p with rootDir := stored } with rootDir := final } =
      { p.mapPaths (fun v => toAbsolute root' (toRelative cwd root v)) with rootDir := final } := by
  have hthere := Document.toPlan_ofPlan (fun _ hv => toRelative_ne_empty hcwd root hv)
    (toAbsolute root') p
  rw [← hthere]
  rfl

/-- The plan of the document of a plan, from wherever it is read: the paths are converted there
and back, each way with the root as it is known there. -/
theorem planOf_eq {cwd base : Path} {p : Plan} {d : Document} (hcwd : cwd.Proper)
    (h : document cwd base p = .ok d) (base' : Path) :
    planOf base' d =
      { p.mapPaths (fun v => toAbsolute (loadedRoot base' d.rootDir)
          (toRelative cwd (rootOf cwd p.rootDir) v)) with
        rootDir := ((loadedRoot base' d.rootDir).map Path.text).getD "" } := by
  obtain ⟨-, rfl⟩ := document_ok h
  exact toPlan_ofPlan_toRelative hcwd _ _ p _ _

/-- **The document of a plan gives the plan back**, in the directory for which it was made. -/
theorem planOf_document {cwd base : Path} {p : Plan} {d : Document} (hcwd : cwd.Proper)
    (hreal : cwd.IsReal) (hbase : base.IsReal) (h : document cwd base p = .ok d) :
    planOf base d = restored cwd p := by
  obtain ⟨-, hd⟩ := document_ok h
  have hloaded : loadedRoot base d.rootDir = rootOf cwd p.rootDir := by
    rw [hd]
    exact loadedRoot_storedRoot hcwd hreal hbase p.rootDir
  rw [planOf_eq hcwd h, hloaded, restored]
  by_cases hempty : p.rootDir = ""
  · have hnone : rootOf cwd p.rootDir = none := if_pos hempty
    rw [hnone]
    show { p.mapPaths id with rootDir := "" } = p.mapPaths id
    rw [← hempty]
    rfl
  · have habs := hreal.canonical.absolute
    rw [rootOf_of_ne cwd hempty, Plan.mapPaths_congr (p := p) fun v _ =>
      toAbsolute_toRelative hcwd habs (Path.isCanonical_resolve habs (.parse p.rootDir)) v]
    rfl

/-- The document of a plan is of the right kind, and its names are those of the plan. -/
theorem kind_and_names_of_document {cwd base : Path} {p : Plan} {d : Document}
    (h : document cwd base p = .ok d) :
    d.kind = Plan.standardKind ∧ d.services.keys = p.services.keys := by
  obtain ⟨hkind, rfl⟩ := document_ok h
  exact ⟨hkind, OrderedMap.keys_map _ _⟩

/-- The plan of a document under mended names is the plan of the document, under mended names. -/
theorem planOf_mend (base : Path) (d : Document) : planOf base d.mend = (planOf base d).mend := by
  unfold planOf
  dsimp only
  rw [Document.toPlan_mend]
  rfl

/-- Without a root in it, a document gives one plan in all directories. -/
theorem planOf_of_no_root {d : Document} (h : d.rootDir = "") (base base' : Path) :
    planOf base d = planOf base' d := by
  have hnone : ∀ base, loadedRoot base d.rootDir = none := fun _ => if_pos h
  rw [planOf, planOf, hnone, hnone]

end Store
end Replatform
