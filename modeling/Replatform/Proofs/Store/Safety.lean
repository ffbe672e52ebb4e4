import Replatform.Proofs.Store.RoundTrip

/-! # What a save does to the tree

A plan is saved in three steps: its document is made, the missing directories above the file are
made, and the file is opened and written.  Each step is taken only if those before it have been,
and the file is the only one that is ever touched, by the last of them.  So a save that fails
before the file is open leaves every file as it is, and whatever is new is a directory **on the
way** to the file, as the path is spelled.  Once the file is open its old content is gone; if the
device breaks the writing off then, everything else is as it would be.
-/
namespace Replatform

/-- The path `q` is a path that `p` goes through, or `p` itself. -/
def Path.Passes (p q : Path) : Prop := q.root = p.root ∧ q.parts <+: p.parts

namespace Path

theorem passes_refl (p : Path) : p.Passes p := ⟨rfl, List.prefix_rfl⟩

theorem Passes.of_parent {p q : Path} (h : p.parent.Passes q) : p.Passes q :=
  ⟨h.1, h.2.trans (List.dropLast_prefix _)⟩

end Path

namespace FileTree

/-- What stands at the place stays there; or where nothing stood, a directory on the way to `p` has
been made. -/
def Spares (t t' : FileTree) (cwd p : Path) (place : List String) : Prop :=
  t'.node? place = t.node? place ∨
    t.node? place = none ∧ t'.node? place = some (.directory .all) ∧
      ∃ q, p.Passes q ∧ t'.entry cwd q = .ok place

/-- Exactly the files that stood at the place stand there, with their old content. -/
def SameFileAt (t t' : FileTree) (place : List String) : Prop :=
  ∀ access content, t'.node? place = some (.file access content) ↔
    t.node? place = some (.file access content)

variable {t t' : FileTree} {cwd p : Path}

theorem spares_refl (t : FileTree) (cwd p : Path) (place : List String) : t.Spares t cwd p place :=
  Or.inl rfl

theorem Spares.of_parent {place : List String} (h : t.Spares t' cwd p.parent place) :
    t.Spares t' cwd p place :=
  h.imp_right fun ⟨hnone, hmade, q, hq, hentry⟩ => ⟨hnone, hmade, q, hq.of_parent, hentry⟩

/-- A place that is spared is spared too when something is put elsewhere, where neither a directory
nor a link stands. -/
theorem Spares.set {here place : List String} (h : t.Spares t' cwd p place)
    (hdir : ¬t'.DirectoryAt here) (hlink : ¬t'.LinkAt here) (hne : here ≠ place) {n : Node}
    (hn : ∀ target, n ≠ .link target) : t.Spares (t'.set here n) cwd p place := by
  rcases h with hsame | ⟨hnone, hmade, q, hq, hentry⟩
  · exact Or.inl ((node?_set_ne t' hne n).trans hsame)
  · exact Or.inr ⟨hnone, (node?_set_ne t' hne n).trans hmade, q, hq,
      entry_of_extends (extends_set hdir hlink hn) hentry⟩

theorem Spares.sameFileAt {place : List String} (h : t.Spares t' cwd p place) :
    t.SameFileAt t' place := by
  intro access content
  rcases h with hsame | ⟨hnone, hmade, -⟩
  · rw [hsame]
  · rw [hnone, hmade]
    simp only [Option.some.injEq, reduceCtorEq]

/-! ## Making directories -/

/-- The directory of a path is made on the way to it. -/
theorem spares_makeDirectory {t₀ : FileTree} (h₀ : ∀ place, t₀.Spares t cwd p place)
    (h : t.makeDirectory cwd p = .ok t') (place : List String) : t₀.Spares t' cwd p place := by
  obtain ⟨here, hentry, hnone, rfl⟩ := makeDirectory_ok h
  have hdir := not_directoryAt_of_none hnone
  have hlink := not_linkAt_of_none hnone
  by_cases hne : here = place
  · subst hne
    have hmade := node?_set_self t (ne_nil_of_not_directoryAt hdir) (.directory .all)
    -- nothing has stood here from the start, since what is made before is a directory
    rcases h₀ here with hsame | ⟨-, hdirectory, -⟩
    · exact Or.inr ⟨hsame ▸ hnone, hmade, p, p.passes_refl,
        entry_of_extends (extends_set hdir hlink fun _ => Node.noConfusion) hentry⟩
    · exact absurd ⟨_, hdirectory⟩ hdir
  · exact (h₀ place).set hdir hlink hne fun _ => Node.noConfusion

theorem spares_makeDirectories (t : FileTree) (cwd : Path) (depth : Nat) (p : Path)
    (place : List String) : t.Spares (t.makeDirectories cwd depth p).1 cwd p place := by
  induction depth generalizing p place with
  | zero =>
    unfold makeDirectories
    split
    · rename_i hmade
      exact spares_makeDirectory (t.spares_refl cwd p) hmade place
    · exact t.spares_refl cwd p place
    · exact t.spares_refl cwd p place
  | succ depth ih =>
    unfold makeDirectories
    split
    · rename_i hmade
      exact spares_makeDirectory (t.spares_refl cwd p) hmade place
    · have habove := fun place => (ih p.parent place).of_parent
      dsimp only
      split
      · rename_i hup
        rw [hup] at habove
        exact habove place
      · rename_i t' hup
        rw [hup] at habove
        split
        · rename_i hmade
          exact spares_makeDirectory habove hmade place
        · exact habove place
    · exact t.spares_refl cwd p place

theorem spares_makeParents (t : FileTree) (cwd p : Path) (place : List String) :
    t.Spares (t.makeParents cwd p).1 cwd p.parent place :=
  t.spares_makeDirectories cwd _ p.parent place

/-- A file that is opened below the directories that were made is written without any effect on
other places. -/
theorem spares_openFile {here : List String} (h : (t.makeParents cwd p).1.openFile cwd p = .ok here)
    (content : List UInt8) {place : List String} (hne : place ≠ here) :
    t.Spares ((t.makeParents cwd p).1.set here (.file .write content)) cwd p.parent place := by
  obtain ⟨-, hdir, hlink⟩ := openFile_ok h
  exact (t.spares_makeParents cwd p place).set hdir hlink hne.symm fun _ => Node.noConfusion

end FileTree

namespace Store

/-- A save that fails has made directories at most, or the device has broken off the writing of the
file. -/
theorem save_error {t t' : FileTree} {cwd path : Path} {p : Plan} {fault : Fault}
    (h : save t cwd path p = (t', .error fault)) :
    t' = t ∨ t' = (t.makeParents cwd path).1 ∨ ∃ d here b, draft t cwd path p = .ok d ∧
      (t.makeParents cwd path).1.openFile cwd path = .ok here ∧
      (t.makeParents cwd path).1.device here (Utf8.encode d.tree.write) = some b ∧
      t' = (t.makeParents cwd path).1.set here
        (.file .write ((Utf8.encode d.tree.write).take b.taken)) := by
  unfold save at h
  cases hd : draft t cwd path p with
  | error cause =>
    rw [hd] at h
    exact .inl (congrArg Prod.fst h).symm
  | ok d =>
    rw [hd] at h
    right
    dsimp only at h
    split at h
    · rename_i t₁ cause hparents
      rw [hparents]
      exact .inl (congrArg Prod.fst h).symm
    · rename_i t₁ hparents
      rw [hparents]
      split at h
      · rename_i t₂ refusal hstore
        obtain rfl : t₂ = t' := congrArg Prod.fst h
        obtain hsame | ⟨here, b, hopen, hdevice, htree⟩ := FileTree.storeFile_some hstore
        · exact .inl hsame
        · exact .inr ⟨d, here, b, rfl, hopen, hdevice, htree⟩
      · cases h

theorem save_of_write_error {t : FileTree} {cwd path : Path} {p : Plan} {j : Log.Journal}
    {fault : Fault} (h : ((write t cwd path p).2.run.run j).1 = .error fault) :
    ∃ cause, save t cwd path p = ((write t cwd path p).1, .error cause) := by
  rcases hs : save t cwd path p with ⟨t₁, cause | ⟨⟩⟩
  · exact ⟨cause, by rw [write, hs]⟩
  · unfold write at h
    rw [hs] at h
    cases h

theorem write_of_save_error {t t' : FileTree} {cwd path : Path} {p : Plan} {fault : Fault}
    (h : save t cwd path p = (t', .error fault)) :
    (write t cwd path p).1 = t' ∧ ∀ j, ((write t cwd path p).2.run.run j).1 = .error fault := by
  rw [write, h]
  cases fault <;> exact ⟨rfl, fun _ => rfl⟩

end Store
end Replatform
