import Replatform.Discovery
import Replatform.OrderedMap
import Replatform.Text.Quoted
import Replatform.Vocabulary

/-! # Artifact maps

The paths of a service or a plan by the kind of artifact.  Kinds and the paths of each
kind stand in the order in which they were first mentioned, and no path is repeated
under a kind.  A kind may be mentioned without a path.
-/
namespace Replatform

/-- Paths by the kind of artifact. -/
@[ext] structure ArtifactMap (κ : Type) where
  paths : OrderedMap κ (List String)
  nodup_paths : ∀ e ∈ paths.entries, e.2.Nodup

namespace ArtifactMap

variable {κ : Type}

instance [DecidableEq κ] : DecidableEq (ArtifactMap κ) := fun m n =>
  decidable_of_iff (m.paths = n.paths) ⟨ArtifactMap.ext, fun h => h ▸ rfl⟩

/-- The map that mentions no kind. -/
def empty : ArtifactMap κ := ⟨.empty, by simp [OrderedMap.empty]⟩

instance : Inhabited (ArtifactMap κ) := ⟨empty⟩

/-- The kinds in the order of first mention. -/
def kinds (m : ArtifactMap κ) : List κ := m.paths.keys

/-- The kinds with their paths. -/
def toList (m : ArtifactMap κ) : List (κ × List String) := m.paths.entries

def size (m : ArtifactMap κ) : Nat := m.paths.size

def isEmpty (m : ArtifactMap κ) : Bool := m.paths.isEmpty

variable [DecidableEq κ]

/-- The paths under a kind, none if it is not mentioned. -/
def get (m : ArtifactMap κ) (k : κ) : List String := (m.paths.get? k).getD []

/-- The first path under a kind. -/
def first? (m : ArtifactMap κ) (k : κ) : Option String := (m.get k).head?

/-- The kind is mentioned. -/
def contains (m : ArtifactMap κ) (k : κ) : Bool := m.paths.contains k

theorem mem_alterEntries {k : κ} {f : Option (List String) → List String}
    {es : List (κ × List String)} {e : κ × List String} (h : e ∈ OrderedMap.alterEntries k f es) :
    e ∈ es ∨ e.2 = f none ∨ ∃ e' ∈ es, e.2 = f (some e'.2) := by
  induction es with
  | nil => simp_all [OrderedMap.alterEntries]
  | cons e' rest ih =>
    obtain ⟨k', ps⟩ := e'
    by_cases hk : k' = k
    · simp only [OrderedMap.alterEntries, hk, if_true, List.mem_cons] at h
      rcases h with rfl | h
      · exact Or.inr (Or.inr ⟨(k', ps), by simp, rfl⟩)
      · exact Or.inl (List.mem_cons_of_mem _ h)
    · simp only [OrderedMap.alterEntries, hk, if_false, List.mem_cons] at h
      rcases h with rfl | h
      · exact Or.inl List.mem_cons_self
      · rcases ih h with h | h | ⟨e', he', h⟩
        · exact Or.inl (List.mem_cons_of_mem _ h)
        · exact Or.inr (Or.inl h)
        · exact Or.inr (Or.inr ⟨e', List.mem_cons_of_mem _ he', h⟩)

/-- Adds paths under a kind, which is mentioned even if there are none. -/
def extend (m : ArtifactMap κ) (k : κ) (ps : List String) : ArtifactMap κ where
  paths := m.paths.alter k fun old => Discovery.union (old.getD []) ps
  nodup_paths e he := by
    rcases mem_alterEntries he with h | h | ⟨e', he', h⟩
    · exact m.nodup_paths e h
    · exact h ▸ Discovery.nodup_union List.nodup_nil ps
    · exact h ▸ Discovery.nodup_union (m.nodup_paths e' he') ps

/-- Adds a path under a kind. -/
def add (m : ArtifactMap κ) (k : κ) (p : String) : ArtifactMap κ := m.extend k [p]

/-- Adds entries one after the other. -/
def extendAll (m : ArtifactMap κ) (es : List (κ × List String)) : ArtifactMap κ :=
  es.foldl (fun m e => m.extend e.1 e.2) m

/-- The map of some entries. -/
def ofList (es : List (κ × List String)) : ArtifactMap κ := empty.extendAll es

/-- The paths of the map followed by the new ones of another. -/
def union (m n : ArtifactMap κ) : ArtifactMap κ := m.extendAll n.toList

/-- The two maps have the same paths under the same kinds; the order of the kinds does not
count. -/
def same (m n : ArtifactMap κ) : Bool := m.paths.sameEntries (fun ps qs => ps == qs) n.paths

/-- The map as it is shown in messages. -/
def shown (m : ArtifactMap String) : String :=
  let entry (e : String × List String) := quoted e.1 ++ ": [" ++ ", ".intercalate (e.2.map quoted) ++ "]"
  "ArtifactPathMap(\x7b" ++ ", ".intercalate (m.toList.map entry) ++ "\x7d)"

theorem get_extend_self (m : ArtifactMap κ) (k : κ) (ps : List String) :
    (m.extend k ps).get k = Discovery.union (m.get k) ps := by
  simp [get, extend, OrderedMap.get?_alter_self]

theorem get_extend_ne (m : ArtifactMap κ) {k l : κ} (ps : List String) (h : k ≠ l) :
    (m.extend k ps).get l = m.get l := by
  simp [get, extend, OrderedMap.get?_alter_ne m.paths _ h]

theorem kinds_extend (m : ArtifactMap κ) (k : κ) (ps : List String) :
    (m.extend k ps).kinds = Discovery.add m.kinds k := by
  by_cases h : k ∈ m.paths.keys <;> simp [kinds, extend, Discovery.add, h]

end ArtifactMap
end Replatform
