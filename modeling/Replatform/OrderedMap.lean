/-! # Maps that keep the order of insertion

A key keeps the place at which it first came in; giving it a new value does not move
it.  Two maps may therefore differ in order alone, and `sameEntries` is the comparison
that does not see the order.
-/
namespace Replatform

/-- An association list without repeated keys, oldest key first. -/
@[ext] structure OrderedMap (κ α : Type) where
  entries : List (κ × α)
  keys_nodup : (entries.map Prod.fst).Nodup

namespace OrderedMap

variable {κ α β : Type}

instance [DecidableEq κ] [DecidableEq α] : DecidableEq (OrderedMap κ α) := fun m n =>
  decidable_of_iff (m.entries = n.entries) ⟨OrderedMap.ext, fun h => h ▸ rfl⟩

/-- The map without entries. -/
def empty : OrderedMap κ α := ⟨[], List.nodup_nil⟩

instance : Inhabited (OrderedMap κ α) := ⟨empty⟩

/-- The keys, oldest first. -/
def keys (m : OrderedMap κ α) : List κ := m.entries.map Prod.fst

/-- The values in the order of their keys. -/
def values (m : OrderedMap κ α) : List α := m.entries.map Prod.snd

def size (m : OrderedMap κ α) : Nat := m.entries.length

def isEmpty (m : OrderedMap κ α) : Bool := m.entries.isEmpty

/-- Every value replaced by its image. -/
def map (f : α → β) (m : OrderedMap κ α) : OrderedMap κ β where
  entries := m.entries.map fun e => (e.1, f e.2)
  keys_nodup := by simpa [List.map_map, Function.comp_def] using m.keys_nodup

variable [DecidableEq κ]

/-- The value under a key in a list of entries. -/
def find? (k : κ) : List (κ × α) → Option α
  | [] => none
  | (k', a) :: rest => if k' = k then some a else find? k rest

/-- The entries with `f` applied to the value under `k`, or to nothing at the end if `k` is
new. -/
def alterEntries (k : κ) (f : Option α → α) : List (κ × α) → List (κ × α)
  | [] => [(k, f none)]
  | (k', a) :: rest => if k' = k then (k', f (some a)) :: rest else (k', a) :: alterEntries k f rest

theorem map_fst_alterEntries (k : κ) (f : Option α → α) (es : List (κ × α)) :
    (alterEntries k f es).map Prod.fst =
      if k ∈ es.map Prod.fst then es.map Prod.fst else es.map Prod.fst ++ [k] := by
  induction es with
  | nil => simp [alterEntries]
  | cons e rest ih =>
    obtain ⟨k', a⟩ := e
    by_cases h : k' = k
    · simp [alterEntries, h]
    · have h' : ¬k = k' := fun e => h e.symm
      simp only [alterEntries, h, if_false, List.map_cons, ih, List.mem_cons, h', false_or]
      split <;> simp

theorem nodup_alterEntries {k : κ} {f : Option α → α} {es : List (κ × α)}
    (h : (es.map Prod.fst).Nodup) : ((alterEntries k f es).map Prod.fst).Nodup := by
  rw [map_fst_alterEntries]
  split
  · exact h
  · next hk =>
    rw [List.nodup_append]
    refine ⟨h, by simp, ?_⟩
    intro a ha b hb
    rw [List.mem_singleton] at hb
    subst hb
    intro e
    exact hk (e ▸ ha)

/-- The value under a key. -/
def get? (m : OrderedMap κ α) (k : κ) : Option α := find? k m.entries

/-- The key has a value. -/
def contains (m : OrderedMap κ α) (k : κ) : Bool := (m.get? k).isSome

/-- The map with the value under `k` changed by `f`, which is told whether there was one. -/
def alter (m : OrderedMap κ α) (k : κ) (f : Option α → α) : OrderedMap κ α :=
  ⟨alterEntries k f m.entries, nodup_alterEntries m.keys_nodup⟩

/-- The map with `a` under `k`. -/
def insert (m : OrderedMap κ α) (k : κ) (a : α) : OrderedMap κ α := m.alter k fun _ => a

/-- The map of a list of entries; the last value of a key counts, at the place of the
first. -/
def ofList (es : List (κ × α)) : OrderedMap κ α := es.foldl (fun m e => m.insert e.1 e.2) empty

/-- The two maps hold the same keys with values that `same` accepts, in whatever order. -/
def sameEntries (same : α → α → Bool) (m n : OrderedMap κ α) : Bool :=
  m.size == n.size &&
    m.entries.all fun e =>
      match n.get? e.1 with
      | some b => same e.2 b
      | none => false

@[simp] theorem keys_alter (m : OrderedMap κ α) (k : κ) (f : Option α → α) :
    (m.alter k f).keys = if k ∈ m.keys then m.keys else m.keys ++ [k] :=
  map_fst_alterEntries k f m.entries

theorem get?_alter_self (m : OrderedMap κ α) (k : κ) (f : Option α → α) :
    (m.alter k f).get? k = some (f (m.get? k)) := by
  simp only [get?, alter]
  induction m.entries with
  | nil => simp [alterEntries, find?]
  | cons e rest ih =>
    obtain ⟨k', a⟩ := e
    by_cases h : k' = k
    · simp [alterEntries, find?, h]
    · simp [alterEntries, find?, h, ih]

theorem get?_alter_ne (m : OrderedMap κ α) {k l : κ} (f : Option α → α) (h : k ≠ l) :
    (m.alter k f).get? l = m.get? l := by
  simp only [get?, alter]
  induction m.entries with
  | nil => simp [alterEntries, find?, h]
  | cons e rest ih =>
    obtain ⟨k', a⟩ := e
    by_cases hk : k' = k
    · subst hk; simp [alterEntries, find?, h]
    · by_cases hl : k' = l
      · subst hl; simp [alterEntries, find?, hk]
      · simp [alterEntries, find?, hk, hl, ih]

end OrderedMap
end Replatform
