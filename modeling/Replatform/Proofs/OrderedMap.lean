import Mathlib.Data.List.Induction
import Replatform.OrderedMap

/-! # Laws of maps that keep the order of insertion

The value under a key is the one of the only entry with that key; a key that is new goes to
the end; and a list of entries without repeated keys is the map of itself.
-/
namespace Replatform
namespace OrderedMap

variable {κ α β γ : Type}

theorem length_keys (m : OrderedMap κ α) : m.keys.length = m.size := List.length_map ..

/-! ### Values replaced by their images -/

theorem entries_map (f : α → β) (m : OrderedMap κ α) :
    (m.map f).entries = m.entries.map fun e => (e.1, f e.2) := rfl

theorem map_map (f : α → β) (g : β → γ) (m : OrderedMap κ α) :
    (m.map f).map g = m.map fun a => g (f a) := by
  refine OrderedMap.ext ?_
  rw [entries_map, entries_map, entries_map, List.map_map]
  rfl

theorem keys_map (f : α → β) (m : OrderedMap κ α) : (m.map f).keys = m.keys := by
  rw [keys, entries_map, List.map_map]
  rfl

theorem map_congr {f g : α → β} {m : OrderedMap κ α} (h : ∀ a ∈ m.values, f a = g a) :
    m.map f = m.map g := by
  refine OrderedMap.ext (List.map_congr_left fun e he => ?_)
  rw [h e.2 (List.mem_map_of_mem he)]

/-- A map stays if its values do. -/
theorem map_eq_self_iff {f : α → α} {m : OrderedMap κ α} :
    m.map f = m ↔ ∀ a ∈ m.values, f a = a := by
  constructor
  · intro h a ha
    obtain ⟨e, he, rfl⟩ := List.mem_map.mp ha
    have hentries : m.entries.map (fun e => (e.1, f e.2)) = m.entries.map id :=
      (congrArg OrderedMap.entries h).trans (List.map_id _).symm
    exact congrArg Prod.snd (List.map_inj_left.mp hentries e he)
  · intro h
    exact (map_congr h).trans (OrderedMap.ext (List.map_id _))

variable [DecidableEq κ]

/-! ### Lists of entries -/

theorem find?_eq_none {k : κ} {es : List (κ × α)} :
    find? k es = none ↔ k ∉ es.map Prod.fst := by
  induction es with
  | nil => simp [find?]
  | cons e rest ih =>
    obtain ⟨k', a⟩ := e
    by_cases h : k' = k
    · simp [find?, h]
    · have h' : k ≠ k' := fun e => h e.symm
      simp [find?, h, h', ih]

theorem find?_of_mem {k : κ} {a : α} {es : List (κ × α)} (hes : (es.map Prod.fst).Nodup)
    (h : (k, a) ∈ es) : find? k es = some a := by
  induction es with
  | nil => cases h
  | cons e rest ih =>
    obtain ⟨k', b⟩ := e
    obtain ⟨hk', hrest⟩ := List.nodup_cons.mp hes
    rcases List.mem_cons.mp h with he | hmem
    · cases he
      exact if_pos rfl
    · have hne : k' ≠ k := fun e => hk' (List.mem_map.mpr ⟨(k, a), hmem, e.symm⟩)
      rw [find?, if_neg hne]
      exact ih hrest hmem

theorem alterEntries_of_notMem {k : κ} {es : List (κ × α)} (h : k ∉ es.map Prod.fst)
    (f : Option α → α) : alterEntries k f es = es ++ [(k, f none)] := by
  induction es with
  | nil => rfl
  | cons e rest ih =>
    obtain ⟨k', a⟩ := e
    obtain ⟨hne, hrest⟩ := not_or.mp (fun hor => h (List.mem_cons.mpr hor))
    have hk : k' ≠ k := fun e => hne e.symm
    rw [alterEntries, if_neg hk, ih hrest, List.cons_append]

theorem alterEntries_alterEntries (k : κ) (f g : Option α → α) (es : List (κ × α)) :
    alterEntries k g (alterEntries k f es) = alterEntries k (fun old => g (some (f old))) es := by
  induction es with
  | nil => simp [alterEntries]
  | cons e rest ih =>
    obtain ⟨k', a⟩ := e
    by_cases h : k' = k
    · simp [alterEntries, h]
    · simp [alterEntries, h, ih]

/-- The elements of all values after the value under a key has been altered: those that the
altered value has take the place of those that the old one had. -/
theorem length_flatten_alterEntries (k : κ) (f : Option (List α) → List α)
    (es : List (κ × List α)) :
    ((alterEntries k f es).map Prod.snd).flatten.length + ((find? k es).getD []).length =
      (es.map Prod.snd).flatten.length + (f (find? k es)).length := by
  induction es with
  | nil => simp [alterEntries, find?]
  | cons e rest ih =>
    obtain ⟨k', xs⟩ := e
    by_cases h : k' = k
    · simp only [alterEntries, find?, h, if_true, List.map_cons, List.flatten_cons,
        List.length_append, Option.getD_some]
      omega
    · simp only [alterEntries, find?, h, if_false, List.map_cons, List.flatten_cons,
        List.length_append]
      omega

theorem find?_map (f : α → β) (k : κ) (es : List (κ × α)) :
    find? k (es.map fun e => (e.1, f e.2)) = (find? k es).map f := by
  induction es with
  | nil => rfl
  | cons e rest ih =>
    obtain ⟨k', a⟩ := e
    by_cases h : k' = k
    · simp [find?, h]
    · simp [find?, h, ih]

theorem map_alterEntries (f : α → β) (k : κ) (a : α) (es : List (κ × α)) :
    (alterEntries k (fun _ => a) es).map (fun e => (e.1, f e.2)) =
      alterEntries k (fun _ => f a) (es.map fun e => (e.1, f e.2)) := by
  induction es with
  | nil => rfl
  | cons e rest ih =>
    obtain ⟨k', b⟩ := e
    by_cases h : k' = k
    · simp [alterEntries, h]
    · simp [alterEntries, h, ih]

theorem alterEntries_of_find? {k : κ} {a : α} {es : List (κ × α)} (h : find? k es = some a) :
    alterEntries k (fun _ => a) es = es := by
  induction es with
  | nil => cases h
  | cons e rest ih =>
    obtain ⟨k', b⟩ := e
    by_cases hk : k' = k
    · rw [find?, if_pos hk] at h
      rw [alterEntries, if_pos hk, Option.some.inj h]
    · rw [find?, if_neg hk] at h
      rw [alterEntries, if_neg hk, ih h]

/-! ### Maps -/

theorem get?_map (f : α → β) (m : OrderedMap κ α) (k : κ) :
    (m.map f).get? k = (m.get? k).map f :=
  find?_map f k m.entries

/-- A value that is altered twice is altered once by both in turn. -/
theorem alter_alter (m : OrderedMap κ α) (k : κ) (f g : Option α → α) :
    (m.alter k f).alter k g = m.alter k fun old => g (some (f old)) :=
  OrderedMap.ext (alterEntries_alterEntries k f g m.entries)

/-- The value that a key has already may be inserted in vain. -/
theorem insert_of_get? {m : OrderedMap κ α} {k : κ} {a : α} (h : m.get? k = some a) :
    m.insert k a = m :=
  OrderedMap.ext (alterEntries_of_find? h)

theorem size_le_insert (m : OrderedMap κ α) (k : κ) (a : α) : m.size ≤ (m.insert k a).size := by
  rw [← length_keys, ← length_keys, insert, keys_alter]
  split
  · exact Nat.le_refl _
  · rw [List.length_append]
    exact Nat.le_add_right _ _

theorem entries_insert_of_notMem {m : OrderedMap κ α} {k : κ} (h : k ∉ m.keys) (a : α) :
    (m.insert k a).entries = m.entries ++ [(k, a)] :=
  alterEntries_of_notMem h fun _ => a

theorem entries_foldl_insert {m : OrderedMap κ α} {es : List (κ × α)}
    (h : ((m.entries ++ es).map Prod.fst).Nodup) :
    (es.foldl (fun m e => m.insert e.1 e.2) m).entries = m.entries ++ es := by
  induction es generalizing m with
  | nil => exact (List.append_nil _).symm
  | cons e rest ih =>
    have hnew : e.1 ∉ m.keys := by
      intro hmem
      rw [List.map_append, List.nodup_append] at h
      exact h.2.2 e.1 hmem e.1 (by simp) rfl
    have hins : (m.insert e.1 e.2).entries = m.entries ++ [e] := entries_insert_of_notMem hnew e.2
    rw [List.foldl_cons, ih (by rw [hins, List.append_assoc]; exact h), hins, List.append_assoc,
      List.singleton_append]

/-- A list of entries without repeated keys is the map of itself. -/
theorem entries_ofList {es : List (κ × α)} (h : (es.map Prod.fst).Nodup) :
    (ofList es).entries = es :=
  entries_foldl_insert (m := empty) h

/-- The entries are the keys with their values. -/
theorem map_some_entries (m : OrderedMap κ α) :
    m.entries.map (fun e => (e.1, some e.2)) = m.keys.map fun k => (k, m.get? k) := by
  rw [keys, List.map_map]
  refine List.map_congr_left fun e he => ?_
  exact congrArg (Prod.mk e.1) (find?_of_mem m.keys_nodup he).symm

/-- Maps with the same keys in the same order and the same values are equal. -/
theorem ext_get? {m n : OrderedMap κ α} (hkeys : m.keys = n.keys)
    (hget : ∀ k ∈ m.keys, m.get? k = n.get? k) : m = n := by
  refine OrderedMap.ext ?_
  have hinj : ∀ e e' : κ × α, (e.1, some e.2) = (e'.1, some e'.2) → e = e' := by
    rintro ⟨k, a⟩ ⟨k', a'⟩ h
    obtain ⟨rfl, ha⟩ := Prod.mk.inj h
    exact congrArg (Prod.mk k) (Option.some.inj ha)
  have hmap : m.entries.map (fun e => (e.1, some e.2)) =
      n.entries.map fun e => (e.1, some e.2) := by
    rw [map_some_entries, map_some_entries, ← hkeys]
    exact List.map_congr_left fun k hk => congrArg (Prod.mk k) (hget k hk)
  exact (List.map_inj_right hinj).mp hmap

/-- A key has a value exactly if it is one of the keys. -/
theorem get?_eq_none {m : OrderedMap κ α} {k : κ} : m.get? k = none ↔ k ∉ m.keys :=
  find?_eq_none

theorem ofList_entries (m : OrderedMap κ α) : ofList m.entries = m :=
  OrderedMap.ext (entries_ofList m.keys_nodup)

/-- The map of a list of entries has the keys of the list. -/
theorem mem_keys_ofList {es : List (κ × α)} {k : κ} :
    k ∈ (ofList es).keys ↔ k ∈ es.map Prod.fst := by
  have hfold : ∀ m : OrderedMap κ α, k ∈ (es.foldl (fun m e => m.insert e.1 e.2) m).keys ↔
      k ∈ m.keys ∨ k ∈ es.map Prod.fst := by
    induction es with
    | nil => simp
    | cons e rest ih =>
      intro m
      have hinsert : k ∈ (m.insert e.1 e.2).keys ↔ k ∈ m.keys ∨ k = e.1 := by
        rw [insert, keys_alter]
        split
        · rename_i hmem
          exact ⟨.inl, fun h => h.elim id fun heq => heq ▸ hmem⟩
        · rw [List.mem_append, List.mem_singleton]
      rw [List.foldl_cons, ih, hinsert, List.map_cons, List.mem_cons, or_assoc]
  exact (hfold empty).trans ⟨fun h => h.resolve_left List.not_mem_nil, .inr⟩

theorem find?_eq (k : κ) (es : List (κ × α)) :
    find? k es = (es.find? fun e => e.1 = k).map Prod.snd := by
  induction es with
  | nil => rfl
  | cons e rest ih =>
    rw [find?, List.find?_cons]
    by_cases h : e.1 = k
    · rw [if_pos h, decide_eq_true h]
      rfl
    · rw [if_neg h, decide_eq_false h, ih]

/-- Of the values of a key the last counts. -/
theorem get?_ofList (es : List (κ × α)) (k : κ) : (ofList es).get? k = find? k es.reverse := by
  induction es using List.reverseRecOn with
  | nil => rfl
  | append_singleton es e ih =>
    have hlast : ofList (es ++ [e]) = (ofList es).insert e.1 e.2 := by
      rw [ofList, List.foldl_append]
      rfl
    rw [hlast, List.reverse_append, List.reverse_singleton, List.singleton_append, find?]
    by_cases h : e.1 = k
    · rw [if_pos h, ← h]
      exact get?_alter_self ..
    · rw [if_neg h, ← ih]
      exact get?_alter_ne _ _ h

/-- The map of a list of entries has its values from the list. -/
theorem mem_of_get?_ofList {es : List (κ × α)} {k : κ} {a : α}
    (h : (ofList es).get? k = some a) : (k, a) ∈ es := by
  rw [get?_ofList, find?_eq] at h
  obtain ⟨e, he, rfl⟩ := Option.map_eq_some_iff.mp h
  have hkey := List.find?_some he
  obtain rfl : e.1 = k := of_decide_eq_true hkey
  exact List.mem_reverse.mp (List.mem_of_find?_eq_some he)

theorem mem_of_get? {m : OrderedMap κ α} {k : κ} {a : α} (h : m.get? k = some a) :
    (k, a) ∈ m.entries := by
  rw [← ofList_entries m] at h
  exact mem_of_get?_ofList h

theorem map_ofList (f : α → β) (es : List (κ × α)) :
    (ofList es).map f = ofList (es.map fun e => (e.1, f e.2)) := by
  have hfold : ∀ m : OrderedMap κ α, (es.foldl (fun m e => m.insert e.1 e.2) m).map f =
      (es.map fun e => (e.1, f e.2)).foldl (fun m e => m.insert e.1 e.2) (m.map f) := by
    induction es with
    | nil => exact fun m => rfl
    | cons e rest ih =>
      intro m
      have hinsert : (m.insert e.1 e.2).map f = (m.map f).insert e.1 (f e.2) :=
        OrderedMap.ext (map_alterEntries f e.1 e.2 m.entries)
      rw [List.foldl_cons, ih, hinsert, List.map_cons, List.foldl_cons]
  exact hfold empty

end OrderedMap
end Replatform
