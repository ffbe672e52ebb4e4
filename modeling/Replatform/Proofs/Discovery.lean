import Replatform.Discovery

/-! # Laws of lists in order of discovery

A union keeps the first list as a beginning and puts behind it what is new in the second, so the
head of a union is the first head there is, and a union with nothing new is the first list.
Repeats may be dropped before a list is mapped, since mapping and dropping them again gives the
same list; hence uniting is associative.
-/
namespace Replatform
namespace Discovery

variable {α β : Type} [DecidableEq α] [DecidableEq β]

theorem add_of_mem {xs : List α} {a : α} (h : a ∈ xs) : add xs a = xs := if_pos h

theorem add_of_notMem {xs : List α} {a : α} (h : a ∉ xs) : add xs a = xs ++ [a] := if_neg h

theorem union_append (xs ys zs : List α) : union xs (ys ++ zs) = union (union xs ys) zs :=
  List.foldl_append

theorem union_concat (xs ys : List α) (a : α) : union xs (ys ++ [a]) = add (union xs ys) a :=
  union_append xs ys [a]

theorem mem_distinct {xs : List α} {a : α} : a ∈ distinct xs ↔ a ∈ xs := by
  rw [distinct, mem_union]
  exact or_iff_right List.not_mem_nil

theorem distinct_concat (xs : List α) (a : α) : distinct (xs ++ [a]) = add (distinct xs) a :=
  union_concat [] xs a

/-- Lists may be united one after the other, or be put behind each other at first. -/
theorem union_distinct (xs ys : List α) : union (distinct xs) ys = distinct (xs ++ ys) :=
  (union_append [] xs ys).symm

theorem union_eq_append {xs ys : List α} (h : (xs ++ ys).Nodup) : union xs ys = xs ++ ys := by
  induction ys generalizing xs with
  | nil => exact (List.append_nil xs).symm
  | cons y ys ih =>
    have hy : y ∉ xs := fun hmem =>
      (List.nodup_append.mp h).2.2 y hmem y List.mem_cons_self rfl
    rw [← List.singleton_append, ← List.append_assoc] at h ⊢
    rw [List.singleton_append, union_cons, add_of_notMem hy, ih h]

/-- A list without repeats has none to drop. -/
theorem distinct_of_nodup {xs : List α} (h : xs.Nodup) : distinct xs = xs := by
  rw [← List.nil_append xs] at h
  exact union_eq_append h

theorem distinct_eq_self_iff {xs : List α} : distinct xs = xs ↔ xs.Nodup :=
  ⟨fun h => h ▸ nodup_distinct xs, distinct_of_nodup⟩

/-- What is in a list already may be left out of what the list is united with. -/
theorem union_append_left (xs ds ys : List α) :
    union (xs ++ ds) ys = xs ++ union ds (ys.filter (· ∉ xs)) := by
  induction ys generalizing ds with
  | nil => rfl
  | cons y ys ih =>
    by_cases hy : y ∈ xs
    · rw [union_cons, add_of_mem (List.mem_append_left ds hy), ih,
        List.filter_cons_of_neg (by simpa using hy)]
    · have hadd : add (xs ++ ds) y = xs ++ add ds y := by
        by_cases hd : y ∈ ds
        · rw [add_of_mem hd, add_of_mem (List.mem_append_right xs hd)]
        · have hboth : y ∉ xs ++ ds := fun h => (List.mem_append.mp h).elim hy hd
          rw [add_of_notMem hd, add_of_notMem hboth, List.append_assoc]
      rw [union_cons, hadd, ih, List.filter_cons_of_pos (by simpa using hy), union_cons]

/-- A union is the first list, and behind it what is new in the second in the order in which it
is first seen. -/
theorem union_eq_append_distinct (xs ys : List α) :
    union xs ys = xs ++ distinct (ys.filter (· ∉ xs)) := by
  have h := union_append_left xs [] ys
  rwa [List.append_nil] at h

theorem isPrefix_union (xs ys : List α) : xs <+: union xs ys := by
  rw [union_eq_append_distinct]
  exact List.prefix_append _ _

/-- A union with elements that are all there changes nothing, not even repeats. -/
theorem union_of_subset {xs ys : List α} (h : ∀ y ∈ ys, y ∈ xs) : union xs ys = xs := by
  have hnone : ys.filter (· ∉ xs) = [] :=
    List.filter_eq_nil_iff.mpr fun y hy => by simpa using h y hy
  rw [union_eq_append_distinct, hnone]
  exact List.append_nil xs

theorem head?_add (xs : List α) (a : α) : (add xs a).head? = xs.head?.or (some a) := by
  cases xs with
  | nil => rfl
  | cons x xs =>
    unfold add
    split <;> rfl

/-- The first element of a union is that of the first list that has one. -/
theorem head?_union (xs ys : List α) : (union xs ys).head? = xs.head?.or ys.head? := by
  induction ys generalizing xs with
  | nil => rw [union_nil, List.head?_nil, Option.or_none]
  | cons y ys ih =>
    rw [union_cons, ih, head?_add, Option.or_assoc, List.head?_cons, Option.some_or]

theorem head?_distinct (xs : List α) : (distinct xs).head? = xs.head? := by
  rw [distinct, head?_union, List.head?_nil, Option.none_or]

/-- A union that is mapped and united with a list is the union with both parts mapped. -/
theorem union_map_union (f : α → β) (zs : List β) (xs ys : List α) :
    union zs ((union xs ys).map f) = union (union zs (xs.map f)) (ys.map f) := by
  induction ys generalizing xs with
  | nil => rfl
  | cons y ys ih =>
    rw [union_cons, ih, List.map_cons, union_cons]
    congr 1
    by_cases h : y ∈ xs
    · rw [add_of_mem h, add_of_mem (mem_union.mpr (Or.inr (List.mem_map_of_mem h)))]
    · rw [add_of_notMem h, List.map_append, List.map_singleton, union_concat]

theorem union_assoc (xs ys zs : List α) : union (union xs ys) zs = union xs (union ys zs) := by
  have h := union_map_union id xs ys zs
  rw [List.map_id, List.map_id, List.map_id] at h
  exact h.symm

/-- Repeats that are dropped before a list is mapped need not be dropped separately. -/
theorem distinct_map_distinct (f : α → β) (xs : List α) :
    distinct ((distinct xs).map f) = distinct (xs.map f) :=
  union_map_union f [] [] xs

end Discovery
end Replatform
