/-! # Lists in order of discovery

A list that grows at its end, by elements that are new to it only.  What is in it never
moves, so the list always tells in which order its elements were first seen.
-/
namespace Replatform
namespace Discovery

variable {α : Type} [DecidableEq α]

/-- The list with `a` at its end, unless it is in the list already. -/
def add (xs : List α) (a : α) : List α := if a ∈ xs then xs else xs ++ [a]

/-- The list with all elements of another one added in order. -/
def union (xs ys : List α) : List α := ys.foldl add xs

/-- The list without later repeats. -/
def distinct (xs : List α) : List α := union [] xs

theorem mem_add {xs : List α} {a b : α} : b ∈ add xs a ↔ b ∈ xs ∨ b = a := by
  unfold add
  split
  · next h =>
    constructor
    · exact Or.inl
    · rintro (h' | rfl)
      · exact h'
      · exact h
  · simp

theorem nodup_add {xs : List α} (h : xs.Nodup) (a : α) : (add xs a).Nodup := by
  unfold add
  split
  · exact h
  · next ha =>
    rw [List.nodup_append]
    refine ⟨h, by simp, ?_⟩
    rintro x hx y hy rfl
    exact ha (List.mem_singleton.1 hy ▸ hx)

@[simp] theorem union_nil (xs : List α) : union xs [] = xs := rfl

@[simp] theorem union_cons (xs : List α) (y : α) (ys : List α) :
    union xs (y :: ys) = union (add xs y) ys := rfl

theorem mem_union {xs ys : List α} {b : α} : b ∈ union xs ys ↔ b ∈ xs ∨ b ∈ ys := by
  induction ys generalizing xs with
  | nil => simp
  | cons y ys ih => rw [union_cons, ih, mem_add, List.mem_cons, or_assoc]

theorem nodup_union {xs : List α} (h : xs.Nodup) (ys : List α) : (union xs ys).Nodup := by
  induction ys generalizing xs with
  | nil => exact h
  | cons y ys ih => exact ih (nodup_add h y)

theorem nodup_distinct (xs : List α) : (distinct xs).Nodup := nodup_union List.nodup_nil xs

end Discovery
end Replatform
