import Replatform.Proofs.Yaml.Printer

/-! # Moving through written text

Readers look at the rest of a text only and move on by a number of characters.  In what the
printer writes, a line feed is the only character that ends a line, so lines and columns are
those one would count.
-/
namespace Replatform
namespace Yaml

open Style (Simple isSimple)

/-! ### Characters -/

/-- `c` is a simple character other than the line feed. -/
def isPrinted (c : Char) : Bool := 0x20 ≤ c.toNat && c.toNat ≤ 0x7E

theorem isPrinted_of_isSimple {c : Char} (h : isSimple c = true) (hc : c ≠ '\n') :
    isPrinted c = true := by
  rw [isSimple, Bool.or_eq_true, decide_eq_true_eq] at h
  exact h.resolve_left hc

/-- A printed character is none of those that end a line, or no character at all. -/
theorem ne_of_isPrinted {c d : Char} (h : isPrinted c = true) (hd : isPrinted d = false) : c ≠ d := by
  rintro rfl
  rw [h] at hd
  cases hd

theorem isBreak_of_isPrinted {c : Char} (h : isPrinted c = true) : isBreak c = false := by
  have h₁ := ne_of_isPrinted h (d := '\n') (by decide)
  have h₂ := ne_of_isPrinted h (d := '\x85') (by decide)
  have h₃ := ne_of_isPrinted h (d := '\u2028') (by decide)
  have h₄ := ne_of_isPrinted h (d := '\u2029') (by decide)
  simp [isBreak, h₁, h₂, h₃, h₄]

/-- The characters of a kind that a text starts with. -/
theorem exists_replicate (ch : Char) (cs : List Char) :
    ∃ k rest, cs = List.replicate k ch ++ rest ∧ rest.head? ≠ some ch := by
  induction cs with
  | nil => exact ⟨0, [], rfl, fun h => by cases h⟩
  | cons d cs ih =>
    by_cases hd : d = ch
    · obtain ⟨k, rest, rfl, hrest⟩ := ih
      exact ⟨k + 1, rest, by rw [hd]; rfl, hrest⟩
    · exact ⟨0, d :: cs, rfl, fun h => hd (Option.some.inj h)⟩

namespace Cursor

variable {c : Cursor} {ch : Char} {cs tail : List Char}

/-! ### Skipping -/

theorem skip_succ (n : Nat) (c : Cursor) : c.skip (n + 1) = c.next.skip n := rfl

theorem next_eq_skip (c : Cursor) : c.next = c.skip 1 := rfl

theorem skip_skip (m n : Nat) (c : Cursor) : (c.skip m).skip n = c.skip (m + n) := by
  induction m generalizing c with
  | zero => rw [Nat.zero_add]; rfl
  | succ m ih => rw [Nat.succ_add, skip_succ, skip_succ, ih]

theorem rest_next (c : Cursor) : c.next.rest = c.rest.tail := by
  unfold next
  cases hrest : c.rest with
  | nil => exact hrest
  | cons ch rest =>
    dsimp only
    split <;> rfl

theorem rest_skip (n : Nat) (c : Cursor) : (c.skip n).rest = c.rest.drop n := by
  induction n generalizing c with
  | zero => rfl
  | succ n ih => rw [skip_succ, ih, rest_next, List.drop_tail]

/-- Behind a part of the text stands the rest. -/
theorem rest_skip_of_append (h : c.rest = cs ++ tail) : (c.skip cs.length).rest = tail := by
  rw [rest_skip, h, List.drop_left]

theorem peek_of_cons (h : c.rest = ch :: tail) : c.peek = ch := by rw [peek, h]; rfl

theorem peek_of_nil (h : c.rest = []) : c.peek = textEnd := by rw [peek, h]; rfl

theorem next_of_cons (h : c.rest = ch :: tail) : c.next.rest = tail := by rw [rest_next, h]; rfl

/-! ### Spans -/

/-- The characters up to the first that is rejected. -/
theorem span_of_append {p : Char → Bool} (h : c.rest = cs ++ tail) (hcs : ∀ d ∈ cs, p d = true)
    (htail : ∀ d, tail.head? = some d → p d = false) : c.span p = cs := by
  rw [span, h, List.takeWhile_append_of_pos hcs]
  cases tail with
  | nil => exact List.append_nil cs
  | cons d rest =>
    have hd : ¬p d = true := by
      rw [htail d rfl]
      exact Bool.false_ne_true
    rw [List.takeWhile_cons_of_neg hd, List.append_nil]

/-! ### Lines and columns -/

/-- The place behind printed characters on the same line. -/
theorem skip_printed (h : c.rest = cs ++ tail) (hcs : ∀ d ∈ cs, isPrinted d = true) :
    c.skip cs.length = ⟨tail, c.index + cs.length, c.line, c.column + cs.length⟩ := by
  induction cs generalizing c with
  | nil => cases c; cases h; rfl
  | cons d rest ih =>
    have hd : isPrinted d = true := hcs d List.mem_cons_self
    have hnext : c.next = ⟨rest ++ tail, c.index + 1, c.line, c.column + 1⟩ := by
      have hmark : d ≠ byteOrderMark := ne_of_isPrinted hd (by decide)
      have hbreak : ¬isBreak d = true := by
        rw [isBreak_of_isPrinted hd]
        exact Bool.false_ne_true
      rw [next, h]
      simp only [List.cons_append, if_neg hbreak, if_neg hmark]
    rw [List.length_cons, skip_succ, hnext, ih rfl fun e he => hcs e (List.mem_cons_of_mem d he)]
    simp only [Nat.add_assoc, Nat.add_comm 1]

theorem isPrinted_of_mem_replicate {n : Nat} : ∀ d ∈ List.replicate n ' ', isPrinted d = true := by
  intro d hd
  rw [List.eq_of_mem_replicate hd]
  decide

/-- The place behind a line feed and the indentation of the next line. -/
theorem skip_newLine {n : Nat} (h : c.rest = Style.newLine n ++ tail) :
    c.skip (n + 1) = ⟨tail, c.index + 1 + n, c.line + 1, n⟩ := by
  have hnext : c.next = ⟨List.replicate n ' ' ++ tail, c.index + 1, c.line + 1, 0⟩ := by
    rw [next, h]
    rfl
  have hskip := @skip_printed c.next (List.replicate n ' ') tail (by rw [hnext])
    isPrinted_of_mem_replicate
  rw [List.length_replicate] at hskip
  rw [skip_succ, hskip, hnext, Nat.zero_add]

end Cursor
end Yaml
end Replatform
