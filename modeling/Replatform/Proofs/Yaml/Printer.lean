import Mathlib.Algebra.Group.Nat.Defs
import Replatform.Proofs.Text.Utf8
import Replatform.Yaml.Meaning
import Replatform.Yaml.Printer

/-! # What the printer writes

Whatever the texts of a tree are, all that is written for it is line feeds and printable ASCII
characters: plain and single-quoted scalars hold nothing else, and between double quotes what
is something else is escaped.  So a file with a tree reads back as the text that was written.

That the text reads as the tree again takes more (`Tree.read_write_of_fits`).
-/
namespace Replatform
namespace Yaml

namespace Style

/-- All characters are line feeds or printable ASCII. -/
def Simple (cs : List Char) : Prop := ∀ c ∈ cs, isSimple c = true

instance (cs : List Char) : Decidable (Simple cs) :=
  decidable_of_iff (cs.all isSimple = true) List.all_eq_true

@[simp] theorem simple_nil : Simple [] := fun _ h => absurd h List.not_mem_nil

@[simp] theorem simple_cons {c : Char} {cs : List Char} :
    Simple (c :: cs) ↔ isSimple c = true ∧ Simple cs := List.forall_mem_cons

@[simp] theorem simple_append {cs ds : List Char} : Simple (cs ++ ds) ↔ Simple cs ∧ Simple ds :=
  List.forall_mem_append

theorem simple_of_all {cs : List Char} (h : cs.all isSimple = true) : Simple cs :=
  List.all_eq_true.mp h

theorem isSimple_ofNat {n : Nat} (h : 0x20 ≤ n ∧ n ≤ 0x7E) : isSimple (Char.ofNat n) = true := by
  have hvalid : n.isValidChar := by unfold Nat.isValidChar; omega
  rw [isSimple, Text.toNat_ofNat_of_isValidChar hvalid]
  simp [h.1, h.2]

/-! ### Scalars -/

@[simp] theorem simple_newLine (indent : Nat) : Simple (newLine indent) := by
  refine simple_cons.mpr ⟨by decide, fun c hc => ?_⟩
  rw [List.eq_of_mem_replicate hc]
  decide

theorem simple_upperHex (width n : Nat) : Simple (Text.upperHex width n) := by
  unfold Text.upperHex
  induction width generalizing n with
  | zero => exact simple_nil
  | succ width ih =>
    rw [Text.hex, List.map_append, simple_append]
    refine ⟨ih (n / 16), ?_⟩
    have hdigit : ∀ d < 16, Simple [(Text.hexDigit d).toUpper] := by decide
    exact hdigit (n % 16) (Nat.mod_lt n (by decide))

theorem simple_wrap {cs : List Char} (h : Simple cs) (quoted split : Bool) (indent : Nat)
    (before : Option Char) (column : Nat) : Simple (wrap quoted split indent before column cs) := by
  induction cs generalizing before column with
  | nil => exact simple_nil
  | cons c rest ih =>
    obtain ⟨hc, hrest⟩ := simple_cons.mp h
    have hnext := ih hrest
    rw [wrap]
    split
    · dsimp only
      split
      · exact simple_append.mpr ⟨simple_newLine indent, hnext _ _⟩
      · exact simple_cons.mpr ⟨by decide, hnext _ _⟩
    · split
      · refine simple_append.mpr ⟨simple_append.mpr ⟨?_, ?_⟩, hnext _ _⟩
        · split <;> decide
        · split
          · decide
          · exact simple_newLine indent
      · split
        · exact simple_cons.mpr ⟨by decide, simple_cons.mpr ⟨by decide, hnext _ _⟩⟩
        · exact simple_cons.mpr ⟨hc, hnext _ _⟩

/-- An escape is a backslash with the letter of the character, or with a mark and digits that are
enough for the number. -/
theorem escape?_cases {n : Nat} {cs : List Char} (h : escape? n = some cs) :
    (∃ letter, (Char.ofNat n, letter) ∈ escapeLetters ∧ Text.isSurrogate n = false ∧
      cs = ['\\', letter]) ∨
    ∃ e ∈ hexEscapes, (n < 0x110000 → n < 16 ^ e.2) ∧ cs = '\\' :: e.1 :: Text.upperHex e.2 n := by
  unfold escape? at h
  split at h
  · rename_i letter hletter
    split at hletter
    · cases hletter
    · rename_i hsurrogate
      obtain ⟨before, after, hsplit, -⟩ := List.lookup_eq_some_iff.mp hletter
      exact .inl ⟨letter, by rw [hsplit]; simp, Bool.eq_false_iff.mpr hsurrogate,
        (Option.some.inj h).symm⟩
  · split at h
    · cases h
    · split at h
      · rename_i hn
        exact .inr ⟨('x', 2), by decide, fun _ => Nat.lt_succ_of_le hn, (Option.some.inj h).symm⟩
      · split at h
        · rename_i hn
          exact .inr ⟨('u', 4), by decide, fun _ => Nat.lt_succ_of_le hn, (Option.some.inj h).symm⟩
        · exact .inr ⟨('U', 8), by decide, fun hn => Nat.lt_trans hn (by decide),
            (Option.some.inj h).symm⟩

/-- What has no escape is printable ASCII and has no letter. -/
theorem escape?_none {n : Nat} (h : escape? n = none) :
    (0x20 ≤ n ∧ n ≤ 0x7E) ∧ escapeLetters.lookup (Char.ofNat n) = none := by
  unfold escape? at h
  split at h
  · cases h
  · rename_i hletter
    split at h
    · rename_i hn
      have hsurrogate : ¬Text.isSurrogate n = true := by
        rw [Text.isSurrogate, Bool.and_eq_true, decide_eq_true_eq, decide_eq_true_eq]
        omega
      rw [if_neg hsurrogate] at hletter
      exact ⟨hn, hletter⟩
    · split at h
      · cases h
      · split at h <;> cases h

theorem simple_escape {n : Nat} {cs : List Char} (h : escape? n = some cs) : Simple cs := by
  obtain ⟨letter, hmem, -, rfl⟩ | ⟨e, he, -, rfl⟩ := escape?_cases h
  · have hletters : ∀ e ∈ escapeLetters, isSimple e.2 = true := by decide
    exact simple_cons.mpr ⟨by decide, simple_cons.mpr ⟨hletters _ hmem, simple_nil⟩⟩
  · have hmarks : ∀ e ∈ hexEscapes, isSimple e.1 = true := by decide
    exact simple_cons.mpr ⟨by decide, simple_cons.mpr ⟨hmarks e he, simple_upperHex _ n⟩⟩

theorem isSimple_of_escape?_eq_none {n : Nat} (h : escape? n = none) :
    isSimple (Char.ofNat n) = true := isSimple_ofNat (escape?_none h).1

theorem simple_brokenLine (indent : Nat) (next : Option Nat) : Simple (brokenLine indent next) := by
  refine simple_append.mpr ⟨simple_cons.mpr ⟨by decide, simple_newLine indent⟩, ?_⟩
  split <;> decide

theorem simple_wrapEscaped (split : Bool) (indent : Nat) (first fresh : Bool) (column : Nat)
    (ns : List Nat) : Simple (wrapEscaped split indent first fresh column ns) := by
  induction ns generalizing first fresh column with
  | nil => exact simple_nil
  | cons n rest ih =>
    rw [wrapEscaped]
    split
    · rename_i cs hcs
      have hsimple := simple_escape hcs
      split
      · exact simple_append.mpr ⟨simple_append.mpr ⟨hsimple, simple_brokenLine _ _⟩, ih _ _ _⟩
      · exact simple_append.mpr ⟨hsimple, ih _ _ _⟩
    · rename_i hnone
      have hsimple := isSimple_of_escape?_eq_none hnone
      split
      · exact simple_append.mpr
          ⟨simple_brokenLine _ _, simple_cons.mpr ⟨hsimple, ih _ _ _⟩⟩
      · exact simple_cons.mpr ⟨hsimple, ih _ _ _⟩

theorem simple_scalar (split : Bool) (indent column : Nat) (s : String) :
    Simple (scalar split indent column s) := by
  unfold scalar
  cases hstyle : ofText s with
  | plain =>
    have hplain : isPlain s = true := by
      apply Classical.byContradiction
      intro hnot
      rw [ofText, if_neg hnot] at hstyle
      split at hstyle <;> cases hstyle
    simp only [isPlain, Bool.and_eq_true] at hplain
    exact simple_wrap (simple_of_all hplain.1.1.1.1.1) _ _ _ _ _
  | single =>
    have hall : s.toList.all isSimple = true := by
      unfold ofText at hstyle
      split at hstyle
      · cases hstyle
      · dsimp only at hstyle
        split at hstyle
        · rename_i h
          exact (Bool.and_eq_true_iff.mp h).1
        · cases hstyle
    have hwrap := simple_wrap (simple_of_all hall)
    exact simple_append.mpr ⟨simple_cons.mpr ⟨by decide, hwrap _ _ _ _ _⟩, by decide⟩
  | double =>
    exact simple_append.mpr ⟨simple_cons.mpr ⟨by decide, simple_wrapEscaped _ _ _ _ _ _⟩, by decide⟩

end Style

/-! ### Trees -/

namespace Tree

open Style

theorem simple_flagText (b : Bool) : Simple (flagText b) := by cases b <;> decide

mutual

theorem simple_entryLines (indent : Nat) : ∀ es, Simple (entryLines indent es)
  | [] => simple_nil
  | (k, t) :: rest => by
    rw [entryLines.eq_def]
    refine simple_append.mpr ⟨?_, ?_⟩
    · split
      · exact simple_append.mpr ⟨simple_scalar _ _ _ _,
          simple_cons.mpr ⟨by decide, simple_underKey _ _ t⟩⟩
      · refine simple_append.mpr ⟨?_, simple_cons.mpr ⟨by decide,
          simple_cons.mpr ⟨by decide, simple_inLine _ t⟩⟩⟩
        exact simple_append.mpr ⟨simple_cons.mpr ⟨by decide,
          simple_cons.mpr ⟨by decide, simple_scalar _ _ _ _⟩⟩, simple_newLine _⟩
    · have hrest := simple_entryLines indent rest
      cases rest with
      | nil => exact simple_nil
      | cons e more => exact simple_append.mpr ⟨simple_newLine _, hrest⟩

theorem simple_underKey (indent column : Nat) : ∀ t, Simple (underKey indent column t)
  | .text s => by
    rw [underKey]
    exact simple_cons.mpr ⟨by decide, simple_scalar _ _ _ s⟩
  | .flag b => by
    rw [underKey]
    exact simple_cons.mpr ⟨by decide, simple_flagText b⟩
  | .list [] => by
    rw [underKey]
    decide
  | .list (t :: rest) => by
    rw [underKey]
    exact simple_append.mpr ⟨simple_newLine _, simple_itemLines _ (t :: rest)⟩
  | .map [] => by
    rw [underKey]
    decide
  | .map (e :: rest) => by
    rw [underKey]
    exact simple_append.mpr ⟨simple_newLine _, simple_entryLines _ (e :: rest)⟩

theorem simple_inLine (indent : Nat) : ∀ t, Simple (inLine indent t)
  | .text s => by
    rw [inLine]
    exact simple_scalar _ _ _ s
  | .flag b => by
    rw [inLine]
    exact simple_flagText b
  | .list [] => by
    rw [inLine]
    decide
  | .list (t :: rest) => by
    rw [inLine]
    exact simple_itemLines _ (t :: rest)
  | .map [] => by
    rw [inLine]
    decide
  | .map (e :: rest) => by
    rw [inLine]
    exact simple_entryLines _ (e :: rest)

theorem simple_itemLines (indent : Nat) : ∀ ts, Simple (itemLines indent ts)
  | [] => simple_nil
  | t :: rest => by
    rw [itemLines.eq_def]
    refine simple_append.mpr ⟨?_, ?_⟩
    · exact simple_cons.mpr ⟨by decide, simple_cons.mpr ⟨by decide, simple_inLine _ t⟩⟩
    · have hrest := simple_itemLines indent rest
      cases rest with
      | nil => exact simple_nil
      | cons u more => exact simple_append.mpr ⟨simple_newLine _, hrest⟩

end

/-- All that is written is line feeds and printable ASCII. -/
theorem simple_write (t : Tree) : Simple t.write :=
  simple_append.mpr ⟨simple_inLine 0 t, by decide⟩

/-- No line end that is written is changed by reading. -/
theorem plainLines_write (t : Tree) : Text.plainLines t.write = t.write := by
  refine Text.plainLines_of_notMem fun hmem => ?_
  have hsimple := simple_write t '\r' hmem
  exact absurd hsimple (by decide)

end Tree
end Yaml
end Replatform
