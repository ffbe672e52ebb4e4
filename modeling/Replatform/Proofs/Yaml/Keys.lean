import Replatform.Proofs.Yaml.Plain

/-! # Keys as they are written

A key that is not announced is written on one line, wherever that is.  The scanner gives it up if
its colon comes too late, and the printer does not look at that: it counts the characters of the
text, of which each may take ten where it is escaped.  So a key fits (`keyFits`) if it has no more
than 102 characters, and a longer one may not.
-/
namespace Replatform
namespace Yaml

open Style

/-! ## On one line -/

/-- Without line breaks and splitting it does not matter where a text is written. -/
theorem wrap_unsplit {quoted : Bool} {cs : List Char} (h : '\n' ∉ cs) (indent indent' : Nat)
    (before before' : Option Char) (column column' : Nat) :
    wrap quoted false indent before column cs = wrap quoted false indent' before' column' cs := by
  induction cs generalizing before before' column column' with
  | nil => rfl
  | cons c rest ih =>
    obtain ⟨hc, hrest⟩ := List.ne_and_not_mem_of_not_mem_cons h
    have hnext := ih hrest
    rw [wrap, wrap]
    simp only [Bool.false_and, Bool.false_eq_true, if_false, if_neg (Ne.symm hc)]
    rw [hnext (some c) (some c) (column + 1) (column' + 1),
      hnext (some c) (some c) (column + 2) (column' + 2)]

theorem wrapEscaped_unsplit (indent indent' : Nat) (first first' fresh fresh' : Bool)
    (column column' : Nat) (ns : List Nat) :
    wrapEscaped false indent first fresh column ns =
      wrapEscaped false indent' first' fresh' column' ns := by
  induction ns generalizing first first' fresh fresh' column column' with
  | nil => rfl
  | cons n rest ih =>
    rw [wrapEscaped, wrapEscaped]
    simp only [Bool.false_and, Bool.false_eq_true, if_false]
    cases escape? n with
    | none => exact congrArg _ (ih ..)
    | some cs => exact congrArg _ (ih ..)

theorem notMem_of_isSimpleKey {k : String} (h : Tree.isSimpleKey k = true) : '\n' ∉ k.toList := by
  intro hmem
  simp only [Tree.isSimpleKey, Bool.and_eq_true, Bool.not_eq_true'] at h
  exact Bool.false_ne_true ((List.any_eq_false.mp h.2 _ hmem) rfl).elim

theorem scalar_unsplit {k : String} (h : '\n' ∉ k.toList) (indent column : Nat) :
    scalar false indent column k = scalar false 0 0 k := by
  unfold scalar
  cases ofText k with
  | plain => exact wrap_unsplit h ..
  | single =>
    dsimp only
    rw [wrap_unsplit h indent 0 none none (column + 1) (0 + 1)]
  | double =>
    dsimp only
    rw [wrapEscaped_unsplit indent 0 true true false false (column + 1) (0 + 1)]

theorem notMem_wrap {quoted : Bool} {cs : List Char} (h : '\n' ∉ cs) (indent : Nat)
    (before : Option Char) (column : Nat) : '\n' ∉ wrap quoted false indent before column cs := by
  induction cs generalizing before column with
  | nil => exact List.not_mem_nil
  | cons c rest ih =>
    obtain ⟨hc, hrest⟩ := List.ne_and_not_mem_of_not_mem_cons h
    have hnext := ih hrest
    rw [wrap]
    simp only [Bool.false_and, Bool.false_eq_true, if_false, if_neg (Ne.symm hc)]
    split
    · exact List.not_mem_cons_of_ne_of_not_mem (by decide) (hnext _ _)
    · split
      · exact List.not_mem_cons_of_ne_of_not_mem (by decide)
          (List.not_mem_cons_of_ne_of_not_mem (by decide) (hnext _ _))
      · exact List.not_mem_cons_of_ne_of_not_mem hc (hnext _ _)

theorem notMem_upperHex (width n : Nat) : '\n' ∉ Text.upperHex width n := by
  unfold Text.upperHex
  induction width generalizing n with
  | zero => exact List.not_mem_nil
  | succ width ih =>
    have hdigit : ∀ d < 16, '\n' ≠ (Text.hexDigit d).toUpper := by decide
    rw [Text.hex, List.map_append, List.mem_append, not_or]
    exact ⟨ih _, fun hmem => hdigit _ (Nat.mod_lt n (by decide)) (List.mem_singleton.mp hmem)⟩

theorem notMem_escape {n : Nat} {cs : List Char} (h : escape? n = some cs) : '\n' ∉ cs := by
  obtain ⟨letter, hmem, -, rfl⟩ | ⟨e, he, -, rfl⟩ := escape?_cases h
  · have hletters : ∀ e ∈ escapeLetters, '\n' ≠ e.2 := by decide
    exact List.not_mem_cons_of_ne_of_not_mem (by decide)
      (List.not_mem_cons_of_ne_of_not_mem (hletters _ hmem) List.not_mem_nil)
  · have hmarks : ∀ e ∈ hexEscapes, '\n' ≠ e.1 := by decide
    exact List.not_mem_cons_of_ne_of_not_mem (by decide)
      (List.not_mem_cons_of_ne_of_not_mem (hmarks e he) (notMem_upperHex _ n))

theorem notMem_wrapEscaped (indent : Nat) (first fresh : Bool) (column : Nat) (ns : List Nat) :
    '\n' ∉ wrapEscaped false indent first fresh column ns := by
  induction ns generalizing first fresh column with
  | nil => exact List.not_mem_nil
  | cons n rest ih =>
    rw [wrapEscaped]
    simp only [Bool.false_and, Bool.false_eq_true, if_false]
    split
    · rename_i cs hcs
      rw [List.mem_append, not_or]
      exact ⟨notMem_escape hcs, ih _ _ _⟩
    · rename_i hnone
      have hprinted := (Cursor.escape?_eq_none hnone).2.1
      exact List.not_mem_cons_of_ne_of_not_mem (ne_of_isPrinted hprinted (by decide)).symm (ih _ _ _)

/-- A key that is not announced is written on one line. -/
theorem isPrinted_key {k : String} (h : '\n' ∉ k.toList) (indent column : Nat) :
    ∀ c ∈ scalar false indent column k, isPrinted c = true := by
  have hline : '\n' ∉ scalar false indent column k := by
    unfold scalar
    cases ofText k with
    | plain => exact notMem_wrap h _ _ _
    | single =>
      dsimp only
      rw [List.mem_append, not_or]
      exact ⟨List.not_mem_cons_of_ne_of_not_mem (by decide) (notMem_wrap h _ _ _), by decide⟩
    | double =>
      dsimp only
      rw [List.mem_append, not_or]
      exact ⟨List.not_mem_cons_of_ne_of_not_mem (by decide) (notMem_wrapEscaped _ _ _ _ _), by decide⟩
  intro c hc
  refine isPrinted_of_isSimple (simple_scalar _ _ _ _ c hc) ?_
  rintro rfl
  exact hline hc

theorem wrap_plain_unsplit {cs : List Char} (h : '\n' ∉ cs) (indent column : Nat)
    (before : Option Char) : wrap false false indent before column cs = cs := by
  induction cs generalizing before column with
  | nil => rfl
  | cons c rest ih =>
    obtain ⟨hc, hrest⟩ := List.ne_and_not_mem_of_not_mem_cons h
    rw [wrap]
    simp only [Bool.false_and, Bool.false_eq_true, if_false, if_neg (Ne.symm hc), ih hrest]
    split
    · rename_i hspace
      rw [hspace]
    · rfl

/-! ## How long they are -/

/-- The key can be read: it is announced, or its colon comes in time. -/
def keyFits (k : String) : Bool :=
  !Tree.isSimpleKey k || (scalar false 0 0 k).length ≤ Scan.keyLimit

theorem length_wrap_le {quoted : Bool} {cs : List Char} (h : '\n' ∉ cs) (indent : Nat)
    (before : Option Char) (column : Nat) :
    (wrap quoted false indent before column cs).length ≤ 10 * cs.length := by
  induction cs generalizing before column with
  | nil => exact Nat.le_refl 0
  | cons c rest ih =>
    obtain ⟨hc, hrest⟩ := List.ne_and_not_mem_of_not_mem_cons h
    have hnext := fun before column => ih hrest before column
    rw [wrap]
    simp only [Bool.false_and, Bool.false_eq_true, if_false, if_neg (Ne.symm hc), List.length_cons]
    split
    · have hspace := hnext (some c) (column + 1)
      rw [List.length_cons]
      omega
    · split
      · have hquote := hnext (some c) (column + 2)
        rw [List.length_cons, List.length_cons]
        omega
      · have hchar := hnext (some c) (column + 1)
        rw [List.length_cons]
        omega

theorem length_escape_le {n : Nat} {cs : List Char} (h : escape? n = some cs) : cs.length ≤ 10 := by
  obtain ⟨letter, -, -, rfl⟩ | ⟨e, he, -, rfl⟩ := escape?_cases h
  · exact Nat.le_add_left 2 8
  · have hwidths : ∀ e ∈ hexEscapes, e.2 ≤ 8 := by decide
    rw [List.length_cons, List.length_cons, length_upperHex]
    exact Nat.add_le_add_right (hwidths e he) 2

theorem length_wrapEscaped_le (indent : Nat) (first fresh : Bool) (column : Nat) (ns : List Nat) :
    (wrapEscaped false indent first fresh column ns).length ≤ 10 * ns.length := by
  induction ns generalizing first fresh column with
  | nil => exact Nat.le_refl 0
  | cons n rest ih =>
    rw [wrapEscaped]
    simp only [Bool.false_and, Bool.false_eq_true, if_false, List.length_cons]
    split
    · rename_i cs hcs
      have hlength := length_escape_le hcs
      have hrest := ih false true (column + cs.length)
      rw [List.length_append]
      omega
    · have hrest := ih false false (column + 1)
      rw [List.length_cons]
      omega

theorem canonical_of_isPlain {t : String} (h : isPlain t = true) : Text.canonical t = t := by
  have hguard : Text.guard ∉ t.toList := fun hmem =>
    absurd ((plainText_of_isPlain h).flowing.isPrinted _ hmem) (by decide)
  rw [Text.canonical, Text.ofCodes_codes hguard, String.ofList_toList]

/-- **A key with no more than 102 characters fits.** -/
theorem keyFits_of_length {k : String} (h : (Text.codes k.toList).length ≤ 102) : keyFits k = true := by
  unfold keyFits
  by_cases hkey : Tree.isSimpleKey k = true
  · have hline := notMem_of_isSimpleKey hkey
    rw [hkey, Bool.not_true, Bool.false_or, decide_eq_true_eq]
    -- only between double quotes may the string have more characters than its text
    have hcodes : Simple k.toList → k.toList.length = (Text.codes k.toList).length := fun hsimple => by
      rw [Text.codes_of_notMem (Cursor.guard_notMem_of_simple hsimple), List.length_map]
    unfold scalar
    cases hstyle : ofText k with
    | plain =>
      have hplain : isPlain k = true := Classical.byContradiction fun h =>
        Cursor.ofText_ne_plain h hstyle
      have hsimple : Simple k.toList := by
        simp only [isPlain, Bool.and_eq_true] at hplain
        exact simple_of_all hplain.1.1.1.1.1
      have hlength := hcodes hsimple
      have hwrap := @length_wrap_le false k.toList hline 0 none 0
      dsimp only
      unfold Scan.keyLimit
      omega
    | single =>
      have hlength := hcodes (Cursor.of_ofText_single hstyle).1
      have hwrap := @length_wrap_le true k.toList hline 0 none (0 + 1)
      dsimp only
      rw [List.length_append, List.length_cons, List.length_singleton]
      unfold Scan.keyLimit
      omega
    | double =>
      have hwrap := length_wrapEscaped_le 0 true false (0 + 1) (Text.codes k.toList)
      dsimp only
      rw [List.length_append, List.length_cons, List.length_singleton]
      unfold Scan.keyLimit
      omega
  · rw [Bool.eq_false_iff.mpr hkey]
    rfl

/-! ### Wide characters

A character beyond the first plane is always written with ten, so keys of such characters reach
the limit. -/

theorem length_escape_of_wide {c : Char} (h : 0x10000 ≤ c.toNat) :
    ∃ cs, escape? c.toNat = some cs ∧ cs.length = 10 := by
  cases hescape : escape? c.toNat with
  | none =>
    have hcode := (escape?_none hescape).1
    omega
  | some cs =>
    refine ⟨cs, rfl, ?_⟩
    obtain ⟨letter, hmem, -, -⟩ | ⟨e, he, hlt, rfl⟩ := escape?_cases hescape
    · have hletters : ∀ e ∈ escapeLetters, e.1.toNat < 0x10000 := by decide
      rw [Char.ofNat_toNat] at hmem
      exact absurd h (Nat.not_le_of_lt (hletters _ hmem))
    · have hwidths : ∀ e ∈ hexEscapes, 0x10000 < 16 ^ e.2 → e.2 = 8 := by decide
      have hvalid : c.toNat < 0xD800 ∨ 0xDFFF < c.toNat ∧ c.toNat < 0x110000 := c.valid
      have hpower := hlt (by omega)
      rw [List.length_cons, List.length_cons, length_upperHex, hwidths e he (by omega)]

theorem length_wrapEscaped_of_wide {cs : List Char} (h : ∀ c ∈ cs, 0x10000 ≤ c.toNat) (indent : Nat)
    (first fresh : Bool) (column : Nat) :
    (wrapEscaped false indent first fresh column (cs.map Char.toNat)).length = 10 * cs.length := by
  induction cs generalizing first fresh column with
  | nil => rfl
  | cons c rest ih =>
    obtain ⟨hc, hrest⟩ := List.forall_mem_cons.mp h
    obtain ⟨es, hescape, hlength⟩ := length_escape_of_wide hc
    rw [List.map_cons, wrapEscaped, hescape]
    simp only [Bool.false_and, Bool.false_eq_true, if_false, List.length_append, List.length_cons,
      ih hrest]
    omega

/-- **A key of wide characters fits if it has no more than 102, or so many that it is announced.** -/
theorem keyFits_iff_of_wide {k : String} (hne : k.toList ≠ [])
    (hwide : ∀ c ∈ k.toList, 0x10000 ≤ c.toNat ∧ c ≠ Text.guard) :
    keyFits k = true ↔ k.toList.length ≤ 102 ∨ Tree.longKey ≤ k.toList.length := by
  have hcodes : Text.codes k.toList = k.toList.map Char.toNat :=
    Text.codes_of_notMem fun hmem => (hwide _ hmem).2 rfl
  have hbreak : k.toList.any isBreak = false := List.any_eq_false.mpr fun c hc hbreak => by
    have hbreaks : ∀ c : Char, isBreak c = true → c.toNat < 0x10000 := by
      intro c h
      simp only [isBreak, Bool.or_eq_true, decide_eq_true_eq] at h
      obtain ((rfl | rfl) | rfl) | rfl := h <;> decide
    exact Nat.not_le_of_lt (hbreaks c hbreak) (hwide c hc).1
  have hsimple : k.toList.all isSimple = false := by
    obtain ⟨c, rest, hcons⟩ := List.exists_cons_of_ne_nil hne
    have hc := (hwide c (hcons ▸ List.mem_cons_self)).1
    have hnot : isSimple c = false := by
      have hline : c ≠ '\n' := fun he => absurd (he ▸ hc) (by decide)
      simp only [isSimple, hline, decide_false, Bool.false_or, Bool.and_eq_false_iff,
        decide_eq_false_iff_not]
      omega
    rw [hcons, List.all_cons, hnot, Bool.false_and]
  -- so the key is escaped, character by character
  have hstyle : ofText k = .double := by
    simp [ofText, isPlain, hsimple]
  have hlength : (scalar false 0 0 k).length = 10 * k.toList.length + 2 := by
    rw [scalar, hstyle, hcodes]
    dsimp only
    rw [List.length_append, List.length_cons,
      length_wrapEscaped_of_wide fun c hc => (hwide c hc).1]
    rfl
  have hkey : Tree.isSimpleKey k = decide (k.toList.length < Tree.longKey) := by
    rw [Tree.isSimpleKey, hcodes, List.length_map, hbreak]
    simp [hne]
  rw [keyFits, hlength, hkey]
  unfold Scan.keyLimit
  simp only [Bool.or_eq_true, Bool.not_eq_true', decide_eq_false_iff_not, decide_eq_true_eq]
  omega

/-! ### Words -/

/-- A short text without the guard: it is written as the key that it is. -/
def IsWord (w : String) : Prop := Text.guard ∉ w.toList ∧ w.toList.length ≤ 102

instance (w : String) : Decidable (IsWord w) := inferInstanceAs (Decidable (_ ∧ _))

theorem IsWord.canonical {w : String} (h : IsWord w) : Text.canonical w = w := by
  rw [Text.canonical, Text.ofCodes_codes h.1, String.ofList_toList]

theorem IsWord.keyFits {w : String} (h : IsWord w) : keyFits w = true := by
  refine keyFits_of_length ?_
  rw [Text.codes_of_notMem h.1, List.length_map]
  exact h.2

end Yaml
end Replatform
