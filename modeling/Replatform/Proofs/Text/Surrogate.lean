import Replatform.Text.Surrogate

/-! # Texts of characters

A text without surrogates is one of characters, each of which stands for itself but for the
guard, which is written twice.  In such a text there is nothing to mend.
-/
namespace Replatform
namespace Text

/-- The string is that of a text of characters. -/
def IsOfChars (s : String) : Prop := ∃ cs, s.toList = ofChars cs

theorem isSurrogate_toNat (c : Char) : isSurrogate c.toNat = false := by
  have hvalid : c.toNat < 0xD800 ∨ 0xDFFF < c.toNat ∧ c.toNat < 0x110000 := c.valid
  unfold isSurrogate
  by_cases hlow : 0xD800 ≤ c.toNat
  · have hhigh : ¬c.toNat < 0xE000 := by omega
    rw [decide_eq_true hlow, decide_eq_false hhigh]
    rfl
  · rw [decide_eq_false hlow]
    rfl

theorem ofCode_toNat (c : Char) : ofCode c.toNat = if c = guard then [guard, guard] else [c] := by
  have hcode : ¬isSurrogate c.toNat = true := by
    rw [isSurrogate_toNat]
    exact Bool.false_ne_true
  rw [ofCode, if_neg hcode]
  by_cases hc : c = guard
  · rw [if_pos hc, if_pos (congrArg Char.toNat hc)]
  · have hne : c.toNat ≠ guard.toNat := fun e => hc (Char.toNat_inj.mp e)
    rw [if_neg hc, if_neg hne, Char.ofNat_toNat]

theorem codes_ofChars (cs : List Char) : codes (ofChars cs) = cs.map Char.toNat := by
  induction cs with
  | nil => rfl
  | cons c rest ih =>
    rw [ofChars, List.flatMap_cons, List.map_cons, ← ih]
    by_cases hc : c = guard
    · rw [if_pos hc, hc]
      exact (codes_guard guard _).trans (by rw [if_pos rfl]; rfl)
    · rw [if_neg hc]
      exact codes_cons hc _

theorem codes_append {cs : List Char} (h : guard ∉ cs) (ds : List Char) :
    codes (cs ++ ds) = cs.map Char.toNat ++ codes ds := by
  induction cs with
  | nil => rfl
  | cons c rest ih =>
    obtain ⟨hc, hrest⟩ := List.ne_and_not_mem_of_not_mem_cons h
    rw [List.cons_append, codes_cons (Ne.symm hc), ih hrest]
    rfl

theorem codes_of_notMem {cs : List Char} (h : guard ∉ cs) : codes cs = cs.map Char.toNat := by
  have happend := codes_append h []
  rwa [List.append_nil, codes, List.append_nil] at happend

theorem any_isSurrogate_toNat (cs : List Char) : (cs.map Char.toNat).any isSurrogate = false :=
  List.any_eq_false.mpr fun n hn => by
    obtain ⟨c, -, rfl⟩ := List.mem_map.mp hn
    rw [isSurrogate_toNat]
    exact Bool.false_ne_true

/-- Characters in front of a text add no surrogate. -/
theorem hasSurrogate_append {cs : List Char} (h : guard ∉ cs) (ds : List Char) :
    hasSurrogate (cs ++ ds) = hasSurrogate ds := by
  rw [hasSurrogate, codes_append h, List.any_append, any_isSurrogate_toNat, Bool.false_or,
    hasSurrogate]

/-- Characters are no surrogates. -/
theorem hasSurrogate_ofChars (cs : List Char) : hasSurrogate (ofChars cs) = false := by
  rw [hasSurrogate, codes_ofChars]
  exact any_isSurrogate_toNat cs

/-- A closing quote behind a text adds no surrogate. -/
theorem hasSurrogate_quoted (cs : List Char) : hasSurrogate (cs ++ ['\'']) = hasSurrogate cs := by
  unfold hasSurrogate
  induction cs using codes.induct with
  | case1 => decide
  | case2 c =>
    by_cases hc : c = guard
    · rw [hc]
      decide
    · rw [List.cons_append, codes_cons hc, codes_cons hc]
      rfl
  | case3 d rest ih =>
    rw [List.cons_append, List.cons_append, codes_guard, codes_guard, List.any_cons, List.any_cons, ih]
  | case4 c d rest hc ih =>
    rw [List.cons_append, codes_cons hc, codes_cons hc, List.any_cons, List.any_cons, ih]

/-- A string without the guard is that of its text. -/
theorem ofCodes_codes {cs : List Char} (h : guard ∉ cs) : ofCodes (codes cs) = cs := by
  rw [codes_of_notMem h]
  induction cs with
  | nil => rfl
  | cons c rest ih =>
    obtain ⟨hc, hrest⟩ := List.ne_and_not_mem_of_not_mem_cons h
    have hcode : ofCode c.toNat = [c] := by rw [ofCode_toNat, if_neg (Ne.symm hc)]
    rw [List.map_cons, ofCodes, List.flatMap_cons, hcode]
    exact congrArg (c :: ·) (ih hrest)

/-- The string of the text that a string stands for. -/
def canonical (s : String) : String := String.ofList (ofCodes (codes s.toList))

theorem ofCode_ne_nil (n : Nat) : ofCode n ≠ [] := by
  unfold ofCode
  split
  · exact List.cons_ne_nil _ _
  · split
    · exact List.cons_ne_nil _ _
    · exact List.cons_ne_nil _ _

theorem codes_ne_nil (c : Char) (rest : List Char) : codes (c :: rest) ≠ [] := by
  cases rest with
  | nil => exact List.cons_ne_nil _ _
  | cons d rest =>
    rw [codes]
    split
    · exact List.cons_ne_nil _ _
    · exact List.cons_ne_nil _ _

theorem canonical_eq_empty {s : String} : canonical s = "" ↔ s = "" := by
  constructor
  · intro h
    have hcodes : ofCodes (codes s.toList) = [] := String.ofList_inj.mp h
    cases hs : s.toList with
    | nil => exact String.toList_inj.mp hs
    | cons c rest =>
      rw [hs] at hcodes
      obtain ⟨n, ns, hn⟩ := List.exists_cons_of_ne_nil (codes_ne_nil c rest)
      rw [hn, ofCodes, List.flatMap_cons] at hcodes
      exact absurd (List.append_eq_nil_iff.mp hcodes).1 (ofCode_ne_nil n)
  · rintro rfl
    rfl

/-- A text without the guard is its own string. -/
theorem ofChars_of_notMem {cs : List Char} (h : guard ∉ cs) : ofChars cs = cs := by
  induction cs with
  | nil => rfl
  | cons c rest ih =>
    obtain ⟨hc, hrest⟩ := List.ne_and_not_mem_of_not_mem_cons h
    rw [ofChars, List.flatMap_cons, if_neg (Ne.symm hc)]
    exact congrArg (c :: ·) (ih hrest)

theorem isOfChars_of_notMem {s : String} (h : guard ∉ s.toList) : IsOfChars s :=
  ⟨s.toList, (ofChars_of_notMem h).symm⟩

/-- A text of characters has one string only. -/
theorem IsOfChars.canonical {s : String} (h : IsOfChars s) : canonical s = s := by
  obtain ⟨cs, hcs⟩ := h
  have hchars : ofCodes (cs.map Char.toNat) = ofChars cs := by
    rw [ofCodes, List.flatMap_map]
    exact congrArg (fun f : Char → List Char => cs.flatMap f) (funext ofCode_toNat)
  rw [Text.canonical, hcs, codes_ofChars, hchars, ← hcs, String.ofList_toList]

/-- A text of characters has nothing to mend. -/
theorem IsOfChars.mended {s : String} (h : IsOfChars s) : mended s = s := by
  obtain ⟨cs, hcs⟩ := h
  have hcode : ∀ c : Char,
      (if isSurrogate c.toNat then List.replicate 3 '\ufffd' else ofCode c.toNat) =
        if c = guard then [guard, guard] else [c] := by
    intro c
    rw [isSurrogate_toNat, if_neg Bool.false_ne_true, ofCode_toNat]
  have hchars : ((cs.map Char.toNat).flatMap fun n =>
      if isSurrogate n then List.replicate 3 '\ufffd' else ofCode n) = ofChars cs := by
    rw [List.flatMap_map]
    exact congrArg (fun f : Char → List Char => cs.flatMap f) (funext hcode)
  rw [Text.mended, hcs, codes_ofChars, hchars, ← hcs, String.ofList_toList]

theorem ofCode_of_not_isSurrogate {n : Nat} (h : isSurrogate n = false) :
    ofCode n = ofChars [Char.ofNat n] := by
  have hnot : ¬isSurrogate n = true := by
    rw [h]
    exact Bool.false_ne_true
  have hchars : ofChars [Char.ofNat n] =
      if Char.ofNat n = guard then [guard, guard] else [Char.ofNat n] := List.flatMap_singleton ..
  rw [ofCode, if_neg hnot, hchars]
  by_cases hn : n = guard.toNat
  · rw [if_pos hn, if_pos (hn ▸ Char.ofNat_toNat guard)]
  · have hne : Char.ofNat n ≠ guard := by
      intro he
      by_cases hv : n.isValidChar
      · exact hn ((toNat_ofNat_of_isValidChar hv).symm.trans (congrArg Char.toNat he))
      · rw [Char.ofNat, dif_neg hv] at he
        exact absurd he (by decide)
    rw [if_neg hn, if_neg hne]

theorem ofChars_append (cs ds : List Char) : ofChars (cs ++ ds) = ofChars cs ++ ofChars ds :=
  List.flatMap_append

/-- What is mended is a text of characters. -/
theorem isOfChars_mended (s : String) : IsOfChars (mended s) := by
  have hflat : ∀ ns : List Nat, ∃ cs, (ns.flatMap fun n =>
      if isSurrogate n then List.replicate 3 '\ufffd' else ofCode n) = ofChars cs := by
    intro ns
    induction ns with
    | nil => exact ⟨[], rfl⟩
    | cons n rest ih =>
      obtain ⟨cs, hcs⟩ := ih
      rw [List.flatMap_cons, hcs]
      by_cases hn : isSurrogate n = true
      · refine ⟨List.replicate 3 '\ufffd' ++ cs, ?_⟩
        rw [if_pos hn, ofChars_append]
        rfl
      · refine ⟨Char.ofNat n :: cs, ?_⟩
        rw [if_neg hn, ofCode_of_not_isSurrogate (by simpa using hn), ← ofChars_append]
        rfl
  obtain ⟨cs, hcs⟩ := hflat (codes s.toList)
  exact ⟨cs, by rw [mended, String.toList_ofList, hcs]⟩

/-- Mending once is enough. -/
theorem mended_mended (s : String) : mended (mended s) = mended s := (isOfChars_mended s).mended

/-- Only a text of characters has nothing to mend. -/
theorem mended_eq_self_iff {s : String} : mended s = s ↔ IsOfChars s :=
  ⟨fun h => h ▸ isOfChars_mended s, IsOfChars.mended⟩

end Text
end Replatform
