import Replatform.Proofs.Yaml.Blocks

/-! # The tokens of a written tree

Each mark and each scalar that the printer writes is scanned as one token, by its first
character and the one behind it.  A dash, a question mark or a key opens a block unless the
block goes on at its column.
-/
namespace Replatform
namespace Yaml
namespace Scan

open Style

variable {s s' : Scan} {c : Cursor} {tail : List Char} {floor : Nat} {floors floors' : List Nat}
  {key : Option PendingKey} {allowed : Bool} {emitted start : List Token}

theorem isBorder_of_ne {ch mark : Char} (h : c.peek = ch) (hmark : ch ≠ mark) :
    c.isBorder mark = false := by
  rw [Cursor.isBorder, Bool.and_eq_false_iff]
  refine .inl (decide_eq_false fun htake => hmark ?_)
  rw [← h, Cursor.peek]
  cases hrest : c.rest with
  | nil =>
    rw [hrest] at htake
    cases htake
  | cons d rest =>
    rw [hrest] at htake
    exact (List.cons.inj htake).1

theorem isBorder_of_next {ch mark : Char} (h : c.rest = mark :: ch :: tail) (hmark : ch ≠ mark) :
    c.isBorder mark = false := by
  rw [Cursor.isBorder, h, Bool.and_eq_false_iff]
  exact .inl (decide_eq_false fun htake => hmark (List.cons.inj (List.cons.inj htake).2).1)

/-! ## Blocks -/

/-- How a block stands at a column: it goes on, or it is opened there and `t` tells so. -/
inductive Opening (t : Token) (column : Nat) : Nat → List Nat → List Nat → List Token → Prop
  | goesOn (floors : List Nat) : Opening t column (column + 1) floors floors []
  | opens {floor : Nat} (floors : List Nat) (h : floor ≤ column) :
    Opening t column floor floors (floor :: floors) [t]

theorem Opening.floor_le {t : Token} {column : Nat} (h : Opening t column floor floors floors' start) :
    floor ≤ column + 1 := by
  cases h with
  | goesOn => exact Nat.le_refl _
  | opens _ h => exact Nat.le_succ_of_le h

theorem openHere_block {t : Token} (h : Opening t c.column floor floors floors' start) :
    (block c floor floors allowed emitted).openHere t =
      block c (c.column + 1) floors' allowed (start ++ emitted) := by
  cases h with
  | goesOn =>
    have hnone : (block c (c.column + 1) floors allowed emitted).openBlock
        (block c (c.column + 1) floors allowed emitted).cursor.column = none :=
      if_neg (Nat.not_succ_le_self _)
    rw [openHere, hnone]
    rfl
  | opens _ h =>
    have hsome : (block c floor floors allowed emitted).openBlock
        (block c floor floors allowed emitted).cursor.column =
          some (block c (c.column + 1) (floor :: floors) allowed emitted) := if_pos h
    rw [openHere, hsome]
    rfl

theorem isBlankOrEnd_space : isBlankOrEnd ' ' = true := rfl

/-- A dash and a space. -/
theorem takeToken_dash {i : Nat} (hrest : c.rest = '-' :: ' ' :: tail) (hcolumn : c.column = i)
    (h : Opening .blockSequenceStart i floor floors floors' start) :
    (block c floor floors true emitted).takeToken =
      .ok (block c.next (i + 1) floors' true (.blockEntry :: (start ++ emitted))) := by
  subst hcolumn
  have hpeek : c.peek = '-' := Cursor.peek_of_cons hrest
  have hnext : c.next.peek = ' ' := Cursor.peek_of_cons (Cursor.next_of_cons hrest)
  have hdash : c.isBorder '-' = false := isBorder_of_next hrest (by decide)
  have hdot : c.isBorder '.' = false := isBorder_of_ne hpeek (by decide)
  have htake : (block c floor floors true emitted).takeToken =
      (block c floor floors true emitted).takeBlockEntry := by
    simp [takeToken, block, holding, hpeek, hnext, hdash, hdot, isBlankOrEnd_space]
  have hopen := @openHere_block c floor floors floors' true emitted start _ h
  rw [htake, takeBlockEntry, hopen]
  rfl

/-- A question mark and a space. -/
theorem takeToken_question {i : Nat} (hrest : c.rest = '?' :: ' ' :: tail) (hcolumn : c.column = i)
    (h : Opening .blockMappingStart i floor floors floors' start) :
    (block c floor floors true emitted).takeToken =
      .ok (block c.next (i + 1) floors' true (.key :: (start ++ emitted))) := by
  subst hcolumn
  have hpeek : c.peek = '?' := Cursor.peek_of_cons hrest
  have hnext : c.next.peek = ' ' := Cursor.peek_of_cons (Cursor.next_of_cons hrest)
  have hdash : c.isBorder '-' = false := isBorder_of_ne hpeek (by decide)
  have hdot : c.isBorder '.' = false := isBorder_of_ne hpeek (by decide)
  have htake : (block c floor floors true emitted).takeToken =
      (block c floor floors true emitted).takeKey := by
    simp [takeToken, block, holding, hpeek, hnext, hdash, hdot, isBlankOrEnd_space]
  have hopen := @openHere_block c floor floors floors' true emitted start _ h
  rw [htake, takeKey, hopen]
  rfl

theorem takeToken_colon_eq (hrest : c.rest = ':' :: tail)
    (hblank : isBlankOrEnd (tail.headD textEnd) = true) :
    (holding c floor floors key allowed emitted).takeToken =
      (holding c floor floors key allowed emitted).takeValue := by
  have hpeek : c.peek = ':' := Cursor.peek_of_cons hrest
  have hnext : isBlankOrEnd c.next.peek = true := by
    rw [Cursor.peek, Cursor.next_of_cons hrest]
    exact hblank
  have hdash : c.isBorder '-' = false := isBorder_of_ne hpeek (by decide)
  have hdot : c.isBorder '.' = false := isBorder_of_ne hpeek (by decide)
  simp [takeToken, holding, hpeek, hnext, hdash, hdot]

/-- No colon may follow a scalar that was not remembered as a key. -/
theorem takeToken_bareColon (hrest : c.rest = ':' :: tail)
    (hblank : isBlankOrEnd (tail.headD textEnd) = true) :
    (block c floor floors false emitted).takeToken = .error .malformed := by
  rw [block, takeToken_colon_eq hrest hblank]
  rfl

/-- The colon behind a key that a question mark announced. -/
theorem takeToken_colon {i : Nat} (hrest : c.rest = ':' :: tail) (hcolumn : c.column = i)
    (hblank : isBlankOrEnd (tail.headD textEnd) = true) :
    (block c (i + 1) floors true emitted).takeToken =
      .ok (block c.next (i + 1) floors true (.value :: emitted)) := by
  subst hcolumn
  have hopen := @openHere_block c (c.column + 1) floors floors true emitted [] .blockMappingStart
    (.goesOn floors)
  rw [block, takeToken_colon_eq hrest hblank]
  unfold takeValue
  dsimp only [block, holding] at hopen ⊢
  rw [hopen]
  rfl

/-- A token is put in front of those that came last. -/
theorem insertAt_block (behind : List Token) (t : Token) :
    (block c floor floors allowed (behind ++ emitted)).insertAt emitted.length t =
      block c floor floors allowed (behind ++ t :: emitted) := by
  have hbehind : (behind ++ emitted).length - emitted.length = behind.length := by
    rw [List.length_append, Nat.add_sub_cancel]
  have hcount : (behind ++ emitted).length + 1 = (behind ++ t :: emitted).length := by
    rw [List.length_append, List.length_append]
    rfl
  unfold insertAt
  dsimp only [block, holding]
  rw [hbehind, List.take_left, List.drop_left, hcount]

/-- The colon behind a pending key and its scalar. -/
theorem takeToken_keyColon {k : PendingKey} {token : Token} (hrest : c.rest = ':' :: tail)
    (hblank : isBlankOrEnd (tail.headD textEnd) = true) (hnumber : k.number = emitted.length)
    (h : Opening .blockMappingStart k.column floor floors floors' start) :
    (holding c floor floors (some k) allowed (token :: emitted)).takeToken =
      .ok (block c.next (k.column + 1) floors' false
        (.value :: token :: .key :: (start ++ emitted))) := by
  -- the mark of the key goes in front of its scalar
  have hkey : ({ holding c floor floors (some k) allowed (token :: emitted) with
      pending := none, keyAllowed := false } : Scan).insertAt k.number .key =
        block c floor floors false (token :: .key :: emitted) := by
    rw [hnumber]
    exact insertAt_block [token] .key
  rw [takeToken_colon_eq hrest hblank]
  unfold takeValue
  dsimp only [holding] at hkey ⊢
  rw [hkey]
  cases h with
  | goesOn =>
    have hnone : (block c (k.column + 1) floors false (token :: .key :: emitted)).openBlock k.column =
        none := if_neg (Nat.not_succ_le_self _)
    rw [hnone]
    rfl
  | opens _ hfloor =>
    have hsome : (block c floor floors false (token :: .key :: emitted)).openBlock k.column = some
        (block c (k.column + 1) (floor :: floors) false (token :: .key :: emitted)) := if_pos hfloor
    -- and that of the block in front of both
    have hstart : (block c (k.column + 1) (floor :: floors) false
        (token :: .key :: emitted)).insertAt k.number .blockMappingStart =
          block c (k.column + 1) (floor :: floors) false
            (token :: .key :: .blockMappingStart :: emitted) := by
      rw [hnumber]
      exact insertAt_block [token, .key] .blockMappingStart
    rw [hsome]
    dsimp only
    rw [hstart]
    rfl

/-! ## Scalars -/

theorem takeToken_quoted {ch : Char} (hrest : c.rest = ch :: tail) (hch : ch = '\'' ∨ ch = '"')
    {text : List Char} {c' : Cursor} (htake : c.takeQuoted = .ok (text, c')) :
    (block c floor floors allowed emitted).takeToken =
      .ok (holding c' floor floors (keyAt c floor allowed emitted) false
        (.scalar false (String.ofList text) :: emitted)) := by
  have hpeek : c.peek = ch := Cursor.peek_of_cons hrest
  have hdash : c.isBorder '-' = false := isBorder_of_ne hpeek (by rintro rfl; simp at hch)
  have hdot : c.isBorder '.' = false := isBorder_of_ne hpeek (by rintro rfl; simp at hch)
  have htoken : (block c floor floors allowed emitted).takeToken =
      takeLexeme Cursor.takeQuoted (fun text => .scalar false (String.ofList text))
        (block c floor floors allowed emitted) := by
    obtain rfl | rfl := hch <;> simp [takeToken, block, holding, hpeek, hdash, hdot]
  rw [htoken, takeLexeme, saveKey_block]
  simp only [bind, Except.bind, holding, htake]
  rfl

/-- A text starts as a plain scalar may. -/
def PlainStart (cs : List Char) : Prop :=
  ∃ ch rest, cs = ch :: rest ∧ isMark ch = false ∧
    ((ch = '?' ∨ ch = ':' ∨ ch = '-') → ∃ d more, rest = d :: more ∧ isBlankOrEnd d = false)

/-- The character behind a mark that may also be that of a block. -/
theorem next_peek_of_plainStart {split : Bool} {indent column : Nat} {text : List Char}
    (htext : PlainText text) (hstart : PlainStart text)
    (hrest : c.rest = wrap false split indent none column text ++ tail)
    (hmark : c.peek = '?' ∨ c.peek = ':' ∨ c.peek = '-') : isBlankOrEnd c.next.peek = false := by
  obtain ⟨ch, rest, rfl, -, hfollower⟩ := hstart
  have hpeek : ch = c.peek := Option.some.inj (Cursor.peek_plain htext hrest)
  obtain ⟨d, more, rfl, hd⟩ := hfollower (hpeek ▸ hmark)
  have hch : ch ≠ ' ' := fun h => htext.noSpace (congrArg some h)
  have hch' : ch ≠ '\n' := ne_of_isPrinted htext.flowing.1 (by decide)
  have hspace : d ≠ ' ' := by
    rintro rfl
    cases hd
  have hline : d ≠ '\n' := by
    rintro rfl
    cases hd
  rw [wrap, if_neg hch, if_neg hch', Bool.false_and, if_neg Bool.false_ne_true, wrap, if_neg hspace,
    if_neg hline, Bool.false_and, if_neg Bool.false_ne_true] at hrest
  rw [Cursor.peek_of_cons (Cursor.next_of_cons hrest)]
  exact hd

theorem isMark_eq_false {ch : Char} (h : isMark ch = false) :
    ch ≠ '%' ∧ ch ≠ '[' ∧ ch ≠ '\x7b' ∧ ch ≠ ']' ∧ ch ≠ '\x7d' ∧ ch ≠ ',' ∧ ch ≠ '*' ∧ ch ≠ '&' ∧
      ch ≠ '!' ∧ ch ≠ '|' ∧ ch ≠ '>' ∧ ch ≠ '\'' ∧ ch ≠ '"' ∧ ch ≠ '#' ∧ ch ≠ '@' ∧ ch ≠ '\x60' := by
  simp only [isMark] at h
  simp at h
  simp [h]

/-- A plain scalar starts here, unless the character is a mark or that of a block. -/
theorem startsPlain_of_next {ch : Char} (hpeek : c.peek = ch) (hblank : isBlankOrEnd ch = false)
    (hmark : isMark ch = false)
    (hnext : ch = '?' ∨ ch = ':' ∨ ch = '-' → isBlankOrEnd c.next.peek = false) :
    (block c floor floors allowed emitted).startsPlain = true := by
  have hcursor : (block c floor floors allowed emitted).cursor = c := rfl
  have hflow : (block c floor floors allowed emitted).inFlow = false := rfl
  obtain ⟨h₁, h₂, h₃, h₄, h₅, h₆, h₇, h₈, h₉, h₁₀, h₁₁, h₁₂, h₁₃, h₁₄, h₁₅, h₁₆⟩ :=
    isMark_eq_false hmark
  simp only [startsPlain, hcursor, hflow, hpeek, hblank]
  by_cases hdouble : ch = '?' ∨ ch = ':' ∨ ch = '-'
  · rw [hnext hdouble]
    obtain rfl | rfl | rfl := hdouble <;> rfl
  · rw [not_or, not_or] at hdouble
    simp [*]

theorem takeToken_plain_eq {split : Bool} {indent column : Nat} {text : List Char}
    (htext : PlainText text) (hstart : PlainStart text)
    (hrest : c.rest = wrap false split indent none column text ++ tail)
    (hborder : c.column = 0 → c.atBorder = false) :
    (block c floor floors allowed emitted).takeToken =
      (block c floor floors allowed emitted).takePlain := by
  have hhead := Cursor.peek_plain htext hrest
  have hnext := next_peek_of_plainStart htext hstart hrest
  obtain ⟨ch, rest, rfl, hmark, -⟩ := hstart
  have hpeek : c.peek = ch := (Option.some.inj hhead).symm
  rw [hpeek] at hnext
  have hblank := not_isBlank_of_isPrinted htext.flowing.1 fun h => htext.noSpace (congrArg some h)
  have hplain := @startsPlain_of_next c floor floors allowed emitted ch hpeek hblank hmark hnext
  have hdash : ¬(c.column = 0 ∧ c.isBorder '-' = true) := fun h =>
    Bool.false_ne_true ((Bool.or_eq_false_iff.mp (hborder h.1)).1.symm.trans h.2)
  have hdot : ¬(c.column = 0 ∧ c.isBorder '.' = true) := fun h =>
    Bool.false_ne_true ((Bool.or_eq_false_iff.mp (hborder h.1)).2.symm.trans h.2)
  have hfollower : ∀ d, d = '?' ∨ d = ':' ∨ d = '-' →
      ¬(ch = d ∧ isBlankOrEnd c.next.peek = true) := by
    rintro d hd ⟨rfl, hblank⟩
    exact Bool.false_ne_true ((hnext hd).symm.trans hblank)
  have hcursor : (block c floor floors allowed emitted).cursor = c := rfl
  have hflow : (block c floor floors allowed emitted).inFlow = false := rfl
  obtain ⟨h₁, h₂, h₃, h₄, h₅, h₆, h₇, h₈, h₉, h₁₀, h₁₁, h₁₂, h₁₃, -⟩ := isMark_eq_false hmark
  simp only [takeToken, hcursor, hflow, hpeek, hplain, hdash, hdot, h₁, h₂, h₃, h₄, h₅, h₆, h₇, h₈,
    h₉, h₁₀, h₁₁, h₁₂, h₁₃, hfollower, false_and, if_false, or_self, false_or, if_true,
    Bool.false_eq_true, true_or, or_true]

theorem takeToken_plain {split : Bool} {indent column : Nat} {text : List Char}
    (htext : PlainText text) (hstart : PlainStart text)
    (hrest : c.rest = wrap false split indent none column text ++ tail)
    (hborder : c.column = 0 → c.atBorder = false) {broken : Bool} {c' : Cursor}
    (htake : c.takePlain false floor = (text, broken, c')) :
    (block c floor floors allowed emitted).takeToken =
      .ok (holding c' floor floors (keyAt c floor allowed emitted) broken
        (.scalar true (String.ofList text) :: emitted)) := by
  rw [takeToken_plain_eq htext hstart hrest hborder]
  unfold takePlain
  rw [saveKey_block]
  have htake' : c.takePlain (inFlow (holding c floor floors (keyAt c floor allowed emitted) allowed emitted))
      floor = (text, broken, c') := htake
  simp only [bind, Except.bind, holding] at htake' ⊢
  rw [htake']
  rfl

/-! ## Empty collections -/

/-- The characters around an empty collection, and their tokens. -/
inductive Brackets : Char → Char → Token → Token → Prop
  | list : Brackets '[' ']' .flowSequenceStart .flowSequenceEnd
  | map : Brackets '\x7b' '\x7d' .flowMappingStart .flowMappingEnd

/-- Behind the opening bracket. -/
def opened (c : Cursor) (floor : Nat) (floors : List Nat) (key : Option PendingKey)
    (emitted : List Token) : Scan :=
  ⟨c, floor, floors, none, [key], true, emitted, emitted.length⟩

variable {left right : Char} {t t' : Token}

theorem takeToken_left (h : Brackets left right t t') (hrest : c.rest = left :: tail) :
    (block c floor floors allowed emitted).takeToken =
      .ok (opened c.next floor floors (keyAt c floor allowed emitted) (t :: emitted)) := by
  have hpeek : c.peek = left := Cursor.peek_of_cons hrest
  have hdash : c.isBorder '-' = false := isBorder_of_ne hpeek (by cases h <;> decide)
  have hdot : c.isBorder '.' = false := isBorder_of_ne hpeek (by cases h <;> decide)
  have htoken : (block c floor floors allowed emitted).takeToken =
      (block c floor floors allowed emitted).openFlow t := by
    cases h <;> simp [takeToken, block, holding, hpeek, hdash, hdot]
  rw [htoken, openFlow, saveKey_block]
  rfl

theorem takeToken_right (h : Brackets left right t t') (hrest : c.rest = right :: tail) :
    (opened c floor floors key emitted).takeToken =
      .ok (holding c.next floor floors key false (t' :: emitted)) := by
  have hpeek : c.peek = right := Cursor.peek_of_cons hrest
  have hdash : c.isBorder '-' = false := isBorder_of_ne hpeek (by cases h <;> decide)
  have hdot : c.isBorder '.' = false := isBorder_of_ne hpeek (by cases h <;> decide)
  have htoken : (opened c floor floors key emitted).takeToken =
      (opened c floor floors key emitted).closeFlow t' := by
    cases h <;> simp [takeToken, opened, hpeek, hdash, hdot]
  rw [htoken]
  rfl

theorem prepare_opened {k : PendingKey} (hc : Starts c.rest) (hkey : key = none ∨ key = some k)
    (hfresh : isStale c k = false) :
    (opened c floor floors key emitted).prepare = .ok (opened c floor floors key emitted) := by
  have hmark : c.peek ≠ byteOrderMark := ne_peek_of_starts hc rfl (.inr ⟨by decide, by decide⟩)
  have hspaces : c.skipSpaces = c := by
    have hspan := @Cursor.span_spaces c c.rest 0 rfl (dense_of_starts hc)
    rw [Cursor.skipSpaces, Cursor.skipWhile, hspan]
    rfl
  have hcomment : c.skipComment = c := if_neg (ne_peek_of_starts hc rfl (.inl rfl))
  have hbreak : ¬isBreak c.peek = true := by
    rw [Cursor.isBreak_peek_of_dense (dense_of_starts hc)]
    exact Bool.false_ne_true
  have hkeep : freshen c key = .ok key := by
    obtain rfl | rfl := hkey
    · rfl
    · rw [freshen, hfresh]
      rfl
  have hskip : skipToToken c.rest.length.succ (opened c floor floors key emitted) =
      opened c floor floors key emitted := by
    have hcursor : (opened c floor floors key emitted).cursor.skipSpaces.skipComment = c := by
      show c.skipSpaces.skipComment = c
      rw [hspaces, hcomment]
    rw [Nat.succ_eq_add_one]
    unfold skipToToken
    rw [hcursor]
    exact if_neg hbreak
  rw [prepare, skipOrderMark_of_ne hmark]
  show (skipToToken c.rest.length.succ (opened c floor floors key emitted)).dropStale = _
  rw [hskip]
  unfold dropStale
  simp only [opened, List.mapM_cons, List.mapM_nil, hkeep]
  rfl

theorem ne_textEnd_of_brackets (h : Brackets left right t t') : left ≠ textEnd ∧ right ≠ textEnd := by
  cases h <;> decide

/-- The closing bracket is taken next. -/
theorem advance_opened {k : PendingKey} (h : Brackets left right t t')
    (hrest : c.rest = right :: tail) (hkey : key = none ∨ key = some k)
    (hfresh : isStale c k = false) :
    (opened c floor floors key emitted).advance =
      .ok (holding c.next floor floors key false (t' :: emitted), false) := by
  have hstarts : Starts c.rest := by
    rw [hrest]
    intro ch hch
    rw [← Option.some.inj hch]
    cases h <;> decide
  have hend : ¬c.peek = textEnd := by
    rw [Cursor.peek_of_cons hrest]
    exact (ne_textEnd_of_brackets h).2
  have hunwind : ∀ least, (opened c floor floors key emitted).unwind least =
      opened c floor floors key emitted := fun _ => rfl
  have hcursor : (opened c floor floors key emitted).cursor = c := rfl
  rw [advance_eq, prepare_opened hstarts hkey hfresh]
  show act (opened c floor floors key emitted) = _
  unfold act
  simp only [hunwind, hcursor, hend, takeToken_right h hrest]
  rfl

/-- The two brackets of an empty collection. -/
theorem leads_brackets (h : Brackets left right t t') (hrest : c.rest = left :: right :: tail)
    (hfloor : floor ≤ c.column + 1) (hs : At s (block c floor floors allowed emitted)) :
    Leads s (holding (c.skip 2) floor floors (keyAt c floor allowed emitted) false
      (t' :: t :: emitted)) := by
  have hnext : c.next.rest = right :: tail := Cursor.next_of_cons hrest
  have hlast : (c.skip 2).rest = tail := Cursor.next_of_cons hnext
  have hleft : c.peek ≠ textEnd := by
    rw [Cursor.peek_of_cons hrest]
    exact (ne_textEnd_of_brackets h).1
  have hplace : c.skip [left].length = ⟨right :: tail, c.index + 1, c.line, c.column + 1⟩ :=
    Cursor.skip_printed hrest fun d hd => by
      rw [List.mem_singleton.mp hd]
      cases h <;> decide
  have hplace : c.next = ⟨right :: tail, c.index + 1, c.line, c.column + 1⟩ := hplace
  have hkey : keyAt c floor allowed emitted = none ∨ keyAt c floor allowed emitted =
      some ⟨emitted.length, c.index, c.line, c.column, floor == c.column + 1⟩ := by
    cases allowed with
    | true => exact .inr rfl
    | false => exact .inl rfl
  have hfresh : isStale c.next ⟨emitted.length, c.index, c.line, c.column, floor == c.column + 1⟩ =
      false := by
    rw [hplace]
    simp [isStale, keyLimit]
  refine (hs.take hfloor hleft (takeToken_left h hrest) ?_).trans
    (leads_of_advance (advance_opened h hnext hkey hfresh) ?_)
  · show c.next.rest.length < _
    rw [hnext, hrest]
    exact Nat.lt_succ_self _
  · show (c.skip 2).rest.length < c.next.rest.length
    rw [hlast, hnext]
    exact Nat.lt_succ_self _

end Scan
end Yaml
end Replatform
