import Replatform.Proofs.Yaml.Keys
import Replatform.Proofs.Yaml.Marks

/-! # Scanning line by line

Each entry, item and value of a written tree starts at a column of a line of its own or behind a
mark.  From there the scan comes over its tokens to what is on the next line (`Reaches`).  Where a
key is too long for its colon, it comes to a fault instead; `Ends` says both, by a mark that tells
which.
-/
namespace Replatform
namespace Yaml

open Style

/-! ## How scalars start -/

namespace Scan

variable {s s' : Scan} {c : Cursor} {tail rest : List Char} {floor : Nat}
  {floors floors' : List Nat} {key : Option PendingKey} {allowed : Bool} {emitted start : List Token}

theorem starts_cons {ch : Char} (h : isPrinted ch = true ∧ ch ≠ ' ' ∧ ch ≠ '#') (cs : List Char) :
    Starts (ch :: cs) := fun d hd => by
  rw [← Option.some.inj hd]
  exact h

/-- A quoted scalar starts with its quote. -/
theorem quote_of_not_isPlain {t : String} (h : ¬isPlain t = true) (split : Bool)
    (indent column : Nat) : ∃ quote body, (quote = '\'' ∨ quote = '"') ∧
      scalar split indent column t = quote :: body := by
  unfold scalar
  cases hstyle : ofText t with
  | plain => exact absurd hstyle (Cursor.ofText_ne_plain h)
  | single => exact ⟨'\'', _, .inl rfl, rfl⟩
  | double => exact ⟨'"', _, .inr rfl, rfl⟩

theorem scalar_of_isPlain {t : String} (h : isPlain t = true) (split : Bool) (indent column : Nat) :
    scalar split indent column t = wrap false split indent none column t.toList := by
  rw [scalar, ofText, if_pos h]

theorem starts_plain {split : Bool} {indent column : Nat} {text : List Char} (h : PlainText text)
    (tail : List Char) : Starts (wrap false split indent none column text ++ tail) := by
  intro ch hch
  rw [Cursor.head?_wrap h] at hch
  have hspace : ch ≠ ' ' := fun he => h.noSpace (he ▸ hch)
  have hcomment : ch ≠ '#' := fun he => h.noComment (he ▸ hch)
  exact ⟨h.flowing.isPrinted ch (List.mem_of_head? hch), hspace, hcomment⟩

theorem starts_scalar (split : Bool) (indent column : Nat) (t : String) (tail : List Char) :
    Starts (scalar split indent column t ++ tail) := by
  by_cases h : isPlain t = true
  · rw [scalar_of_isPlain h]
    exact starts_plain (plainText_of_isPlain h) tail
  · obtain ⟨quote, body, hquote, hscalar⟩ := quote_of_not_isPlain h split indent column
    rw [hscalar]
    refine starts_cons ?_ _
    obtain rfl | rfl := hquote <;> decide

theorem scalar_ne_nil (split : Bool) (indent column : Nat) (t : String) :
    scalar split indent column t ≠ [] := by
  intro hnil
  by_cases h : isPlain t = true
  · have htext := plainText_of_isPlain h
    have hhead := @Cursor.head?_wrap split indent column none t.toList htext []
    rw [List.append_nil, ← scalar_of_isPlain h, hnil] at hhead
    exact htext.nonempty (List.head?_eq_none_iff.mp hhead.symm)
  · obtain ⟨quote, body, -, hscalar⟩ := quote_of_not_isPlain h split indent column
    rw [hscalar] at hnil
    cases hnil

/-- Where a text starts, the document is not over. -/
theorem peek_ne_textEnd {text : List Char} (htext : Starts text) (hne : text ≠ [])
    (hrest : c.rest = text) : c.peek ≠ textEnd := by
  cases text with
  | nil => exact absurd rfl hne
  | cons ch more =>
    rw [Cursor.peek_of_cons hrest]
    exact ne_of_isPrinted (htext ch rfl).1 (by decide)

theorem plainStart_of_isPlain {t : String} (h : isPlain t = true) : PlainStart t.toList := by
  simp only [isPlain, Bool.and_eq_true, Bool.not_eq_true'] at h
  obtain ⟨⟨⟨⟨-, hstart⟩, -⟩, -⟩, -⟩ := h
  cases ht : t.toList with
  | nil =>
    rw [ht] at hstart
    cases hstart
  | cons ch rest =>
    rw [ht] at hstart
    simp only [startsOtherwise, Bool.or_eq_false_iff] at hstart
    obtain ⟨⟨⟨⟨hmark, -⟩, hfollower⟩, -⟩, -⟩ := hstart
    refine ⟨ch, rest, rfl, hmark, fun hch => ?_⟩
    have hblank : isBlankOrEnd (rest.headD textEnd) = false := by
      obtain rfl | rfl | rfl := hch <;> simpa using hfollower
    cases rest with
    | nil => cases hblank
    | cons d more => exact ⟨d, more, rfl, hblank⟩

/-- What is in front is no border between documents. -/
theorem borderless_cons {ch : Char} (h : ch ≠ '-' ∧ ch ≠ '.') (cs : List Char) :
    Cursor.Borderless (ch :: cs) := fun _ hc => Cursor.atBorder_of_cons hc h.1 h.2

/-- Behind a text that is no border by itself, a colon makes none. -/
theorem borderless_of_take {cs : List Char}
    (hdash : cs.take 3 ≠ ['-', '-', '-']) (hdot : cs.take 3 ≠ ['.', '.', '.']) (tail : List Char) :
    Cursor.Borderless (cs ++ ':' :: tail) := by
  have hborder : ∀ mark : Char, mark ≠ ':' → cs.take 3 ≠ [mark, mark, mark] →
      (cs ++ ':' :: tail).take 3 ≠ [mark, mark, mark] := by
    intro mark hmark hne htake
    match cs with
    | [] => exact hmark (List.cons.inj htake).1.symm
    | [a] => exact hmark (List.cons.inj (List.cons.inj htake).2).1.symm
    | [a, b] => exact hmark (List.cons.inj (List.cons.inj (List.cons.inj htake).2).2).1.symm
    | a :: b :: d :: more => exact hne htake
  intro c hc
  rw [Cursor.atBorder, Cursor.isBorder, Cursor.isBorder, hc, decide_eq_false (hborder '-' (by decide) hdash),
    decide_eq_false (hborder '.' (by decide) hdot)]
  rfl

/-- A key with its colon is no border between documents. -/
theorem borderless_key {k : String} (hline : '\n' ∉ k.toList) (indent column : Nat)
    (tail : List Char) : Cursor.Borderless (scalar false indent column k ++ ':' :: tail) := by
  by_cases h : isPlain k = true
  · rw [scalar_of_isPlain h, wrap_plain_unsplit hline]
    simp only [isPlain, Bool.and_eq_true, Bool.not_eq_true'] at h
    obtain ⟨⟨⟨⟨-, hstart⟩, -⟩, -⟩, -⟩ := h
    cases hk : k.toList with
    | nil => exact borderless_cons (by decide) tail
    | cons ch rest =>
      rw [hk] at hstart
      simp only [startsOtherwise, Bool.or_eq_false_iff, decide_eq_false_iff_not] at hstart
      exact borderless_of_take hstart.1.2 hstart.2 tail
  · obtain ⟨quote, body, hquote, hscalar⟩ := quote_of_not_isPlain h false indent column
    rw [hscalar]
    refine borderless_cons ?_ _
    obtain rfl | rfl := hquote <;> decide

/-! ## From line to line -/

/-- A text that starts with a token other than a border between documents. -/
structure Ahead (cs : List Char) : Prop where
  starts : Starts cs
  borderless : Cursor.Borderless cs

/-- The scan has come to a text at a column, with its open blocks and the tokens so far. -/
def Stands (s : Scan) (floor : Nat) (floors : List Nat) (allowed : Bool) (emitted : List Token)
    (text : List Char) (column : Nat) : Prop :=
  ∃ c, At s (block c floor floors allowed emitted) ∧ c.rest = text ∧ c.column = column

/-- The scan comes over some tokens to a text at a column of a new line. -/
def Reaches (s : Scan) (floor : Nat) (floors : List Nat) (emitted : List Token) (text : List Char)
    (column : Nat) : Prop :=
  ∃ s', Leads s s' ∧ Stands s' floor floors true emitted text column

/-- The scan comes over some tokens to a text at a column of a new line if `ok`, and to a fault if
not. -/
def Ends (s : Scan) (ok : Bool) (floor : Nat) (floors : List Nat) (emitted : List Token)
    (text : List Char) (column : Nat) : Prop :=
  if ok then Reaches s floor floors emitted text column else Fails s

variable {text text' : List Char} {column column' : Nat} {ok ok' : Bool}

theorem Reaches.ends (h : Reaches s floor floors emitted text column) :
    Ends s true floor floors emitted text column := h

theorem Leads.ends (h : Leads s s') (h' : Ends s' ok floor floors emitted text column) :
    Ends s ok floor floors emitted text column := by
  cases ok with
  | false => exact h.fails h'
  | true =>
    obtain ⟨s'', hleads, hstands⟩ := h'
    exact ⟨s'', h.trans hleads, hstands⟩

/-- What comes on the next line. -/
theorem Ends.bind {floor' : Nat} {emitted' : List Token}
    (h : Ends s ok floor floors emitted text column)
    (h' : ∀ ⦃s'⦄, Stands s' floor floors true emitted text column →
      Ends s' ok' floor' floors' emitted' text' column') :
    Ends s (ok && ok') floor' floors' emitted' text' column' := by
  cases ok with
  | false => exact h
  | true =>
    obtain ⟨s', hleads, hstands⟩ := h
    exact hleads.ends (h' hstands)

/-- Where the next line starts further left, the innermost block has ended. -/
theorem Ends.close (h : Ends s ok (column' + 1) (floor :: floors) emitted text column)
    (hcolumn : column < column') : Ends s ok floor floors (.blockEnd :: emitted) text column := by
  cases ok with
  | false => exact h
  | true =>
    obtain ⟨s', hleads, c, hat, hrest, rfl⟩ := h
    exact ⟨s', hleads, c, hat.close (Nat.succ_lt_succ hcolumn), hrest, rfl⟩

theorem length_skip_lt {n : Nat} (hn : 0 < n) (hc : c.rest ≠ []) :
    (c.skip n).rest.length < c.rest.length := by
  have hlength : 0 < c.rest.length := List.length_pos_iff.mpr hc
  rw [Cursor.rest_skip, List.length_drop]
  omega

/-- Behind a space. -/
theorem stands_space (hrest : c.rest = ' ' :: text) (htext : Starts text) :
    Stands (block c floor floors allowed emitted) floor floors allowed emitted text (c.column + 1) := by
  have hskip := @Cursor.skip_printed c [' '] text hrest fun d hd => by
    rw [List.mem_singleton.mp hd]
    decide
  have hskip : c.skip 1 = ⟨text, c.index + 1, c.line, c.column + 1⟩ := hskip
  refine ⟨c.skip 1, @at_spaces c text floor floors none none allowed emitted 1 hrest htext rfl, ?_, ?_⟩
  · rw [hskip]
  · rw [hskip]

/-- On the next line, where a key from an earlier place is forgotten. -/
theorem stands_newLine {c₀ : Cursor} {n j : Nat} (hrest : (c₀.skip n).rest = newLine j ++ tail)
    (htail : Starts tail) (hkey : Lapses c₀ key) :
    Stands (holding (c₀.skip n) floor floors key allowed emitted) floor floors true emitted tail j := by
  have hskip := Cursor.skip_newLine hrest
  have hline : c₀.line < ((c₀.skip n).skip (j + 1)).line := by
    rw [hskip]
    exact Nat.lt_succ_of_le (line_le_skip n c₀)
  refine ⟨_, at_newLine hrest htail (freshen_of_lapses hkey hline), ?_, ?_⟩
  · rw [hskip]
  · rw [hskip]

/-- The token of a text. -/
def scalarToken (t : String) : Token := .scalar (isPlain t) (Text.canonical t)

/-- A plain scalar as the value of an entry or as an item. -/
theorem reaches_plain {indent place j : Nat} (htext : PlainText text)
    (hstart : PlainStart text)
    (hs : Stands s floor floors allowed emitted
      (wrap false true indent none column text ++ (newLine j ++ tail)) place)
    (hplace : floor ≤ place) (hfloor : floor ≤ indent) (hj : j < floor) (htail : Ahead tail) :
    Reaches s floor floors (.scalar true (String.ofList text) :: emitted) tail j := by
  obtain ⟨c, hs, hrest, rfl⟩ := hs
  have hread := Cursor.takePlain_newLine htext (by omega) hfloor (Nat.le_succ_of_le hplace) hrest
    (dense_of_starts htail.starts) (fun _ => htail.borderless) hj
  have hborder : c.column = 0 → c.atBorder = false := fun h => by omega
  have htake := @takeToken_plain c (newLine j ++ tail) floor floors allowed emitted true indent column
    text htext hstart hrest hborder _ _ hread
  have hpeek : c.peek ≠ textEnd := by
    have hhead := Cursor.peek_plain htext hrest
    exact ne_of_isPrinted (htext.flowing.isPrinted _ (List.mem_of_head? hhead)) (by decide)
  have hne : c.rest ≠ [] := by
    intro hnil
    exact hpeek (Cursor.peek_of_nil hnil)
  -- to see that the scalar is over, the line end behind it has been read as well
  have hskip := Cursor.skip_newLine (Cursor.rest_skip_of_append hrest)
  rw [Cursor.skip_skip] at hskip
  refine ⟨_, hs.take (Nat.le_succ_of_le hplace) hpeek htake (length_skip_lt (by omega) hne), ?_⟩
  have hline : c.line < (c.skip ((wrap false true indent none column text).length + (j + 1))).line := by
    rw [hskip]
    exact Nat.lt_succ_of_le (line_le_skip _ c)
  refine ⟨_, @at_spaces _ tail floor floors _ _ true _ 0 ?_ htail.starts
    (freshen_of_lapses (lapses_keyAt hplace) hline), ?_, ?_⟩
  · rw [hskip]
    rfl
  · show (c.skip _).rest = tail
    rw [hskip]
  · show (c.skip _).column = j
    rw [hskip]

/-- A scalar as the value of an entry or as an item. -/
theorem reaches_scalar {t : String} {indent place j : Nat}
    (hs : Stands s floor floors allowed emitted
      (scalar true indent column t ++ (newLine j ++ tail)) place)
    (hplace : floor ≤ place) (hfloor : floor ≤ indent) (hj : j < floor) (hwidth : indent < lineWidth)
    (htail : Ahead tail) : Reaches s floor floors (scalarToken t :: emitted) tail j := by
  by_cases hplain : isPlain t = true
  · rw [scalar_of_isPlain hplain] at hs
    have hreaches := reaches_plain (plainText_of_isPlain hplain) (plainStart_of_isPlain hplain) hs hplace
      hfloor hj htail
    rwa [String.ofList_toList, ← canonical_of_isPlain hplain, ← hplain] at hreaches
  · obtain ⟨c, hs, hrest, rfl⟩ := hs
    have hread := Cursor.takeQuoted_scalar (by omega) hwidth hplain hrest
      fun h => absurd (Option.some.inj h) (by decide)
    obtain ⟨quote, body, hquote, hscalar⟩ := quote_of_not_isPlain hplain true indent column
    have hcons : c.rest = quote :: (body ++ (newLine j ++ tail)) := by rw [hrest, hscalar]; rfl
    have htake := @takeToken_quoted c _ floor floors allowed emitted quote hcons hquote _ _ hread
    have hpeek : c.peek ≠ textEnd := by
      rw [Cursor.peek_of_cons hcons]
      obtain rfl | rfl := hquote <;> decide
    have hlength : 0 < (scalar true indent column t).length := by
      rw [hscalar]
      exact Nat.succ_pos _
    have htoken : Token.scalar false (String.ofList (Text.canonical t).toList) = scalarToken t := by
      rw [String.ofList_toList, scalarToken, Bool.eq_false_iff.mpr hplain]
    refine ⟨_, hs.take (Nat.le_succ_of_le hplace) hpeek htake
      (length_skip_lt hlength (by rw [hcons]; exact List.cons_ne_nil _ _)), ?_⟩
    rw [htoken]
    exact stands_newLine (Cursor.rest_skip_of_append hrest) htail.starts (lapses_keyAt hplace)

/-- An empty collection as the value of an entry or as an item. -/
theorem reaches_brackets {left right : Char} {t t' : Token} {place j : Nat}
    (h : Brackets left right t t')
    (hs : Stands s floor floors allowed emitted (left :: right :: (newLine j ++ tail)) place)
    (hplace : floor ≤ place) (htail : Starts tail) :
    Reaches s floor floors (t' :: t :: emitted) tail j := by
  obtain ⟨c, hs, hrest, rfl⟩ := hs
  refine ⟨_, leads_brackets h hrest (Nat.le_succ_of_le hplace) hs, ?_⟩
  exact stands_newLine (@Cursor.rest_skip_of_append c [left, right] _ hrest) htail
    (lapses_keyAt hplace)

/-! ## Keys and their colons -/

theorem takeToken_key {k : String} {indent column : Nat} (hline : '\n' ∉ k.toList)
    (hindent : 0 < indent) (hwidth : indent < lineWidth) (hfloor : floor ≤ c.column + 1)
    (hle : floor ≤ indent) (hblank : isBlankOrEnd (tail.headD textEnd) = true)
    (hrest : c.rest = scalar false indent column k ++ ':' :: tail) :
    (block c floor floors allowed emitted).takeToken =
      .ok (holding (c.skip (scalar false indent column k).length) floor floors
        (keyAt c floor allowed emitted) false (scalarToken k :: emitted)) := by
  have hborder := borderless_key hline indent column tail
  by_cases hplain : isPlain k = true
  · rw [scalar_of_isPlain hplain] at hrest hborder ⊢
    have htext := plainText_of_isPlain hplain
    have hread := Cursor.takePlain_colon htext hindent hle hfloor hrest hblank
    rw [@takeToken_plain c (':' :: tail) floor floors allowed emitted false indent column _ htext
      (plainStart_of_isPlain hplain) hrest (fun _ => hborder c hrest) _ _ hread, String.ofList_toList,
      scalarToken, hplain, canonical_of_isPlain hplain]
  · have hread := Cursor.takeQuoted_scalar hindent hwidth hplain hrest
      fun h => absurd (Option.some.inj h) (by decide)
    obtain ⟨quote, body, hquote, hscalar⟩ := quote_of_not_isPlain hplain false indent column
    have hcons : c.rest = quote :: (body ++ ':' :: tail) := by rw [hrest, hscalar]; rfl
    rw [takeToken_quoted hcons hquote hread, String.ofList_toList, scalarToken,
      Bool.eq_false_iff.mpr hplain]

/-- A key in front of its colon. -/
theorem leads_keyText {k : String} {i : Nat} (hkey : Tree.isSimpleKey k = true)
    (hs : Stands s floor floors true emitted
      (scalar false (i + Tree.indentStep) i k ++ ':' :: tail) i)
    (hfloor : floor ≤ i + 1) (hblank : isBlankOrEnd (tail.headD textEnd) = true)
    (hwidth : i + Tree.indentStep < lineWidth) :
    ∃ c, c.column = i ∧ Leads s (holding
      ⟨':' :: tail, c.index + (scalar false 0 0 k).length, c.line, i + (scalar false 0 0 k).length⟩
        floor floors (keyAt c floor true emitted) false (scalarToken k :: emitted)) := by
  obtain ⟨c, hs, hrest, rfl⟩ := hs
  have hstep : Tree.indentStep = 2 := rfl
  have hline := notMem_of_isSimpleKey hkey
  have htake := @takeToken_key c tail floor floors true emitted k (c.column + Tree.indentStep) c.column
    hline (by omega) hwidth hfloor (by omega) hblank hrest
  have hskip := Cursor.skip_printed hrest (isPrinted_key hline _ _)
  have hpos : 0 < (scalar false (c.column + Tree.indentStep) c.column k).length :=
    List.length_pos_iff.mpr (scalar_ne_nil _ _ _ _)
  have hpeek : c.peek ≠ textEnd :=
    peek_ne_textEnd (starts_scalar _ _ _ _ _)
      (List.append_ne_nil_of_right_ne_nil _ (List.cons_ne_nil _ _)) hrest
  have hnil : c.rest ≠ [] := fun h => hpeek (Cursor.peek_of_nil h)
  have hscalar := hs.take hfloor hpeek htake (length_skip_lt hpos hnil)
  rw [hskip, scalar_unsplit hline] at hscalar
  exact ⟨c, rfl, hscalar⟩

/-- A key that fits, and its colon. -/
theorem leads_key {k : String} {i : Nat} (hkey : Tree.isSimpleKey k = true) (hfits : keyFits k = true)
    (hs : Stands s floor floors true emitted
      (scalar false (i + Tree.indentStep) i k ++ ':' :: tail) i)
    (hopen : Opening .blockMappingStart i floor floors floors' start)
    (hblank : isBlankOrEnd (tail.headD textEnd) = true) (hwidth : i + Tree.indentStep < lineWidth) :
    ∃ c, Leads s (block c (i + 1) floors' false
      (.value :: scalarToken k :: .key :: (start ++ emitted))) ∧ c.rest = tail ∧ i < c.column := by
  obtain ⟨c, rfl, hleads⟩ := leads_keyText hkey hs hopen.floor_le hblank hwidth
  have hlimit : (scalar false 0 0 k).length ≤ keyLimit := by
    rw [keyFits, hkey, Bool.not_true, Bool.false_or, decide_eq_true_eq] at hfits
    exact hfits
  generalize (scalar false 0 0 k).length = n at hleads hlimit
  -- the colon comes in time
  have hfresh : freshen ⟨':' :: tail, c.index + n, c.line, c.column + n⟩ (keyAt c floor true emitted) =
      .ok (keyAt c floor true emitted) := by
    refine if_neg ?_
    simp only [isStale, bne_self_eq_false, Bool.false_or, decide_eq_true_eq, Nat.not_lt]
    omega
  have hat := @at_spaces ⟨':' :: tail, c.index + n, c.line, c.column + n⟩ (':' :: tail) floor floors
    (keyAt c floor true emitted) _ false (scalarToken k :: emitted) 0 rfl (starts_cons (by decide) _)
    hfresh
  have hvalue := @takeToken_keyColon ⟨':' :: tail, c.index + n, c.line, c.column + n⟩ tail floor floors
    floors' false emitted start ⟨emitted.length, c.index, c.line, c.column, floor == c.column + 1⟩
    (scalarToken k) rfl hblank rfl hopen
  have hcolon : Cursor.peek ⟨':' :: tail, c.index + n, c.line, c.column + n⟩ ≠ textEnd := by
    rw [Cursor.peek_of_cons rfl]
    decide
  refine ⟨_, hleads.trans (hat.take ?_ hcolon hvalue (Nat.lt_succ_self _)), rfl, ?_⟩
  · exact Nat.le_trans hopen.floor_le (Nat.succ_le_succ (Nat.le_add_right _ _))
  · exact Nat.lt_succ_of_le (Nat.le_add_right _ _)

/-- At the colon behind a key that does not fit, the scan breaks off. -/
theorem fails_key {k : String} {i : Nat} (hkey : Tree.isSimpleKey k = true)
    (hfits : keyFits k = false)
    (hs : Stands s floor floors true emitted
      (scalar false (i + Tree.indentStep) i k ++ ':' :: tail) i)
    (hfloor : floor ≤ i + 1) (hblank : isBlankOrEnd (tail.headD textEnd) = true)
    (hwidth : i + Tree.indentStep < lineWidth) : Fails s := by
  obtain ⟨c, rfl, hleads⟩ := leads_keyText hkey hs hfloor hblank hwidth
  have hlimit : keyLimit < (scalar false 0 0 k).length := by
    rw [keyFits, hkey, Bool.not_true, Bool.false_or, decide_eq_false_iff_not] at hfits
    exact Nat.lt_of_not_le hfits
  generalize (scalar false 0 0 k).length = n at hleads hlimit
  have hstale : isStale ⟨':' :: tail, c.index + n, c.line, c.column + n⟩
      ⟨emitted.length, c.index, c.line, c.column, floor == c.column + 1⟩ = true := by
    simp only [isStale, bne_self_eq_false, Bool.false_or, decide_eq_true_eq]
    omega
  refine hleads.fails ?_
  by_cases hrequired : (floor == c.column + 1) = true
  · -- the block goes on with a key here
    have hfresh : freshen ⟨':' :: tail, c.index + n, c.line, c.column + n⟩ (keyAt c floor true emitted) =
        .error .malformed := by
      rw [keyAt, if_pos rfl, freshen, if_pos hstale, if_pos hrequired]
    exact fails_of_freshen (starts_cons (by decide) _) hfresh
  · -- the key is forgotten, and a colon without a key is left
    have hfresh : freshen ⟨':' :: tail, c.index + n, c.line, c.column + n⟩ (keyAt c floor true emitted) =
        .ok none := by
      rw [keyAt, if_pos rfl, freshen, if_pos hstale, if_neg hrequired]
    have hat := @at_spaces ⟨':' :: tail, c.index + n, c.line, c.column + n⟩ (':' :: tail) floor floors
      (keyAt c floor true emitted) _ false (scalarToken k :: emitted) 0 rfl (starts_cons (by decide) _)
      hfresh
    have hcolon : Cursor.peek ⟨':' :: tail, c.index + n, c.line, c.column + n⟩ ≠ textEnd := by
      rw [Cursor.peek_of_cons rfl]
      decide
    refine hat.fails_take ?_ hcolon (takeToken_bareColon rfl hblank)
    exact Nat.le_trans hfloor (Nat.succ_le_succ (Nat.le_add_right _ _))

end Scan
end Yaml
end Replatform
