import Replatform.Proofs.Yaml.Quoted

/-! # Plain scalars are read back

A text that is written plainly consists of words with spaces between them, one of which may have
become a line break.  It is read word by word, up to the colon behind a key or to a line that
starts further left.
-/
namespace Replatform
namespace Yaml

open Style

/-- Nothing in a text would end a plain scalar: no colon before a blank, no number sign behind
one, and no space at the end. -/
def Flowing : List Char → Prop
  | [] => True
  | c :: rest =>
    isPrinted c = true ∧ (c = ':' → isBlankOrEnd (rest.headD textEnd) = false) ∧
      (c = ' ' → rest.head? ≠ some '#' ∧ rest ≠ []) ∧ Flowing rest

/-- A text that can be read as a plain scalar. -/
structure PlainText (cs : List Char) : Prop where
  flowing : Flowing cs
  nonempty : cs ≠ []
  noSpace : cs.head? ≠ some ' '
  noComment : cs.head? ≠ some '#'

theorem Flowing.isPrinted {cs : List Char} (h : Flowing cs) : ∀ c ∈ cs, isPrinted c = true := by
  induction cs with
  | nil => exact fun c hc => absurd hc List.not_mem_nil
  | cons d rest ih =>
    intro c hc
    obtain rfl | hc := List.mem_cons.mp hc
    · exact h.1
    · exact ih h.2.2.2 c hc

theorem Flowing.append_right {cs ds : List Char} (h : Flowing (cs ++ ds)) : Flowing ds := by
  induction cs with
  | nil => exact h
  | cons c rest ih => exact ih h.2.2.2

theorem not_isBlank_of_isPrinted {c : Char} (h : isPrinted c = true) (hspace : c ≠ ' ') :
    isBlankOrEnd c = false := by
  have htab : c ≠ '\t' := ne_of_isPrinted h (by decide)
  have hend : c ≠ textEnd := ne_of_isPrinted h (by decide)
  simp [isBlankOrEnd, isSpaceOrEnd, isLineEnd, isBreak_of_isPrinted h, hspace, htab, hend]

/-! ## Words and spaces -/

/-- A text is a word, alone or with spaces and another word behind it. -/
theorem PlainText.cases {cs : List Char} (h : PlainText cs) :
    ∃ word, word ≠ [] ∧ (∀ c ∈ word, c ≠ ' ') ∧
      (cs = word ∨ ∃ k more, cs = word ++ (List.replicate (k + 1) ' ' ++ more) ∧ PlainText more) := by
  obtain ⟨word, rest, rfl, hword, hrest⟩ : ∃ word rest, cs = word ++ rest ∧ (∀ c ∈ word, c ≠ ' ') ∧
      (rest = [] ∨ rest.head? = some ' ') := by
    clear h
    induction cs with
    | nil => exact ⟨[], [], rfl, fun c hc => absurd hc List.not_mem_nil, .inl rfl⟩
    | cons c rest ih =>
      by_cases hc : c = ' '
      · exact ⟨[], c :: rest, rfl, fun c hc => absurd hc List.not_mem_nil, .inr (congrArg some hc)⟩
      · obtain ⟨word, more, rfl, hword, hmore⟩ := ih
        exact ⟨c :: word, more, rfl, List.forall_mem_cons.mpr ⟨hc, hword⟩, hmore⟩
  have hne : word ≠ [] := by
    rintro rfl
    obtain rfl | hspace := hrest
    · exact h.nonempty rfl
    · exact h.noSpace hspace
  refine ⟨word, hne, hword, ?_⟩
  obtain rfl | hspace := hrest
  · exact .inl (List.append_nil word)
  · obtain ⟨k, more, rfl, hmore⟩ := exists_replicate ' ' rest
    obtain ⟨k, rfl⟩ : ∃ m, k = m + 1 := by
      cases k with
      | zero => exact absurd hspace hmore
      | succ k => exact ⟨k, rfl⟩
    -- the last of the spaces stands before another word
    have hlast : Flowing (' ' :: more) := by
      have hflowing := h.flowing.append_right
      rw [List.replicate_succ', List.append_assoc] at hflowing
      exact hflowing.append_right
    obtain ⟨hcomment, hmoreNe⟩ := hlast.2.2.1 rfl
    exact .inr ⟨k, more, rfl, hlast.2.2.2, hmoreNe, hmore, hcomment⟩

/-- A word is written as it is. -/
theorem wrap_word {split : Bool} {indent column : Nat} {before : Option Char} {word more : List Char}
    (hprinted : ∀ c ∈ word, isPrinted c = true) (hword : ∀ c ∈ word, c ≠ ' ') :
    ∃ before', wrap false split indent before column (word ++ more) =
      word ++ wrap false split indent before' (column + word.length) more := by
  induction word generalizing before column with
  | nil => exact ⟨before, rfl⟩
  | cons c rest ih =>
    have hc : c ≠ ' ' := hword c List.mem_cons_self
    have hc' : c ≠ '\n' := ne_of_isPrinted (hprinted c List.mem_cons_self) (by decide)
    obtain ⟨before', heq⟩ := @ih (column + 1) (some c)
      (fun b hb => hprinted b (List.mem_cons_of_mem c hb))
      fun b hb => hword b (List.mem_cons_of_mem c hb)
    refine ⟨before', ?_⟩
    rw [List.cons_append, wrap, if_neg hc, if_neg hc', Bool.false_and, if_neg Bool.false_ne_true,
      heq, List.length_cons, Nat.add_right_comm, Nat.add_assoc]
    rfl

/-- Several spaces are written as they are. -/
theorem wrap_spaces {split : Bool} {indent column k : Nat} {more : List Char} :
    wrap false split indent (some ' ') column (List.replicate k ' ' ++ more) =
      List.replicate k ' ' ++ wrap false split indent (some ' ') (column + k) more := by
  induction k generalizing column with
  | zero => rfl
  | succ k ih =>
    rw [List.replicate_succ, List.cons_append, wrap, if_pos rfl]
    dsimp only
    rw [if_neg (by simp), ih, List.cons_append, Nat.add_right_comm, Nat.add_assoc]

/-- The spaces between two words are written as they are, or a single one as a line break. -/
theorem wrap_gap {split : Bool} {indent column k : Nat} {before : Option Char} {more : List Char} :
    (k = 0 ∧ wrap false split indent before column (List.replicate (k + 1) ' ' ++ more) =
        newLine indent ++ wrap false split indent (some ' ') indent more) ∨
      wrap false split indent before column (List.replicate (k + 1) ' ' ++ more) =
        List.replicate (k + 1) ' ' ++
          wrap false split indent (some ' ') (column + (k + 1)) more := by
  rw [List.replicate_succ, List.cons_append, wrap, if_pos rfl]
  dsimp only
  cases k with
  | zero =>
    split
    · exact .inl ⟨rfl, rfl⟩
    · exact .inr rfl
  | succ k =>
    refine .inr ?_
    rw [if_neg (by simp [List.replicate_succ]), wrap_spaces, List.cons_append, Nat.add_right_comm,
      Nat.add_assoc]

/-! ## Reading -/

/-- A word is read up to its end, if what comes next is no word. -/
theorem plainRun_word {word more tail : List Char} (hflowing : Flowing (word ++ more))
    (hword : ∀ c ∈ word, c ≠ ' ') (hmore : more = [] ∨ more.head? = some ' ')
    (htail : plainRun false tail = []) : plainRun false (word ++ tail) = word := by
  induction word with
  | nil => exact htail
  | cons c rest ih =>
    obtain ⟨hprinted, hcolon, -, hrest⟩ := hflowing
    have hblank := not_isBlank_of_isPrinted hprinted (hword c List.mem_cons_self)
    have hcolon' : ¬(c = ':' ∧ isBlankOrEnd ((rest ++ tail).headD textEnd) = true) := by
      rintro ⟨hc, hfollower⟩
      have htext := hcolon hc
      cases rest with
      | cons d rest =>
        have hd : isBlankOrEnd d = false := htext
        exact Bool.false_ne_true (hd.symm.trans hfollower)
      | nil =>
        -- a colon at the end of a word stands before a blank or at the end of the text
        obtain rfl | hspace := hmore
        · cases htext
        · cases more with
          | nil => cases hspace
          | cons d more =>
            obtain rfl := Option.some.inj hspace
            cases htext
    rw [List.cons_append, plainRun]
    rw [if_neg (by simpa [hblank] using hcolon'), ih hrest (List.forall_mem_cons.mp hword).2]

theorem plainRun_of_blank {ch : Char} {tail : List Char} (h : isBlankOrEnd ch = true) :
    plainRun false (ch :: tail) = [] := by
  rw [plainRun]
  rw [if_pos (by simp [h])]

theorem plainRun_of_colon {tail : List Char} (h : isBlankOrEnd (tail.headD textEnd) = true) :
    plainRun false (':' :: tail) = [] := by
  rw [plainRun]
  rw [if_pos (by simpa using Or.inr h)]

/-- No character is lost in writing. -/
theorem length_le_wrap (quoted split : Bool) (indent : Nat) (before : Option Char) (column : Nat)
    (cs : List Char) : cs.length ≤ (wrap quoted split indent before column cs).length := by
  induction cs generalizing before column with
  | nil => exact Nat.zero_le _
  | cons c rest ih =>
    have hnext := fun before column => ih before column
    rw [wrap]
    dsimp only
    split
    · split
      · have h := hnext (some c) indent
        simp only [List.length_cons, List.length_append, newLine]
        omega
      · exact Nat.succ_le_succ (hnext _ _)
    · split
      · have h := hnext (some c) indent
        have hline : 0 < (if rest.head? = some '\n' then ['\n'] else newLine indent).length := by
          split <;> exact Nat.succ_pos _
        simp only [List.length_cons, List.length_append]
        omega
      · split
        · have h := hnext (some c) (column + 2)
          simp only [List.length_cons]
          omega
        · exact Nat.succ_le_succ (hnext _ _)

namespace Cursor

variable {c : Cursor} {tail : List Char}

theorem span_spaces {k : Nat} (h : c.rest = List.replicate k ' ' ++ tail) (htail : Dense tail) :
    c.span (· = ' ') = List.replicate k ' ' :=
  span_of_append h (fun d hd => by rw [List.eq_of_mem_replicate hd]; rfl) fun d hd => by
    rw [decide_eq_false_iff_not]
    rintro rfl
    cases (htail ' ' hd).1

theorem rest_skip_spaces {k : Nat} (h : c.rest = List.replicate k ' ' ++ tail) :
    (c.skip k).rest = tail := by
  have hskip := rest_skip_of_append h
  rwa [List.length_replicate] at hskip

/-- Spaces before a word, or nothing before what is no word. -/
theorem plainGap_spaces {k : Nat} (h : c.rest = List.replicate k ' ' ++ tail) (htail : Dense tail) :
    c.plainGap = (List.replicate k ' ', false, c.skip k) := by
  have hbreak : isBreak (c.skip k).peek = false :=
    isBreak_peek_of_dense ((rest_skip_spaces h).symm ▸ htail)
  simp only [plainGap, span_spaces h htail, List.length_replicate, hbreak, Bool.false_eq_true, if_false]

/-- The characters are no border between documents. -/
def Borderless (cs : List Char) : Prop := ∀ c : Cursor, c.rest = cs → c.atBorder = false

theorem plainGap_newLine {indent : Nat} (h : c.rest = newLine indent ++ tail) (htail : Dense tail)
    (hborder : indent = 0 → Borderless tail) : c.plainGap = ([' '], true, c.skip (indent + 1)) := by
  have hspan : c.span (· = ' ') = [] := by
    rw [span, h]
    rfl
  have hpeek : c.peek = '\n' := peek_of_cons h
  have hbreak : c.takeBreak = (['\n'], c.next) := by
    rw [takeBreak, hpeek]
    rfl
  have hnext : c.next.rest = List.replicate indent ' ' ++ tail := next_of_cons h
  have hnone : c.next.atBorder = false := by
    cases indent with
    | zero => exact hborder rfl _ hnext
    | succ indent => exact atBorder_of_cons hnext (by decide) (by decide)
  have hspaces : c.next.skipSpaces = c.next.skip indent := by
    rw [skipSpaces, skipWhile, span_spaces hnext htail, List.length_replicate]
  have hlast : isBreak (c.next.skip indent).peek = false :=
    isBreak_peek_of_dense ((rest_skip_spaces hnext).symm ▸ htail)
  have hmore : plainBreaks c.next.rest.length.succ c.next = (some [], c.skip (indent + 1)) := by
    rw [plainBreaks, hnone, hspaces]
    simp only [hlast, Bool.false_eq_true, if_false]
    rfl
  have hzero : c.skip 0 = c := rfl
  have hisBreak : isBreak '\n' = true := rfl
  simp only [plainGap, hspan, List.length_nil, hzero, hpeek, hisBreak, if_true, hbreak, hmore]
  rfl

/-- A plain scalar starts with the character with which its text does. -/
theorem head?_wrap {split : Bool} {indent column : Nat} {before : Option Char} {text : List Char}
    (h : PlainText text) (tail : List Char) :
    (wrap false split indent before column text ++ tail).head? = text.head? := by
  cases text with
  | nil => exact absurd rfl h.nonempty
  | cons ch rest =>
    have hspace : ch ≠ ' ' := fun he => h.noSpace (congrArg some he)
    have hline : ch ≠ '\n' := ne_of_isPrinted h.flowing.1 (by decide)
    rw [wrap, if_neg hspace, if_neg hline, Bool.false_and, if_neg Bool.false_ne_true]
    rfl

theorem dense_plain {split : Bool} {indent column : Nat} {before : Option Char} {text : List Char}
    (h : PlainText text) : Dense (wrap false split indent before column text ++ tail) := by
  intro d hd
  rw [head?_wrap h] at hd
  have hspace : d ≠ ' ' := fun he => h.noSpace (he ▸ hd)
  exact dense_printed (h.flowing.isPrinted d (List.mem_of_head? hd)) hspace [] d rfl

theorem peek_plain {split : Bool} {indent column : Nat} {before : Option Char} {text : List Char}
    (h : PlainText text) (hc : c.rest = wrap false split indent before column text ++ tail) :
    text.head? = some c.peek := by
  rw [← head?_wrap h tail, ← hc, peek]
  cases hrest : c.rest with
  | nil =>
    have hnone : text.head? = none := by
      rw [← head?_wrap h tail, ← hc, hrest]
      rfl
    exact absurd (List.head?_eq_none_iff.mp hnone) h.nonempty
  | cons d rest => rfl

/-- The gap between two words as it is written. -/
theorem plainGap_wrap {split : Bool} {indent column k : Nat} {before : Option Char}
    {more : List Char} (h : PlainText more) (hindent : 0 < indent)
    (hc : c.rest = wrap false split indent before column (List.replicate (k + 1) ' ' ++ more) ++ tail) :
    ∃ n broken column', c.plainGap = (List.replicate (k + 1) ' ', broken, c.skip n) ∧
      (c.skip n).rest = wrap false split indent (some ' ') column' more ++ tail ∧
      (wrap false split indent before column (List.replicate (k + 1) ' ' ++ more)).length =
        n + (wrap false split indent (some ' ') column' more).length ∧
      (c.column ≤ (c.skip n).column ∨ (c.skip n).column = indent) := by
  obtain ⟨rfl, hwrap⟩ | hwrap := @wrap_gap split indent column k before more
  · rw [hwrap, List.append_assoc] at hc
    have hlength : (newLine indent).length = indent + 1 := by simp [newLine]
    refine ⟨indent + 1, true, indent, plainGap_newLine hc (dense_plain h) (fun he => by omega),
      ?_, ?_, .inr ?_⟩
    · rw [← hlength]
      exact rest_skip_of_append hc
    · rw [hwrap, List.length_append, hlength]
    · rw [skip_newLine hc]
  · rw [hwrap, List.append_assoc] at hc
    refine ⟨k + 1, false, column + (k + 1), plainGap_spaces hc (dense_plain h), rest_skip_spaces hc,
      ?_, .inl ?_⟩
    · rw [hwrap, List.length_append, List.length_replicate]
    · have hskip := skip_printed hc isPrinted_of_mem_replicate
      rw [List.length_replicate] at hskip
      rw [hskip]
      exact Nat.le_add_right _ _

/-- No word starts at a gap between two words. -/
theorem plainRun_gap {split : Bool} {indent column k : Nat} {before : Option Char}
    {more : List Char} :
    plainRun false (wrap false split indent before column (List.replicate (k + 1) ' ' ++ more) ++
      tail) = [] := by
  obtain ⟨-, hgap⟩ | hgap := @wrap_gap split indent column k before more
  · rw [hgap]
    exact plainRun_of_blank rfl
  · rw [hgap]
    exact plainRun_of_blank rfl

section Words

variable {floor fuel : Nat} {gap gap' word : List Char} {broken broken' : Bool} {next : Cursor}

/-- The last word is followed by a gap that ends the scalar. -/
theorem plainFrom_last (hne : word ≠ []) (hcomment : c.peek ≠ '#')
    (hrun : plainRun false c.rest = word)
    (hgap : (c.skip word.length).plainGap = (gap', broken', next))
    (hover : (gap'.isEmpty || next.peek = '#' || next.column < floor) = true) :
    plainFrom false floor (fuel + 1) gap broken c = (gap ++ word, broken', next) := by
  have hnonempty : word.isEmpty = false := List.isEmpty_eq_false_iff.mpr hne
  simp only [plainFrom, hrun, hcomment, hnonempty, hgap]
  simp [hover]

/-- A word is followed by a gap and the rest of the scalar. -/
theorem plainFrom_word {more : List Char} {broken'' : Bool} {stop : Cursor} (hne : word ≠ [])
    (hcomment : c.peek ≠ '#') (hrun : plainRun false c.rest = word)
    (hgap : (c.skip word.length).plainGap = (gap', broken', next)) (hgapNe : gap' ≠ [])
    (hnext : next.peek ≠ '#') (hplace : floor ≤ next.column)
    (hread : plainFrom false floor fuel gap' broken' next = (gap' ++ more, broken'', stop)) :
    plainFrom false floor (fuel + 1) gap broken c = (gap ++ (word ++ (gap' ++ more)), broken'', stop) := by
  have hnonempty : word.isEmpty = false := List.isEmpty_eq_false_iff.mpr hne
  have hgoesOn : ¬((gap'.isEmpty || next.peek = '#' || (!false && next.column < floor)) = true) := by
    simp [hgapNe, hnext, Nat.not_lt.mpr hplace]
  simp only [plainFrom, hrun, hcomment, hnonempty, hgap]
  rw [if_neg (by simp), if_neg hgoesOn, hread]
  simp

end Words

/-- **A plain scalar is read word by word**, up to where the gap behind the last one ends it. -/
theorem plainFrom_wrap {split : Bool} {indent floor : Nat} (hindent : 0 < indent)
    (hfloor : floor ≤ indent) (htail : plainRun false tail = []) {text : List Char}
    (htext : PlainText text) :
    ∀ {fuel column : Nat} {gap gap' : List Char} {broken broken' : Bool} {before : Option Char}
      {c stop : Cursor}, text.length < fuel →
      c.rest = wrap false split indent before column text ++ tail → floor ≤ c.column + 1 →
      (c.skip (wrap false split indent before column text).length).plainGap =
        (gap', broken', stop) →
      (gap'.isEmpty || stop.peek = '#' || stop.column < floor) = true →
      plainFrom false floor fuel gap broken c = (gap ++ text, broken', stop) := by
  -- by induction on the length: what is left behind a word and its gap is shorter
  induction hlength : text.length using Nat.strongRecOn generalizing text with
  | _ length ih =>
    intro fuel column gap gap' broken broken' before c stop hfuel hc hcolumn hgap hover
    obtain ⟨fuel, rfl⟩ : ∃ f, fuel = f + 1 := ⟨fuel - 1, by omega⟩
    have hcomment : c.peek ≠ '#' := fun he => htext.noComment (he ▸ peek_plain htext hc)
    have hprinted := htext.flowing.isPrinted
    obtain ⟨word, hne, hword, rfl | ⟨k, more, rfl, hmore⟩⟩ := htext.cases
    · have hflowing : Flowing (text ++ []) := (List.append_nil text).symm ▸ htext.flowing
      obtain ⟨before', hwrap⟩ := @wrap_word split indent column before text [] hprinted hword
      rw [List.append_nil, wrap, List.append_nil] at hwrap
      rw [hwrap] at hc hgap
      have hrun : plainRun false c.rest = text := by
        rw [hc]
        exact plainRun_word hflowing hword (.inl rfl) htail
      exact plainFrom_last hne hcomment hrun hgap hover
    · have hinWord : ∀ d ∈ word, isPrinted d = true := fun d hd =>
        hprinted d (List.mem_append_left _ hd)
      obtain ⟨before', hwrap⟩ := @wrap_word split indent column before word
        (List.replicate (k + 1) ' ' ++ more) hinWord hword
      rw [hwrap, List.append_assoc] at hc
      obtain ⟨n, broken'', column', hinner, hrest, hlen, hcolumn'⟩ :=
        plainGap_wrap hmore hindent (rest_skip_of_append hc)
      have hrun : plainRun false c.rest = word := by
        rw [hc]
        exact plainRun_word htext.flowing hword (.inr rfl) plainRun_gap
      -- the next word stands behind this one or at the indentation
      have hplace : floor ≤ ((c.skip word.length).skip n).column := by
        have hpos : 0 < word.length := List.length_pos_iff.mpr hne
        obtain hle | heq := hcolumn'
        · rw [skip_printed hc hinWord] at hle ⊢
          dsimp only at hle
          omega
        · omega
      have hend : (((c.skip word.length).skip n).skip
          (wrap false split indent (some ' ') column' more).length).plainGap =
            (gap', broken', stop) := by
        rw [skip_skip, skip_skip, ← hgap, hwrap, List.length_append, hlen]
      have hshort : more.length < length := by
        rw [← hlength, List.length_append, List.length_append, List.length_replicate]
        omega
      exact plainFrom_word hne hcomment hrun hinner (by simp)
        (fun he => hmore.noComment (he ▸ peek_plain hmore hrest)) hplace
        (ih more.length hshort hmore rfl (by omega) hrest (by omega) hend hover)

/-! ## Scalars -/

/-- The gap behind the last word ends the scalar. -/
theorem takePlain_of_gap {split : Bool} {indent floor column : Nat} {text : List Char}
    (htext : PlainText text) (hindent : 0 < indent) (hfloor : floor ≤ indent)
    (hcolumn : floor ≤ c.column + 1) (hc : c.rest = wrap false split indent none column text ++ tail)
    (htail : plainRun false tail = []) {gap : List Char} {broken : Bool} {stop : Cursor}
    (hgap : (c.skip (wrap false split indent none column text).length).plainGap = (gap, broken, stop))
    (hover : (gap.isEmpty || stop.peek = '#' || stop.column < floor) = true) :
    c.takePlain false floor = (text, broken, stop) := by
  have hguard : Text.guard ∉ text := fun hmem =>
    absurd (htext.flowing.isPrinted _ hmem) (by decide)
  have hread := @plainFrom_wrap tail split indent floor hindent hfloor htail text htext
    c.rest.length.succ column [] gap false broken none c stop (by
      have hle := length_le_wrap false split indent none column text
      rw [hc, List.length_append]
      omega) hc hcolumn hgap hover
  rw [takePlain, hread, List.nil_append]
  dsimp only
  rw [Text.ofChars_of_notMem hguard]

/-- A plain scalar before a line that starts further left. -/
theorem takePlain_newLine {split : Bool} {indent floor column next : Nat} {text : List Char}
    (htext : PlainText text) (hindent : 0 < indent) (hfloor : floor ≤ indent)
    (hcolumn : floor ≤ c.column + 1)
    (hc : c.rest = wrap false split indent none column text ++ (newLine next ++ tail))
    (htail : Dense tail) (hborder : next = 0 → Borderless tail) (hnext : next < floor) :
    c.takePlain false floor = (text, true,
      c.skip ((wrap false split indent none column text).length + (next + 1))) := by
  have hbehind := rest_skip_of_append hc
  have hgap := plainGap_newLine hbehind htail hborder
  have hstop : ((c.skip (wrap false split indent none column text).length).skip (next + 1)).column =
      next := by
    rw [skip_newLine hbehind]
  rw [← skip_skip]
  exact takePlain_of_gap htext hindent hfloor hcolumn hc (plainRun_of_blank rfl) hgap
    (by simp [hstop, hnext])

/-- A plain scalar before a colon. -/
theorem takePlain_colon {split : Bool} {indent floor column : Nat} {text : List Char}
    (htext : PlainText text) (hindent : 0 < indent) (hfloor : floor ≤ indent)
    (hcolumn : floor ≤ c.column + 1)
    (hc : c.rest = wrap false split indent none column text ++ ':' :: tail)
    (htail : isBlankOrEnd (tail.headD textEnd) = true) :
    c.takePlain false floor = (text, false, c.skip (wrap false split indent none column text).length) := by
  have hbehind := rest_skip_of_append hc
  have hgap := @plainGap_spaces _ (':' :: tail) 0 hbehind (dense_cons ⟨rfl, rfl⟩ _)
  exact takePlain_of_gap htext hindent hfloor hcolumn hc (plainRun_of_colon htail) hgap rfl

end Cursor

/-! ## What is written plainly -/

theorem flowing_of_no_mark {cs : List Char} (hprinted : ∀ c ∈ cs, isPrinted c = true)
    (hcolon : ∀ rest, cs = ':' :: rest → isBlankOrEnd (rest.headD textEnd) = false)
    (hmark : hasInnerMark cs = false) (hlast : cs.getLast? ≠ some ' ') : Flowing cs := by
  induction cs with
  | nil => trivial
  | cons c rest ih =>
    cases rest with
    | nil => exact ⟨hprinted c List.mem_cons_self, fun hc => hcolon [] (by rw [hc]),
        fun hc => absurd (congrArg some hc) hlast, trivial⟩
    | cons d more =>
      rw [hasInnerMark, Bool.or_eq_false_iff, Bool.or_eq_false_iff] at hmark
      obtain ⟨⟨hinner, hcomment⟩, hrest⟩ := hmark
      rw [List.getLast?_cons_cons] at hlast
      refine ⟨hprinted c List.mem_cons_self, fun hc => hcolon _ (by rw [hc]), fun hc => ?_, ?_⟩
      · subst hc
        refine ⟨fun hd => ?_, List.cons_ne_nil _ _⟩
        rw [Option.some.inj hd] at hcomment
        cases hcomment
      · refine ih (fun e he => hprinted e (List.mem_cons_of_mem c he)) ?_ hrest hlast
        intro more' hmore
        obtain ⟨rfl, rfl⟩ := List.cons.inj hmore
        simpa using hinner

/-- A text that is written plainly can be read as a plain scalar. -/
theorem plainText_of_isPlain {s : String} (h : isPlain s = true) : PlainText s.toList := by
  simp only [isPlain, Bool.and_eq_true, Bool.not_eq_true', bne_iff_ne] at h
  obtain ⟨⟨⟨⟨⟨hsimple, hline⟩, hstart⟩, hlast⟩, hmark⟩, -⟩ := h
  have hprinted : ∀ c ∈ s.toList, isPrinted c = true := fun c hc =>
    isPrinted_of_isSimple (simple_of_all hsimple c hc) fun he => by
      rw [he] at hc
      simp [hc] at hline
  cases hs : s.toList with
  | nil =>
    rw [hs] at hstart
    cases hstart
  | cons c rest =>
    rw [hs] at hstart hlast hmark hprinted
    simp only [startsOtherwise, Bool.or_eq_false_iff] at hstart
    obtain ⟨⟨⟨⟨hmarks, hspace⟩, hfollower⟩, -⟩, -⟩ := hstart
    refine ⟨flowing_of_no_mark hprinted ?_ hmark hlast, List.cons_ne_nil _ _, ?_, ?_⟩
    · intro rest' hrest
      obtain ⟨rfl, rfl⟩ := List.cons.inj hrest
      simpa using hfollower
    · intro he
      rw [Option.some.inj he] at hspace
      cases hspace
    · intro he
      rw [Option.some.inj he] at hmarks
      cases hmarks

end Yaml
end Replatform
