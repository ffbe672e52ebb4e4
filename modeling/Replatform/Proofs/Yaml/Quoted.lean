import Replatform.Proofs.Text.Surrogate
import Replatform.Proofs.Yaml.Cursor
import Replatform.Yaml.Scalar

/-! # Quoted scalars are read back

What is written between quotes for a text is read as the text.  The proofs follow the text from
left to right: for each kind of character there is a rule from the reading of what stands behind
it to the reading from there (`ReadsQuoted`).  A line that was broken does not count, whatever
the next character is.
-/
namespace Replatform
namespace Yaml

open Style

/-! ## Codes -/

theorem hexValue?_toUpper_hexDigit : ∀ d < 16, Text.hexValue? (Text.hexDigit d).toUpper = some d := by
  decide

theorem hexNumber?_append (value : Nat) (cs ds : List Char) :
    hexNumber? value (cs ++ ds) = (hexNumber? value cs).bind fun v => hexNumber? v ds := by
  induction cs generalizing value with
  | nil => rfl
  | cons c rest ih =>
    rw [List.cons_append, hexNumber?, hexNumber?]
    cases Text.hexValue? c with
    | none => rfl
    | some d => exact ih _

/-- The digits of a number spell the number. -/
theorem hexNumber?_upperHex {width n : Nat} (h : n < 16 ^ width) (value : Nat) :
    hexNumber? value (Text.upperHex width n) = some (value * 16 ^ width + n) := by
  unfold Text.upperHex
  induction width generalizing n with
  | zero =>
    obtain rfl : n = 0 := by omega
    simp [Text.hex, hexNumber?]
  | succ width ih =>
    have hlow : n / 16 < 16 ^ width := by
      rw [Nat.pow_succ] at h
      omega
    have hdigit := hexValue?_toUpper_hexDigit (n % 16) (Nat.mod_lt n (by decide))
    rw [Text.hex, List.map_append, hexNumber?_append, ih hlow]
    simp only [Option.bind_some, List.map_cons, List.map_nil, hexNumber?, hdigit, Nat.pow_succ]
    congr 1
    rw [Nat.add_mul, Nat.mul_assoc]
    omega

theorem length_upperHex (width n : Nat) : (Text.upperHex width n).length = width := by
  rw [Text.upperHex, List.length_map, Text.length_hex]

theorem codes_lt (cs : List Char) : ∀ n ∈ Text.codes cs, n < 0x110000 := by
  have hchar : ∀ c : Char, c.toNat < 0x110000 := fun c => by
    have hvalid : c.toNat < 0xD800 ∨ 0xDFFF < c.toNat ∧ c.toNat < 0x110000 := c.valid
    omega
  induction cs using Text.codes.induct with
  | case1 => exact fun n hn => absurd hn List.not_mem_nil
  | case2 c =>
    intro n hn
    rw [List.mem_singleton.mp hn]
    exact hchar c
  | case3 d rest ih =>
    intro n hn
    rw [Text.codes_guard] at hn
    obtain rfl | hn := List.mem_cons.mp hn
    · split
      · exact hchar d
      · exact Nat.lt_of_le_of_lt (Nat.sub_le _ _) (hchar d)
    · exact ih n hn
  | case4 c d rest hc ih =>
    intro n hn
    rw [Text.codes_cons hc] at hn
    obtain rfl | hn := List.mem_cons.mp hn
    · exact hchar c
    · exact ih n hn

namespace Cursor

variable {c : Cursor} {cs tail text : List Char}

/-! ## Escapes -/

theorem takeEscape_letter {letter ch : Char} (h : c.rest = letter :: tail)
    (hletter : escapes.lookup letter = some ch) : c.takeEscape = .ok ([ch], c.skip 1) := by
  rw [takeEscape, peek_of_cons h, hletter]
  rfl

theorem takeEscape_hex {mark : Char} {width n : Nat} (h : c.rest = mark :: Text.upperHex width n ++ tail)
    (hmark : escapes.lookup mark = none) (hwidth : hexEscapes.lookup mark = some width)
    (hn : n < 16 ^ width) (hcode : n < 0x110000) :
    c.takeEscape = .ok (Text.ofCode n, c.skip (width + 1)) := by
  have hdigits : c.next.rest.take width = Text.upperHex width n := by
    rw [next_of_cons h]
    have htake := @List.take_left _ (Text.upperHex width n) tail
    rwa [length_upperHex] at htake
  have hnumber : hexNumber? 0 (Text.upperHex width n) = some n := by
    rw [hexNumber?_upperHex hn, Nat.zero_mul, Nat.zero_add]
  have htext : textOfCode n = .ok (Text.ofCode n) := if_neg (by omega)
  rw [takeEscape, peek_of_cons h, hmark, hwidth]
  simp only [hdigits, hnumber, length_upperHex, Nat.lt_irrefl, if_false, htext]
  rw [Nat.add_comm, ← skip_skip]
  rfl

/-- An escape is read as the character of the code that it was written for. -/
theorem takeEscape_escape? {n : Nat} (hn : n < 0x110000) (hcs : escape? n = some cs) :
    ∃ body, cs = '\\' :: body ∧ ∀ {c : Cursor} {tail : List Char}, c.rest = body ++ tail →
      c.takeEscape = .ok (Text.ofCode n, c.skip body.length) := by
  obtain ⟨letter, hmem, hsurrogate, rfl⟩ | ⟨e, he, hdigits, rfl⟩ := escape?_cases hcs
  · -- the letters are those of the reader, and none of their characters is the guard
    have htable : ∀ e ∈ escapeLetters, escapes.lookup e.2 = some e.1 ∧ e.1 ≠ Text.guard := by decide
    obtain ⟨hread, hguard⟩ := htable _ hmem
    refine ⟨[letter], rfl, fun {c tail} hrest => ?_⟩
    have hcode : Text.ofCode n = [Char.ofNat n] := by
      rw [Text.ofCode_of_not_isSurrogate hsurrogate, Text.ofChars, List.flatMap_singleton,
        if_neg hguard]
    rw [takeEscape_letter hrest hread, hcode]
    rfl
  · have htable : ∀ e ∈ hexEscapes, escapes.lookup e.1 = none ∧ hexEscapes.lookup e.1 = some e.2 := by
      decide
    obtain ⟨hmark, hwidth⟩ := htable e he
    refine ⟨_, rfl, fun {c tail} hrest => ?_⟩
    rw [takeEscape_hex hrest hmark hwidth (hdigits hn) hn, List.length_cons, length_upperHex]

/-! ## Line breaks -/

/-- What follows is neither a space nor the end of a line. -/
def Dense (cs : List Char) : Prop := ∀ d, cs.head? = some d → isGap d = false ∧ isBreak d = false

theorem dense_cons {d : Char} (h : isGap d = false ∧ isBreak d = false) (cs : List Char) :
    Dense (d :: cs) := by
  intro e he
  rw [← Option.some.inj he]
  exact h

theorem isBreak_peek_of_dense (h : Dense c.rest) : isBreak c.peek = false := by
  rw [peek]
  cases hrest : c.rest with
  | nil => rfl
  | cons d rest => exact (h d (by rw [hrest]; rfl)).2

/-- A line that starts with a space or a line feed is no border. -/
theorem atBorder_of_cons {d : Char} (h : c.rest = d :: tail) (hdash : d ≠ '-') (hdot : d ≠ '.') :
    c.atBorder = false := by
  simp [atBorder, isBorder, h, hdash, hdot]

/-- Behind the spaces in front of a character. -/
theorem skipWhile_isGap {n : Nat} (h : c.rest = List.replicate n ' ' ++ tail) (htail : Dense tail) :
    c.skipWhile isGap = c.skip n := by
  have hspan := span_of_append h (p := isGap)
    (fun d hd => by rw [List.eq_of_mem_replicate hd]; rfl) fun d hd => (htail d hd).1
  rw [skipWhile, hspan, List.length_replicate]

/-- The lines that hold nothing, and the indentation of the one that does. -/
theorem quotedBreaks_newLines {fuel k indent : Nat}
    (h : c.rest = List.replicate k '\n' ++ (List.replicate indent ' ' ++ tail)) (htail : Dense tail)
    (hindent : 0 < indent) (hfuel : k < fuel) :
    quotedBreaks fuel c = .ok (List.replicate k '\n', c.skip (k + indent)) := by
  induction k generalizing c fuel with
  | zero =>
    obtain ⟨fuel, rfl⟩ : ∃ f, fuel = f + 1 := ⟨fuel - 1, by omega⟩
    rw [List.replicate_zero, List.nil_append] at h
    have hborder : c.atBorder = false := by
      obtain ⟨more, rfl⟩ : ∃ n, indent = n + 1 := ⟨indent - 1, by omega⟩
      exact atBorder_of_cons h (by decide) (by decide)
    have hrest : (c.skip indent).rest = tail := by
      have hskip := rest_skip_of_append h
      rwa [List.length_replicate] at hskip
    have hbreak : isBreak (c.skip indent).peek = false := isBreak_peek_of_dense (hrest.symm ▸ htail)
    simp only [quotedBreaks, hborder, skipWhile_isGap h htail, hbreak, Bool.false_eq_true, if_false,
      Nat.zero_add, List.replicate_zero]
  | succ k ih =>
    obtain ⟨fuel, rfl⟩ : ∃ f, fuel = f + 1 := ⟨fuel - 1, by omega⟩
    rw [List.replicate_succ, List.cons_append] at h
    have hborder : c.atBorder = false := atBorder_of_cons h (by decide) (by decide)
    have hspan : c.skipWhile isGap = c := by
      rw [skipWhile, span, h]
      rfl
    have hbreak : isBreak c.peek = true ∧ c.takeBreak = (['\n'], c.next) := by
      rw [takeBreak, peek_of_cons h]
      exact ⟨rfl, rfl⟩
    have hmore := @ih c.next fuel (next_of_cons h) (by omega)
    simp only [quotedBreaks, hborder, hspan, hbreak, Bool.false_eq_true, if_false, if_true, hmore,
      bind, Except.bind]
    rw [← skip_succ, Nat.add_right_comm k indent 1, List.replicate_succ]
    rfl

/-- A broken line between double quotes stands for nothing. -/
theorem takeEscape_newLine {indent : Nat} (h : c.rest = newLine indent ++ tail) (htail : Dense tail)
    (hindent : 0 < indent) : c.takeEscape = .ok ([], c.skip (indent + 1)) := by
  have hpeek : c.peek = '\n' := peek_of_cons h
  have hbreak : c.takeBreak = (['\n'], c.next) := by
    rw [takeBreak, hpeek]
    rfl
  have hmore := @quotedBreaks_newLines c.next tail c.rest.length.succ 0 indent (next_of_cons h) htail
    hindent (Nat.succ_pos _)
  rw [takeEscape, hpeek]
  show quotedBreaks c.rest.length.succ c.takeBreak.2 = _
  rw [hbreak]
  dsimp only
  rw [hmore, ← skip_succ, Nat.zero_add]
  rfl

/-! ## Rules for reading on -/

/-- From the cursor the text is read up to the closing quote, with which the next `n` characters
end. -/
def ReadsQuoted (double : Bool) (c : Cursor) (text : List Char) (n : Nat) : Prop :=
  ∀ fuel, c.rest.length < fuel → quotedFrom double fuel c = .ok (text, c.skip n)

theorem ReadsQuoted.of_eq {double : Bool} {m n : Nat} (h : ReadsQuoted double c text n) (hn : m = n) :
    ReadsQuoted double c text m := hn ▸ h

/-- What stands in front of something that is read adds its text. -/
theorem ReadsQuoted.behind {double : Bool} {m n : Nat} (h : ReadsQuoted double (c.skip m) text n)
    (cs : List Char) (hm : 0 < m) (hc : c.rest ≠ []) (hstep : ∀ fuel, quotedFrom double (fuel + 1) c =
      (quotedFrom double fuel (c.skip m)).map fun (more, c') => (cs ++ more, c')) :
    ReadsQuoted double c (cs ++ text) (m + n) := by
  intro fuel hfuel
  obtain ⟨fuel, rfl⟩ : ∃ f, fuel = f + 1 := ⟨fuel - 1, by omega⟩
  have hlength : 0 < c.rest.length := List.length_pos_iff.mpr hc
  have hshort : (c.skip m).rest.length < fuel := by
    rw [rest_skip, List.length_drop]
    omega
  rw [hstep, h fuel hshort]
  exact congrArg (fun c' => Except.ok (cs ++ text, c')) (skip_skip m n c)

/-- The quote at which the text ends. -/
def mark (double : Bool) : Char := if double then '"' else '\''

theorem readsQuoted_mark {double : Bool} (h : c.rest = mark double :: tail)
    (htail : double = false → tail.head? ≠ some '\'') : ReadsQuoted double c [] 1 := by
  intro fuel hfuel
  obtain ⟨fuel, rfl⟩ : ∃ f, fuel = f + 1 := ⟨fuel - 1, by omega⟩
  have hpeek : c.peek = mark double := peek_of_cons h
  cases double with
  | true =>
    simp only [mark, if_true] at hpeek
    simp [quotedFrom, hpeek, textEnd, isGap, isBreak]
    rfl
  | false =>
    have hnext : c.next.peek ≠ '\'' := by
      rw [peek, next_of_cons h]
      cases tail with
      | nil => decide
      | cons d rest => exact fun hd => htail rfl (congrArg some hd)
    simp only [mark] at hpeek
    simp [quotedFrom, hpeek, textEnd, isGap, isBreak, hnext]
    rfl

/-- A character that stands for itself. -/
theorem ReadsQuoted.char {double : Bool} {ch : Char} {n : Nat} (h : c.rest = ch :: tail)
    (hch : isPrinted ch = true) (hgap : ch ≠ ' ') (hmark : ch ≠ mark double)
    (hescape : double = true → ch ≠ '\\') (hnext : ReadsQuoted double (c.skip 1) text n) :
    ReadsQuoted double c (ch :: text) (n + 1) := by
  have hpeek : c.peek = ch := peek_of_cons h
  have hend : ch ≠ textEnd := ne_of_isPrinted hch (by decide)
  have htab : ch ≠ '\t' := ne_of_isPrinted hch (by decide)
  have hgap' : isGap ch = false := by simp [isGap, hgap, htab]
  have hguard : Text.ofChars [ch] = [ch] := by
    rw [Text.ofChars, List.flatMap_singleton, if_neg (ne_of_isPrinted hch (by decide))]
  rw [Nat.add_comm]
  refine hnext.behind [ch] Nat.one_pos (by rw [h]; exact List.cons_ne_nil _ _) fun fuel => ?_
  cases double with
  | true =>
    have hne : ch ≠ '"' := hmark
    simp only [quotedFrom, hpeek, hend, hgap', isBreak_of_isPrinted hch, hne, hescape rfl, hguard]
    rfl
  | false =>
    have hne : ch ≠ '\'' := hmark
    simp only [quotedFrom, hpeek, hend, hgap', isBreak_of_isPrinted hch, hne, hguard]
    rfl

/-- Behind the spaces there is no line break. -/
def Unbroken (cs : List Char) : Prop := ∀ d, (cs.dropWhile isGap).head? = some d → isBreak d = false

theorem unbroken_of_dense (h : Dense cs) : Unbroken cs := by
  intro d hd
  cases cs with
  | nil => cases hd
  | cons e rest =>
    obtain ⟨hgap, hbreak⟩ := h e rfl
    rw [List.dropWhile_cons_of_neg (by rw [hgap]; exact Bool.false_ne_true)] at hd
    exact Option.some.inj hd ▸ hbreak

theorem unbroken_space (h : Unbroken cs) : Unbroken (' ' :: cs) := h

/-- All spaces at a place are read at once. -/
theorem quotedFrom_gap {double : Bool} {ch : Char} (h : c.rest = ch :: tail)
    (hch : isGap ch = true) (htail : Unbroken tail) (fuel : Nat) :
    quotedFrom double (fuel + 1) c =
      (quotedFrom double fuel (c.skip (c.span isGap).length)).map
        fun (more, c') => (c.span isGap ++ more, c') := by
  have hpeek : c.peek = ch := peek_of_cons h
  have hall : c.rest = c.span isGap ++ c.rest.dropWhile isGap :=
    (List.takeWhile_append_dropWhile ..).symm
  have hrest : (c.skip (c.span isGap).length).rest = tail.dropWhile isGap := by
    rw [rest_skip_of_append hall, h, List.dropWhile_cons_of_pos hch]
  have hbreak : isBreak (c.skip (c.span isGap).length).peek = false := by
    rw [peek, hrest]
    cases hd : tail.dropWhile isGap with
    | nil => rfl
    | cons d rest => exact htail d (by rw [hd]; rfl)
  have hend : ch ≠ textEnd := by
    rintro rfl
    cases hch
  simp only [quotedFrom, hpeek, hend, hch, if_false, hbreak, Bool.false_eq_true]
  rfl

theorem unbroken_of_gap {d : Char} (h : Unbroken (d :: cs)) (hd : isGap d = true) : Unbroken cs := by
  intro e he
  refine h e ?_
  rwa [List.dropWhile_cons_of_pos hd]

theorem rest_of_span {p : Char → Bool} {d : Char} {more : List Char} (h : c.span p = d :: more) :
    ∃ rest, c.rest = d :: rest ∧ p d = true := by
  rw [span] at h
  cases hrest : c.rest with
  | nil =>
    rw [hrest] at h
    cases h
  | cons e rest =>
    rw [hrest, List.takeWhile_cons] at h
    split at h
    · rename_i he
      obtain ⟨rfl, -⟩ := List.cons.inj h
      exact ⟨rest, rfl, he⟩
    · cases h

/-- What stands behind all the spaces at a place is what the reading from there goes on with. -/
theorem ReadsQuoted.behindGap {double : Bool} {fuel n : Nat} (h : ReadsQuoted double c text n)
    (hunbroken : Unbroken c.rest) (hfuel : c.rest.length < fuel) :
    ((quotedFrom double fuel (c.skip (c.span isGap).length)).map
      fun (more, c') => (c.span isGap ++ more, c')) = .ok (text, c.skip n) := by
  cases hspan : c.span isGap with
  | nil =>
    rw [List.length_nil, skip, h fuel hfuel]
    rfl
  | cons d more =>
    obtain ⟨rest, hrest, hgap⟩ := rest_of_span hspan
    have hread := h (fuel + 1) (by omega)
    rw [hrest] at hunbroken
    rwa [quotedFrom_gap hrest hgap (unbroken_of_gap hunbroken hgap), hspan] at hread

theorem ReadsQuoted.space {double : Bool} {n : Nat} (h : c.rest = ' ' :: tail)
    (htail : Unbroken tail) (hnext : ReadsQuoted double (c.skip 1) text n) :
    ReadsQuoted double c (' ' :: text) (n + 1) := by
  have hrest : (c.skip 1).rest = tail := next_of_cons h
  have hspan : c.span isGap = ' ' :: (c.skip 1).span isGap := by
    rw [span, span, hrest, h]
    rfl
  have hskip : c.skip (c.span isGap).length =
      (c.skip 1).skip ((c.skip 1).span isGap).length := by
    rw [hspan, List.length_cons, skip_skip, Nat.add_comm]
  intro fuel hfuel
  obtain ⟨fuel, rfl⟩ : ∃ f, fuel = f + 1 := ⟨fuel - 1, by omega⟩
  rw [h, List.length_cons] at hfuel
  have hread := hnext.behindGap (hrest.symm ▸ htail)
    (show (c.skip 1).rest.length < fuel by rw [hrest]; omega)
  rw [quotedFrom_gap h rfl htail, hskip, hspan, Nat.add_comm n 1, ← skip_skip]
  cases hmore : quotedFrom double fuel ((c.skip 1).skip ((c.skip 1).span isGap).length) with
  | error fault =>
    rw [hmore] at hread
    cases hread
  | ok r =>
    rw [hmore] at hread
    obtain ⟨htext, hcursor⟩ := Prod.mk.inj (Except.ok.inj hread)
    rw [← htext, ← hcursor]
    rfl

/-- An escape. -/
theorem ReadsQuoted.escape {body : List Char} {m n : Nat} (h : c.rest = '\\' :: body)
    (hbody : (c.skip 1).takeEscape = .ok (cs, (c.skip 1).skip m))
    (hnext : ReadsQuoted true (c.skip (m + 1)) text n) :
    ReadsQuoted true c (cs ++ text) (m + 1 + n) := by
  refine hnext.behind cs (Nat.succ_pos m) (by rw [h]; exact List.cons_ne_nil _ _) fun fuel => ?_
  have hpeek : c.peek = '\\' := peek_of_cons h
  rw [skip_skip, Nat.add_comm] at hbody
  simp only [quotedFrom, hpeek, next_eq_skip, hbody, bind, Except.bind]
  rfl

/-- A quote between single quotes is written twice. -/
theorem ReadsQuoted.quote {n : Nat} (h : c.rest = '\'' :: '\'' :: tail)
    (hnext : ReadsQuoted false (c.skip 2) text n) : ReadsQuoted false c ('\'' :: text) (n + 2) := by
  rw [Nat.add_comm]
  refine hnext.behind ['\''] Nat.two_pos (by rw [h]; exact List.cons_ne_nil _ _) fun fuel => ?_
  have hpeek : c.peek = '\'' ∧ c.next.peek = '\'' :=
    ⟨peek_of_cons h, peek_of_cons (next_of_cons h)⟩
  simp only [quotedFrom, hpeek.1, hpeek.2]
  rfl

/-- Line breaks in a row, of which the first does not count unless it is the only one. -/
theorem ReadsQuoted.newLines {k indent n : Nat}
    (h : c.rest = '\n' :: (List.replicate k '\n' ++ (List.replicate indent ' ' ++ tail)))
    (htail : Dense tail) (hindent : 0 < indent)
    (hnext : ReadsQuoted false (c.skip (1 + (k + indent))) text n) :
    ReadsQuoted false c ((if k = 0 then [' '] else List.replicate k '\n') ++ text)
      (1 + (k + indent) + n) := by
  refine hnext.behind _ (by omega) (by rw [h]; exact List.cons_ne_nil _ _) fun fuel => ?_
  have hpeek : c.peek = '\n' := peek_of_cons h
  have hspan : c.span isGap = [] := by rw [span, h]; rfl
  have hbreak : c.takeBreak = (['\n'], c.skip 1) := by rw [takeBreak, hpeek]; rfl
  have hrest : (c.skip 1).rest = _ := next_of_cons h
  have hmore := quotedBreaks_newLines hrest htail hindent (show k < (c.skip 1).rest.length.succ by
    rw [hrest, List.length_append, List.length_replicate]
    omega)
  have hfold : foldBreaks ['\n'] (List.replicate k '\n') =
      if k = 0 then [' '] else List.replicate k '\n' := by
    cases k <;> rfl
  rw [skip_skip] at hmore
  have hzero : c.skip 0 = c := rfl
  simp only [quotedFrom, hpeek, hspan, List.length_nil, hzero, hbreak, hmore, bind, Except.bind, hfold]
  rfl

/-! ## Between double quotes -/

/-- What is not escaped is printed, and neither of the characters that mean something between
double quotes. -/
theorem escape?_eq_none {n : Nat} (h : escape? n = none) :
    Text.ofCode n = [Char.ofNat n] ∧ isPrinted (Char.ofNat n) = true ∧
      Char.ofNat n ≠ '"' ∧ Char.ofNat n ≠ '\\' := by
  obtain ⟨hn, hletter⟩ := escape?_none h
  have htoNat : (Char.ofNat n).toNat = n := Text.toNat_ofNat_of_isValidChar (.inl (by omega))
  have hsurrogate : Text.isSurrogate n = false := by
    rw [← htoNat]
    exact Text.isSurrogate_toNat _
  have hprinted : isPrinted (Char.ofNat n) = true := by
    rw [isPrinted, htoNat]
    simp [hn.1, hn.2]
  have hguard : Char.ofNat n ≠ Text.guard := ne_of_isPrinted hprinted (by decide)
  refine ⟨?_, hprinted, ?_, ?_⟩
  · rw [Text.ofCode_of_not_isSurrogate hsurrogate, Text.ofChars, List.flatMap_singleton,
      if_neg hguard]
  · intro he
    rw [he] at hletter
    exact absurd hletter (by decide)
  · intro he
    rw [he] at hletter
    exact absurd hletter (by decide)

theorem escape?_eq_some {n : Nat} (h : escape? n = some cs) : ∃ body, cs = '\\' :: body := by
  obtain ⟨letter, -, -, rfl⟩ | ⟨e, -, -, rfl⟩ := escape?_cases h
  · exact ⟨_, rfl⟩
  · exact ⟨_, rfl⟩

theorem ofNat_eq_space {n : Nat} (h : escape? n = none) : Char.ofNat n = ' ' ↔ n = space := by
  constructor
  · intro he
    have hn := (escape?_none h).1
    have htoNat : (Char.ofNat n).toNat = n := Text.toNat_ofNat_of_isValidChar (.inl (by omega))
    rw [← htoNat, he]
    rfl
  · rintro rfl
    rfl

theorem dense_backslash (cs : List Char) : Dense ('\\' :: cs) := dense_cons ⟨rfl, rfl⟩ cs

theorem dense_printed {ch : Char} (h : isPrinted ch = true) (hspace : ch ≠ ' ') (cs : List Char) :
    Dense (ch :: cs) := by
  have htab : ch ≠ '\t' := ne_of_isPrinted h (by decide)
  exact dense_cons ⟨by simp [isGap, hspace, htab], isBreak_of_isPrinted h⟩ cs

/-- Between double quotes only a backslash is followed by a line break. -/
theorem unbroken_wrapEscaped (split : Bool) (indent : Nat) (first fresh : Bool) (column : Nat)
    (ns : List Nat) (tail : List Char) :
    Unbroken (wrapEscaped split indent first fresh column ns ++ '"' :: tail) := by
  induction ns generalizing first fresh column with
  | nil => exact unbroken_of_dense (dense_cons ⟨rfl, rfl⟩ _)
  | cons n rest ih =>
    rw [wrapEscaped]
    cases hescape : escape? n with
    | some cs =>
      obtain ⟨body, rfl⟩ := escape?_eq_some hescape
      dsimp only
      split <;> exact unbroken_of_dense (dense_backslash _)
    | none =>
      dsimp only
      split
      · exact unbroken_of_dense (dense_backslash _)
      · by_cases hspace : Char.ofNat n = ' '
        · rw [hspace]
          exact unbroken_space (ih _ _ _)
        · exact unbroken_of_dense (dense_printed (escape?_eq_none hescape).2.1 hspace _)

/-- A broken line stands for nothing. -/
theorem ReadsQuoted.brokenLine {indent n : Nat} (h : c.rest = '\\' :: (newLine indent ++ tail))
    (htail : Dense tail) (hindent : 0 < indent)
    (hnext : ReadsQuoted true (c.skip (indent + 2)) text n) :
    ReadsQuoted true c text (indent + 2 + n) :=
  hnext.escape h (takeEscape_newLine (next_of_cons h) htail hindent)

/-- A broken line and the character behind it, which is kept apart from the indentation if it is
a space. -/
theorem ReadsQuoted.brokenChar {indent code n : Nat} (hcode : escape? code = none)
    (h : c.rest = Style.brokenLine indent (some code) ++ Char.ofNat code :: tail)
    (hindent : 0 < indent)
    (hnext : ReadsQuoted true (c.skip ((Style.brokenLine indent (some code)).length + 1)) text n) :
    ReadsQuoted true c (Text.ofCode code ++ text)
      ((Style.brokenLine indent (some code)).length + 1 + n) := by
  obtain ⟨hofCode, hprinted, hquote, hbackslash⟩ := escape?_eq_none hcode
  rw [hofCode]
  by_cases hspace : code = Style.space
  · have hchar : Char.ofNat code = ' ' := (ofNat_eq_space hcode).mpr hspace
    have hlength : (Style.brokenLine indent (some code)).length = indent + 3 := by
      simp [Style.brokenLine, newLine, hspace]
    have hrest : c.rest = '\\' :: (newLine indent ++ '\\' :: ' ' :: tail) := by
      rw [h, hchar, Style.brokenLine, if_pos (congrArg some hspace)]
      simp
    have hbehind : (c.skip (indent + 2)).rest = '\\' :: ' ' :: tail := by
      have hskip := @rest_skip_of_append c ('\\' :: newLine indent) ('\\' :: ' ' :: tail) hrest
      simpa [newLine] using hskip
    have hescape := @takeEscape_letter ((c.skip (indent + 2)).skip 1) tail ' ' ' '
      (next_of_cons hbehind) (by decide)
    rw [hlength, show indent + 3 + 1 = indent + 2 + (1 + 1) by omega, ← skip_skip] at hnext
    have hspaced := ReadsQuoted.escape hbehind hescape hnext
    rw [hchar, hlength, show indent + 3 + 1 + n = indent + 2 + (1 + 1 + n) by omega]
    exact ReadsQuoted.brokenLine hrest (dense_backslash _) hindent hspaced
  · have hrest : c.rest = '\\' :: (newLine indent ++ Char.ofNat code :: tail) := by
      rw [h, Style.brokenLine, if_neg fun he => hspace (Option.some.inj he)]
      simp
    have hlength : (Style.brokenLine indent (some code)).length = indent + 2 := by
      simp [Style.brokenLine, newLine, hspace]
    have hchar : Char.ofNat code ≠ ' ' := fun he => hspace ((ofNat_eq_space hcode).mp he)
    have hbehind : (c.skip (indent + 2)).rest = Char.ofNat code :: tail := by
      have hskip := @rest_skip_of_append c ('\\' :: newLine indent) (Char.ofNat code :: tail) hrest
      simpa [newLine] using hskip
    rw [hlength, ← skip_skip] at hnext
    rw [hlength, Nat.add_assoc, Nat.add_comm 1 n]
    refine ReadsQuoted.brokenLine hrest (dense_printed hprinted hchar _) hindent ?_
    exact ReadsQuoted.char hbehind hprinted hchar hquote (fun _ => hbackslash) hnext

section

variable {split : Bool} {indent n : Nat} {ns : List Nat}

/-- What is written between double quotes for codes is read up to the closing one. -/
def ReadsEscaped (split : Bool) (indent : Nat) (ns : List Nat) : Prop :=
  ∀ ⦃c : Cursor⦄ ⦃first fresh : Bool⦄ ⦃column : Nat⦄ ⦃tail : List Char⦄,
    c.rest = wrapEscaped split indent first fresh column ns ++ '"' :: tail →
      ReadsQuoted true c (Text.ofCodes ns)
        ((wrapEscaped split indent first fresh column ns).length + 1)

/-- So it is behind a broken line, which is read together with the escape that may stand there. -/
def ReadsBroken (split : Bool) (indent : Nat) (ns : List Nat) : Prop :=
  ∀ ⦃c : Cursor⦄ ⦃tail : List Char⦄, ns ≠ [] →
    c.rest = Style.brokenLine indent ns.head? ++
      (wrapEscaped split indent false true (brokenColumn indent ns.head?) ns ++ '"' :: tail) →
    ReadsQuoted true c (Text.ofCodes ns) ((Style.brokenLine indent ns.head?).length +
      ((wrapEscaped split indent false true (brokenColumn indent ns.head?) ns).length + 1))

theorem ofCodes_cons (n : Nat) (ns : List Nat) :
    Text.ofCodes (n :: ns) = Text.ofCode n ++ Text.ofCodes ns := List.flatMap_cons ..

/-- An escape, behind which the line may be broken. -/
theorem readsEscaped_escape (hn : n < 0x110000) (hescape : escape? n = some cs)
    (hread : ReadsEscaped split indent ns) (hbroken : ReadsBroken split indent ns) :
    ReadsEscaped split indent (n :: ns) := by
  intro c first fresh column tail h
  obtain ⟨body, rfl, hbody⟩ := takeEscape_escape? hn hescape
  rw [wrapEscaped, hescape] at h ⊢
  rw [ofCodes_cons]
  dsimp only at h ⊢
  split at h
  · rename_i hbreak
    have hne : ns ≠ [] := by
      rintro rfl
      simp at hbreak
    rw [if_pos hbreak]
    simp only [List.cons_append, List.append_assoc] at h
    have hbehind := @rest_skip_of_append c ('\\' :: body) _ h
    have hnext := (hbroken hne hbehind).escape h (hbody (next_of_cons h))
    exact hnext.of_eq (by simp only [List.length_cons, List.length_append]; omega)
  · rename_i hwhole
    rw [if_neg hwhole]
    simp only [List.cons_append, List.append_assoc] at h
    have hbehind := @rest_skip_of_append c ('\\' :: body) _ h
    have hnext := (hread hbehind).escape h (hbody (next_of_cons h))
    exact hnext.of_eq (by simp only [List.length_cons, List.length_append]; omega)

/-- Behind a broken line and the character that follows it. -/
theorem readsQuoted_brokenChar (hindent : 0 < indent) (hescape : escape? n = none)
    (hread : ReadsEscaped split indent ns) {first fresh : Bool} {column : Nat}
    (h : c.rest = Style.brokenLine indent (some n) ++
      Char.ofNat n :: (wrapEscaped split indent first fresh column ns ++ '"' :: tail)) :
    ReadsQuoted true c (Text.ofCodes (n :: ns)) ((Style.brokenLine indent (some n)).length + 1 +
      ((wrapEscaped split indent first fresh column ns).length + 1)) := by
  have hline : c.rest = (Style.brokenLine indent (some n) ++ [Char.ofNat n]) ++
      (wrapEscaped split indent first fresh column ns ++ '"' :: tail) := by
    rw [h, List.append_assoc, List.singleton_append]
  have hbehind := rest_skip_of_append hline
  rw [List.length_append] at hbehind
  rw [ofCodes_cons]
  exact (hread hbehind).brokenChar hescape h hindent

/-- A character that stands for itself, in front of which the line may be broken. -/
theorem readsEscaped_char (hindent : 0 < indent) (hescape : escape? n = none)
    (hread : ReadsEscaped split indent ns) : ReadsEscaped split indent (n :: ns) := by
  intro c first fresh column tail h
  obtain ⟨hofCode, hprinted, hquote, hbackslash⟩ := escape?_eq_none hescape
  rw [wrapEscaped, hescape] at h ⊢
  dsimp only at h ⊢
  split at h
  · rename_i hbreak
    rw [if_pos hbreak]
    simp only [List.cons_append, List.append_assoc] at h
    have hnext := readsQuoted_brokenChar hindent hescape hread h
    exact hnext.of_eq (by simp only [List.length_cons, List.length_append]; omega)
  · rename_i hwhole
    rw [if_neg hwhole, ofCodes_cons, hofCode]
    have hbehind := next_of_cons h
    by_cases hspace : Char.ofNat n = ' '
    · rw [hspace] at h ⊢
      exact ReadsQuoted.space h (unbroken_wrapEscaped _ _ _ _ _ _ _) (hread hbehind)
    · exact ReadsQuoted.char h hprinted hspace hquote (fun _ => hbackslash) (hread hbehind)

/-- An escape behind a broken line. -/
theorem readsBroken_escape (hindent : 0 < indent) (hescape : escape? n = some cs)
    (hread : ReadsEscaped split indent (n :: ns)) : ReadsBroken split indent (n :: ns) := by
  intro c tail _ h
  rw [List.head?_cons] at h ⊢
  have hspace : n ≠ Style.space := by
    rintro rfl
    have hnone : escape? Style.space = none := by decide
    rw [hnone] at hescape
    cases hescape
  obtain ⟨body, rfl⟩ := escape?_eq_some hescape
  have hline : Style.brokenLine indent (some n) = '\\' :: newLine indent := by
    rw [Style.brokenLine, if_neg fun he => hspace (Option.some.inj he), List.append_nil]
  have hdense : Dense (wrapEscaped split indent false true (brokenColumn indent (some n))
      (n :: ns) ++ '"' :: tail) := by
    rw [wrapEscaped, hescape]
    dsimp only
    split <;> exact dense_backslash _
  rw [hline] at h ⊢
  have hbehind := @rest_skip_of_append c ('\\' :: newLine indent) _ h
  have hlength : ('\\' :: newLine indent).length = indent + 2 := by
    rw [newLine, List.length_cons, List.length_cons, List.length_replicate]
  rw [hlength] at hbehind ⊢
  exact ReadsQuoted.brokenLine h hdense hindent (hread hbehind)

/-- A character behind a broken line: the line is not broken again in front of it. -/
theorem readsBroken_char (hindent : 0 < indent) (hwidth : indent < lineWidth)
    (hescape : escape? n = none) (hread : ReadsEscaped split indent ns) :
    ReadsBroken split indent (n :: ns) := by
  intro c tail _ h
  rw [List.head?_cons] at h ⊢
  have hcolumn : ¬lineWidth < brokenColumn indent (some n) := by
    unfold brokenColumn
    split <;> omega
  have hwhole : wrapEscaped split indent false true (brokenColumn indent (some n)) (n :: ns) =
      Char.ofNat n ::
        wrapEscaped split indent false false (brokenColumn indent (some n) + 1) ns := by
    rw [wrapEscaped, hescape]
    dsimp only
    rw [if_neg (by simp [hcolumn])]
  rw [hwhole] at h ⊢
  have hnext := readsQuoted_brokenChar hindent hescape hread h
  rw [List.length_cons]
  exact hnext.of_eq (by omega)

theorem readsEscaped (hindent : 0 < indent) (hwidth : indent < lineWidth)
    (hns : ∀ n ∈ ns, n < 0x110000) : ReadsEscaped split indent ns ∧ ReadsBroken split indent ns := by
  induction ns with
  | nil =>
    refine ⟨fun c first fresh column tail h => ?_, fun c tail hne => absurd rfl hne⟩
    exact @readsQuoted_mark c tail true h fun h => by cases h
  | cons n rest ih =>
    obtain ⟨hread, hbroken⟩ := ih fun m hm => hns m (List.mem_cons_of_mem n hm)
    cases hescape : escape? n with
    | some cs =>
      have hcons := readsEscaped_escape (hns n List.mem_cons_self) hescape hread hbroken
      exact ⟨hcons, readsBroken_escape hindent hescape hcons⟩
    | none =>
      exact ⟨readsEscaped_char hindent hescape hread,
        readsBroken_char hindent hwidth hescape hread⟩

end

/-! ## Between single quotes -/

theorem hasSpaceAtBreak_tail {ch : Char} (h : hasSpaceAtBreak (ch :: cs) = false) :
    hasSpaceAtBreak cs = false := by
  cases cs with
  | nil => rfl
  | cons d rest =>
    rw [hasSpaceAtBreak, Bool.or_eq_false_iff] at h
    exact h.2

theorem hasSpaceAtBreak_append (h : hasSpaceAtBreak (cs ++ tail) = false) :
    hasSpaceAtBreak tail = false := by
  induction cs with
  | nil => exact h
  | cons ch rest ih => exact ih (hasSpaceAtBreak_tail h)

theorem ne_newLine_of_space (h : hasSpaceAtBreak (' ' :: cs) = false) : cs.head? ≠ some '\n' := by
  cases cs with
  | nil => exact fun h => by cases h
  | cons d rest =>
    rintro hd
    rw [Option.some.inj hd] at h
    cases h

theorem ne_space_of_newLine (h : hasSpaceAtBreak ('\n' :: cs) = false) : cs.head? ≠ some ' ' := by
  cases cs with
  | nil => exact fun h => by cases h
  | cons d rest =>
    rintro hd
    rw [Option.some.inj hd] at h
    cases h

/-- What starts with neither a space nor a line feed is written so. -/
theorem dense_wrap {split : Bool} {indent column : Nat} {before : Option Char}
    (hsimple : Simple cs) (hspace : cs.head? ≠ some ' ') (hline : cs.head? ≠ some '\n')
    (tail : List Char) : Dense (wrap true split indent before column cs ++ '\'' :: tail) := by
  cases cs with
  | nil => exact dense_cons ⟨rfl, rfl⟩ _
  | cons ch rest =>
    have hch : ch ≠ ' ' := fun h => hspace (congrArg some h)
    have hch' : ch ≠ '\n' := fun h => hline (congrArg some h)
    have hprinted := isPrinted_of_isSimple (simple_cons.mp hsimple).1 hch'
    rw [wrap, if_neg hch, if_neg hch']
    split
    · exact dense_cons ⟨rfl, rfl⟩ _
    · exact dense_printed hprinted hch _

/-- Between single quotes no line is broken next to a space. -/
theorem unbroken_wrap {split : Bool} {indent : Nat} (hsimple : Simple cs)
    (hbreak : hasSpaceAtBreak (' ' :: cs) = false) (column : Nat) (tail : List Char) :
    Unbroken (wrap true split indent (some ' ') column cs ++ '\'' :: tail) := by
  induction cs generalizing column with
  | nil => exact unbroken_of_dense (dense_cons ⟨rfl, rfl⟩ _)
  | cons ch rest ih =>
    by_cases hspace : ch = ' '
    · subst hspace
      rw [wrap, if_pos rfl]
      dsimp only
      rw [if_neg (by simp)]
      exact unbroken_space (ih (simple_cons.mp hsimple).2 (hasSpaceAtBreak_tail hbreak) _)
    · exact unbroken_of_dense (dense_wrap hsimple (fun h => hspace (Option.some.inj h))
        (ne_newLine_of_space hbreak) tail)

/-- Line feeds in a row. -/
theorem wrap_newLines {quoted split : Bool} {indent column k : Nat} (htext : text.head? ≠ some '\n') :
    wrap quoted split indent (some '\n') column (List.replicate k '\n' ++ text) =
      if k = 0 then wrap quoted split indent (some '\n') column text
      else List.replicate k '\n' ++ (List.replicate indent ' ' ++
        wrap quoted split indent (some '\n') indent text) := by
  induction k generalizing column with
  | zero => rfl
  | succ k ih =>
    rw [List.replicate_succ, List.cons_append, wrap, if_neg (by decide), if_pos rfl, if_pos rfl, ih]
    cases k with
    | zero =>
      simp [htext, newLine]
    | succ k => simp [List.replicate_succ]

section

variable {split : Bool} {indent : Nat} {before : Option Char}

/-- What is written between single quotes for a text is read up to the closing one. -/
def ReadsWrapped (split : Bool) (indent : Nat) (tail : List Char) (before : Option Char)
    (text : List Char) : Prop :=
  ∀ ⦃c : Cursor⦄ ⦃column : Nat⦄, c.rest = wrap true split indent before column text ++ '\'' :: tail →
    ReadsQuoted false c text ((wrap true split indent before column text).length + 1)

theorem length_newLine (indent : Nat) : (newLine indent).length = indent + 1 := by
  rw [newLine, List.length_cons, List.length_replicate]

/-- A space, or a line break in its place. -/
theorem readsWrapped_space (hindent : 0 < indent) (hsimple : Simple text)
    (hbreak : hasSpaceAtBreak (' ' :: text) = false)
    (hread : ReadsWrapped split indent tail (some ' ') text) :
    ReadsWrapped split indent tail before (' ' :: text) := by
  intro c column h
  rw [wrap, if_pos rfl] at h ⊢
  dsimp only at h ⊢
  split at h
  · rename_i hlone
    rw [if_pos hlone]
    simp only [Bool.and_eq_true, Bool.not_eq_true', decide_eq_true_eq] at hlone
    have hdense := @dense_wrap text split indent indent (some ' ') hsimple
      (by simpa using hlone.1.2.2) (ne_newLine_of_space hbreak) tail
    rw [List.append_assoc] at h
    have hbehind := @rest_skip_of_append c (newLine indent) _ h
    have hlength : (newLine indent).length = 1 + (0 + indent) := by
      rw [length_newLine, Nat.zero_add, Nat.add_comm]
    rw [hlength] at hbehind
    have hnext := @ReadsQuoted.newLines _ _ _ 0 _ _ h hdense hindent (hread hbehind)
    exact hnext.of_eq (by rw [List.length_append, hlength, Nat.add_assoc])
  · rename_i hplain
    rw [if_neg hplain]
    exact ReadsQuoted.space h (unbroken_wrap hsimple hbreak _ _) (hread (next_of_cons h))

/-- Line breaks in a row, of which one more is written. -/
theorem readsWrapped_newLines {k : Nat} (hindent : 0 < indent) (hsimple : Simple text)
    (hbreak : hasSpaceAtBreak ('\n' :: text) = false) (hne : text.head? ≠ some '\n')
    (hbefore : before ≠ some '\n') (hread : ReadsWrapped split indent tail (some '\n') text) :
    ReadsWrapped split indent tail before ('\n' :: (List.replicate k '\n' ++ text)) := by
  intro c column h
  have hwrap : wrap true split indent before column ('\n' :: (List.replicate k '\n' ++ text)) =
      '\n' :: (List.replicate (k + 1) '\n' ++ (List.replicate indent ' ' ++
        wrap true split indent (some '\n') indent text)) := by
    have hrun := @wrap_newLines text true split indent column (k + 1) hne
    rw [if_neg (Nat.succ_ne_zero k)] at hrun
    rw [← hrun, List.replicate_succ, List.cons_append, wrap, wrap]
    simp [hbefore]
  rw [hwrap] at h ⊢
  simp only [List.cons_append, List.append_assoc] at h
  have hdense := @dense_wrap text split indent indent (some '\n') hsimple
    (ne_space_of_newLine hbreak) hne tail
  have hline : c.rest = '\n' :: (List.replicate (k + 1) '\n' ++ List.replicate indent ' ') ++
      (wrap true split indent (some '\n') indent text ++ '\'' :: tail) := by
    rw [h, List.cons_append, List.append_assoc]
  have hcount : ('\n' :: (List.replicate (k + 1) '\n' ++ List.replicate indent ' ')).length =
      1 + (k + 1 + indent) := by
    rw [List.length_cons, List.length_append, List.length_replicate, List.length_replicate,
      Nat.add_comm 1]
  have hbehind := rest_skip_of_append hline
  rw [hcount] at hbehind
  have hnext := ReadsQuoted.newLines h hdense hindent (hread hbehind)
  rw [if_neg (Nat.succ_ne_zero k)] at hnext
  refine hnext.of_eq ?_
  rw [List.length_cons, List.length_append, List.length_append, List.length_replicate,
    List.length_replicate]
  omega

/-- Any other character; a quote is written twice. -/
theorem readsWrapped_char {ch : Char} (hch : isSimple ch = true) (hspace : ch ≠ ' ')
    (hline : ch ≠ '\n') (hread : ReadsWrapped split indent tail (some ch) text) :
    ReadsWrapped split indent tail before (ch :: text) := by
  intro c column h
  have hprinted := isPrinted_of_isSimple hch hline
  rw [wrap, if_neg hspace, if_neg hline] at h ⊢
  by_cases hquote : ch = '\''
  · subst hquote
    have hboth : (true && decide ('\'' = '\'')) = true := by decide
    rw [if_pos hboth] at h ⊢
    exact ReadsQuoted.quote h (hread (next_of_cons (next_of_cons h)))
  · have hnot : ¬(true && decide (ch = '\'')) = true := by simp [hquote]
    rw [if_neg hnot] at h ⊢
    exact ReadsQuoted.char h hprinted hspace hquote (fun hf => by cases hf) (hread (next_of_cons h))

theorem readsWrapped (hindent : 0 < indent) (htail : tail.head? ≠ some '\'')
    (hsimple : Simple text) (hbreak : hasSpaceAtBreak text = false) :
    ∀ {before : Option Char}, (text.head? = some '\n' → before ≠ some '\n') →
      ReadsWrapped split indent tail before text := by
  induction hlength : text.length using Nat.strongRecOn generalizing text with
  | _ length ih =>
    intro before hbefore
    cases text with
    | nil => exact fun c column h => @readsQuoted_mark c tail false h fun _ => htail
    | cons ch rest =>
      have hrest : rest.length < length := by
        rw [← hlength]
        exact Nat.lt_succ_self _
      obtain ⟨hch, hrestSimple⟩ := simple_cons.mp hsimple
      have ihRest := @ih rest.length hrest rest hrestSimple (hasSpaceAtBreak_tail hbreak) rfl
      by_cases hspace : ch = ' '
      · subst hspace
        exact readsWrapped_space hindent hrestSimple hbreak (ihRest fun _ => by decide)
      by_cases hline : ch = '\n'
      · subst hline
        -- the line breaks in a row are taken together
        obtain ⟨k, more, rfl, hmore⟩ := exists_replicate '\n' rest
        have hbreak' : hasSpaceAtBreak ('\n' :: more) = false := by
          rw [← List.cons_append, ← List.replicate_succ, List.replicate_succ',
            List.append_assoc] at hbreak
          exact hasSpaceAtBreak_append hbreak
        have hmoreSimple : Simple more := (simple_append.mp hrestSimple).2
        have hshort : more.length < length :=
          Nat.lt_of_le_of_lt (by rw [List.length_append]; exact Nat.le_add_left _ _) hrest
        exact readsWrapped_newLines hindent hmoreSimple hbreak' hmore (hbefore rfl)
          (@ih more.length hshort more hmoreSimple (hasSpaceAtBreak_tail hbreak') rfl _
            fun he => absurd he hmore)
      · exact readsWrapped_char hch hspace hline
          (ihRest fun _ he => hline (Option.some.inj he))

end

/-! ## Scalars -/

theorem ofText_ne_plain {s : String} (h : ¬isPlain s = true) : ofText s ≠ .plain := by
  rw [ofText, if_neg h]
  split <;> exact fun h => by cases h

/-- What is written in single quotes. -/
theorem of_ofText_single {s : String} (h : ofText s = .single) :
    Simple s.toList ∧ hasSpaceAtBreak s.toList = false := by
  unfold ofText at h
  split at h
  · cases h
  · dsimp only at h
    split at h
    · rename_i hs
      rw [Bool.and_eq_true, Bool.not_eq_true'] at hs
      exact ⟨simple_of_all hs.1, hs.2⟩
    · cases h

theorem guard_notMem_of_simple (h : Simple cs) : Text.guard ∉ cs :=
  fun hmem => absurd (h Text.guard hmem) (by decide)

/-- The opening quote, and what is read from there up to the closing one. -/
theorem takeQuoted_of_reads {double : Bool} {n : Nat} (h : c.rest = mark double :: cs)
    (hread : ReadsQuoted double (c.skip 1) text n) : c.takeQuoted = .ok (text, c.skip (n + 1)) := by
  have hfrom := hread c.rest.length.succ (by rw [rest_skip, List.length_drop]; omega)
  have hdouble : decide (c.peek = '"') = double := by
    rw [peek_of_cons h]
    cases double <;> decide
  rw [takeQuoted, hdouble, Nat.add_comm, ← skip_skip]
  exact hfrom

/-- A quoted scalar is read as its text. -/
theorem takeQuoted_scalar {split : Bool} {indent column : Nat} {s : String} (hindent : 0 < indent)
    (hwidth : indent < lineWidth) (hs : ¬isPlain s = true)
    (h : c.rest = Style.scalar split indent column s ++ tail) (htail : tail.head? ≠ some '\'') :
    c.takeQuoted = .ok ((Text.canonical s).toList,
      c.skip (Style.scalar split indent column s).length) := by
  rw [Text.canonical, String.toList_ofList]
  cases hstyle : ofText s with
  | plain => exact absurd hstyle (ofText_ne_plain hs)
  | single =>
    obtain ⟨hsimple, hbreak⟩ := of_ofText_single hstyle
    have hscalar : Style.scalar split indent column s =
        '\'' :: wrap true split indent none (column + 1) s.toList ++ ['\''] := by
      rw [Style.scalar, hstyle]
    have hc : c.rest = mark false ::
        (wrap true split indent none (column + 1) s.toList ++ '\'' :: tail) := by
      rw [h, hscalar, List.append_assoc]
      rfl
    have hread := readsWrapped hindent htail hsimple hbreak (fun _ he => by cases he) (next_of_cons hc)
    rw [Text.ofCodes_codes (guard_notMem_of_simple hsimple), takeQuoted_of_reads hc hread, hscalar,
      List.length_append, List.length_cons]
    rfl
  | double =>
    have hscalar : Style.scalar split indent column s =
        '"' :: wrapEscaped split indent true false (column + 1) (Text.codes s.toList) ++ ['"'] := by
      rw [Style.scalar, hstyle]
    have hc : c.rest = mark true ::
        (wrapEscaped split indent true false (column + 1) (Text.codes s.toList) ++ '"' :: tail) := by
      rw [h, hscalar, List.append_assoc]
      rfl
    obtain ⟨hread, -⟩ := @readsEscaped split indent _ hindent hwidth (codes_lt s.toList)
    rw [takeQuoted_of_reads hc (hread (next_of_cons hc)), hscalar, List.length_append, List.length_cons]
    rfl

end Cursor
end Yaml
end Replatform
