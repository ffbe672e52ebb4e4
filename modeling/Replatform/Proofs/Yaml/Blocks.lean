import Replatform.Proofs.Yaml.Plain
import Replatform.Yaml.TokenStream

/-! # Scanning in blocks

A scan goes on from token to token.  In front of a token it passes over blanks, forgets keys
whose colon can no longer come, and closes the blocks that have ended; so it has **come to** a
state (`At`) if it acts from here on as from there.  Where no flow collection is open, that state
is a place in the text with the columns of the open blocks and the tokens so far (`block`).
-/
namespace Replatform
namespace Yaml
namespace Scan

open Style
open Cursor (Dense dense_printed)

variable {s s' s'' m : Scan} {c : Cursor} {tail : List Char}

/-! ## From token to token -/

/-- What is done behind the blanks: blocks that have ended are closed, and the token is taken. -/
def act (s : Scan) : Except Fault (Scan × Bool) := do
  let s := s.unwind (s.cursor.column + 1)
  if s.cursor.peek = textEnd then return (← (s.unwind 0).dropKey, true)
  return (← s.takeToken, false)

/-- What is done in front of a token. -/
def prepare (s : Scan) : Except Fault Scan :=
  (skipToToken s.cursor.rest.length.succ s.skipOrderMark).dropStale

theorem advance_eq (s : Scan) : s.advance = s.prepare >>= act := rfl

theorem run_succ (fuel : Nat) (s : Scan) : s.run (fuel + 1) =
    match s.advance with
    | .ok (s', false) => run fuel s'
    | .ok (s', true) => ⟨s'.emitted.reverse, none⟩
    | .error fault =>
      match s.dropStale with
      | .ok s' => ⟨s'.emitted.reverse.take s'.certain, some fault⟩
      | .error fault => ⟨[], some fault⟩ := by rfl

/-- The scan comes from one state to another, reading at least a character for each token. -/
def Leads (s s' : Scan) : Prop :=
  ∃ n, s'.cursor.rest.length + n ≤ s.cursor.rest.length ∧ ∀ fuel, s.run (fuel + n) = s'.run fuel

theorem leads_refl (s : Scan) : Leads s s :=
  ⟨0, Nat.le_refl _, fun fuel => by rw [Nat.add_zero]⟩

theorem Leads.trans (h : Leads s s') (h' : Leads s' s'') : Leads s s'' := by
  obtain ⟨n, hn, hrun⟩ := h
  obtain ⟨n', hn', hrun'⟩ := h'
  refine ⟨n + n', by omega, fun fuel => ?_⟩
  rw [Nat.add_comm n, ← Nat.add_assoc, hrun, hrun']

theorem leads_of_advance (h : s.advance = .ok (s', false))
    (hlt : s'.cursor.rest.length < s.cursor.rest.length) : Leads s s' := by
  refine ⟨1, Nat.succ_le_of_lt hlt, fun fuel => ?_⟩
  rw [run_succ, h]

/-- The scan comes to a fault. -/
def Fails (s : Scan) : Prop := ∃ s' fault, Leads s s' ∧ s'.advance = .error fault

theorem Leads.fails (h : Leads s s') (h' : Fails s') : Fails s := by
  obtain ⟨s'', fault, hleads, hadvance⟩ := h'
  exact ⟨s'', fault, h.trans hleads, hadvance⟩

theorem fault_of_advance {fault : Fault} (fuel : Nat) (h : s.advance = .error fault) :
    (s.run (fuel + 1)).fault ≠ none := by
  rw [run_succ, h]
  cases s.dropStale <;> exact Option.some_ne_none _

/-- A scan that comes to a fault breaks off, however far it reads. -/
theorem Fails.run {fuel : Nat} (h : Fails s) (hfuel : s.cursor.rest.length < fuel) :
    (s.run fuel).fault ≠ none := by
  obtain ⟨s', fault, ⟨n, hn, hrun⟩, hadvance⟩ := h
  obtain ⟨more, rfl⟩ : ∃ more, fuel = more + 1 + n := ⟨fuel - n - 1, by omega⟩
  rw [hrun]
  exact fault_of_advance more hadvance

/-- The scan has come to a state: it acts as from there, and no text is ahead that is not
ahead there. -/
structure At (s m : Scan) : Prop where
  advance : s.advance = m.act
  length : m.cursor.rest.length ≤ s.cursor.rest.length

theorem at_of_prepare (h : s.prepare = .ok m) (hle : m.cursor.rest.length ≤ s.cursor.rest.length) :
    At s m := ⟨by rw [advance_eq, h]; rfl, hle⟩

/-- From the state that a scan has come to, it takes the next token. -/
theorem At.leads (h : At s m) (hact : m.act = .ok (s', false))
    (hlt : s'.cursor.rest.length < m.cursor.rest.length) : Leads s s' :=
  leads_of_advance (h.advance.trans hact) (Nat.lt_of_lt_of_le hlt h.length)

theorem At.fails {fault : Fault} (h : At s m) (hact : m.act = .error fault) : Fails s :=
  ⟨s, fault, leads_refl s, h.advance.trans hact⟩

/-! ## States in blocks -/

/-- A scan at a place with its open blocks, a pending key and the tokens so far, outside of flow
collections. -/
def holding (c : Cursor) (floor : Nat) (floors : List Nat) (key : Option PendingKey)
    (allowed : Bool) (emitted : List Token) : Scan :=
  ⟨c, floor, floors, key, [], allowed, emitted, emitted.length⟩

/-- A scan without a pending key. -/
def block (c : Cursor) (floor : Nat) (floors : List Nat) (allowed : Bool) (emitted : List Token) :
    Scan := holding c floor floors none allowed emitted

variable {floor : Nat} {floors : List Nat} {key key' : Option PendingKey} {allowed : Bool}
  {emitted : List Token}

/-- No block has ended at its least column. -/
theorem unwind_holding {least : Nat} (h : floor ≤ least) :
    (holding c floor floors key allowed emitted).unwind least =
      holding c floor floors key allowed emitted := by
  have hnot : ¬least < floor := Nat.not_lt.mpr h
  cases floors with
  | nil => rfl
  | cons outer floors => exact if_neg hnot

/-- The innermost block has ended. -/
theorem At.close {outer : Nat}
    (h : At s (block c floor (outer :: floors) allowed emitted)) (hc : c.column + 1 < floor) :
    At s (block c outer floors allowed (.blockEnd :: emitted)) := by
  have hunwind : (block c floor (outer :: floors) allowed emitted).unwind (c.column + 1) =
      (block c outer floors allowed (.blockEnd :: emitted)).unwind (c.column + 1) := if_pos hc
  refine ⟨h.advance.trans ?_, h.length⟩
  unfold act
  exact congrArg (fun s : Scan => (do
    if s.cursor.peek = textEnd then return (← (s.unwind 0).dropKey, true)
    return (← s.takeToken, false) : Except Fault (Scan × Bool))) hunwind

/-- Where no block has ended, what is done is to take the token. -/
theorem act_holding (hfloor : floor ≤ c.column + 1) (hc : c.peek ≠ textEnd) :
    (holding c floor floors key allowed emitted).act =
      (holding c floor floors key allowed emitted).takeToken >>= fun s => pure (s, false) := by
  have hend : ¬(holding c floor floors key allowed emitted).cursor.peek = textEnd := hc
  have hunwind : (holding c floor floors key allowed emitted).unwind
      ((holding c floor floors key allowed emitted).cursor.column + 1) =
        holding c floor floors key allowed emitted := unwind_holding hfloor
  unfold act
  rw [hunwind]
  simp only [hend, if_false]

theorem At.take (h : At s (holding c floor floors key allowed emitted)) (hfloor : floor ≤ c.column + 1)
    (hc : c.peek ≠ textEnd)
    (htake : (holding c floor floors key allowed emitted).takeToken = .ok s')
    (hlt : s'.cursor.rest.length < c.rest.length) : Leads s s' := by
  refine h.leads ?_ hlt
  rw [act_holding hfloor hc, htake]
  rfl

theorem At.fails_take {fault : Fault} (h : At s (holding c floor floors key allowed emitted))
    (hfloor : floor ≤ c.column + 1) (hc : c.peek ≠ textEnd)
    (htake : (holding c floor floors key allowed emitted).takeToken = .error fault) : Fails s := by
  have hact : (holding c floor floors key allowed emitted).act = .error fault := by
    rw [act_holding hfloor hc, htake]
    rfl
  exact h.fails hact

/-! ## In front of a token -/

/-- What is in front is no blank, no comment and no mark of the byte order. -/
def Starts (cs : List Char) : Prop :=
  ∀ ch, cs.head? = some ch → isPrinted ch = true ∧ ch ≠ ' ' ∧ ch ≠ '#'

theorem dense_of_starts {cs : List Char} (h : Starts cs) : Dense cs := fun ch hch => by
  obtain ⟨hprinted, hspace, -⟩ := h ch hch
  exact dense_printed hprinted hspace [] ch rfl

theorem ne_peek_of_starts {cs : List Char} {ch : Char} (h : Starts cs) (hc : c.rest = cs)
    (hch : ch = '#' ∨ isPrinted ch = false ∧ ch ≠ textEnd) : c.peek ≠ ch := by
  rw [Cursor.peek, hc]
  cases cs with
  | nil =>
    rintro rfl
    obtain h | ⟨-, h⟩ := hch
    · cases h
    · exact h rfl
  | cons d rest =>
    obtain ⟨hprinted, -, hcomment⟩ := h d rfl
    rintro rfl
    obtain rfl | ⟨h, -⟩ := hch
    · exact hcomment rfl
    · exact ne_of_isPrinted hprinted h rfl

theorem skipOrderMark_of_ne (h : s.cursor.peek ≠ byteOrderMark) : s.skipOrderMark = s :=
  if_neg fun hmark => h hmark.2

theorem dropStale_holding (h : freshen c key = .ok key') :
    (holding c floor floors key allowed emitted).dropStale =
      .ok (holding c floor floors key' allowed emitted) := by
  unfold dropStale
  simp only [holding, h, List.mapM_nil]
  rfl

/-- Behind the spaces on a line. -/
theorem skipToToken_spaces {k fuel : Nat} (hrest : c.rest = List.replicate k ' ' ++ tail)
    (htail : Starts tail) : skipToToken (fuel + 1) (holding c floor floors key allowed emitted) =
      holding (c.skip k) floor floors key allowed emitted := by
  have htoken : (c.skip k).rest = tail := Cursor.rest_skip_spaces hrest
  have hspaces : c.skipSpaces = c.skip k := by
    rw [Cursor.skipSpaces, Cursor.skipWhile, Cursor.span_spaces hrest (dense_of_starts htail),
      List.length_replicate]
  have hcomment : (c.skip k).skipComment = c.skip k :=
    if_neg (ne_peek_of_starts htail htoken (.inl rfl))
  have hbreak : ¬isBreak (c.skip k).peek = true := by
    rw [Cursor.isBreak_peek_of_dense (htoken.symm ▸ dense_of_starts htail)]
    exact Bool.false_ne_true
  have hcursor : (holding c floor floors key allowed emitted).cursor.skipSpaces.skipComment =
      c.skip k := by
    show c.skipSpaces.skipComment = _
    rw [hspaces, hcomment]
  unfold skipToToken
  rw [hcursor]
  exact if_neg hbreak

/-- Behind a line end and the spaces on the next line. -/
theorem skipToToken_newLine {j fuel : Nat} (hrest : c.rest = newLine j ++ tail)
    (htail : Starts tail) : skipToToken (fuel + 2) (holding c floor floors key allowed emitted) =
      holding (c.skip (j + 1)) floor floors key true emitted := by
  have hpeek : c.peek = '\n' := Cursor.peek_of_cons hrest
  have hspaces : c.skipSpaces = c := by
    have hspan : c.span (· = ' ') = [] := by
      rw [Cursor.span, hrest]
      rfl
    rw [Cursor.skipSpaces, Cursor.skipWhile, hspan]
    rfl
  have hcomment : c.skipComment = c := if_neg (by rw [hpeek]; decide)
  have hcursor : (holding c floor floors key allowed emitted).cursor.skipSpaces.skipComment = c := by
    show c.skipSpaces.skipComment = _
    rw [hspaces, hcomment]
  have hbreak : isBreak c.peek = true := by
    rw [hpeek]
    rfl
  have hnext : c.takeBreak.2 = c.next := by
    rw [Cursor.takeBreak, if_pos hbreak]
  have hallowed : (allowed || true) = true := Bool.or_true allowed
  unfold skipToToken
  rw [hcursor]
  refine (if_pos hbreak).trans ?_
  rw [hnext]
  show skipToToken (fuel + 1) (holding c.next floor floors key (allowed || true) emitted) = _
  rw [hallowed, @skipToToken_spaces c.next tail floor floors key true emitted j fuel
    (Cursor.next_of_cons hrest) htail]
  rfl

/-- A scan comes to a token behind spaces. -/
theorem at_spaces {k : Nat} (hrest : c.rest = List.replicate k ' ' ++ tail) (htail : Starts tail)
    (hkey : freshen (c.skip k) key = .ok key') :
    At (holding c floor floors key allowed emitted)
      (holding (c.skip k) floor floors key' allowed emitted) := by
  have hmark : c.peek ≠ byteOrderMark := by
    cases k with
    | zero => exact ne_peek_of_starts htail hrest (.inr ⟨by decide, by decide⟩)
    | succ k =>
      rw [Cursor.peek_of_cons hrest]
      decide
  have hlength : (c.skip k).rest.length ≤ c.rest.length := by
    rw [Cursor.rest_skip, List.length_drop]
    exact Nat.sub_le _ _
  refine at_of_prepare ?_ hlength
  rw [prepare, skipOrderMark_of_ne hmark, Nat.succ_eq_add_one, skipToToken_spaces hrest htail,
    dropStale_holding hkey]

/-- In front of a token where a key that has to be one was not. -/
theorem fails_of_freshen {fault : Fault} (hstarts : Starts c.rest)
    (hkey : freshen c key = .error fault) : Fails (holding c floor floors key allowed emitted) := by
  have hmark : c.peek ≠ byteOrderMark := ne_peek_of_starts hstarts rfl (.inr ⟨by decide, by decide⟩)
  have hprepare : (holding c floor floors key allowed emitted).prepare = .error fault := by
    rw [prepare, skipOrderMark_of_ne hmark, Nat.succ_eq_add_one]
    show (skipToToken (c.rest.length + 1) (holding c floor floors key allowed emitted)).dropStale = _
    rw [@skipToToken_spaces c c.rest floor floors key allowed emitted 0 c.rest.length rfl hstarts]
    unfold dropStale
    show (freshen c key >>= fun _ => _) = _
    rw [hkey]
    rfl
  exact ⟨_, fault, leads_refl _, by rw [advance_eq, hprepare]; rfl⟩

/-- A scan comes to a token on the next line. -/
theorem at_newLine {j : Nat} (hrest : c.rest = newLine j ++ tail) (htail : Starts tail)
    (hkey : freshen (c.skip (j + 1)) key = .ok none) :
    At (holding c floor floors key allowed emitted)
      (block (c.skip (j + 1)) floor floors true emitted) := by
  have hmark : c.peek ≠ byteOrderMark := by
    rw [Cursor.peek_of_cons hrest]
    decide
  have hlength : (c.skip (j + 1)).rest.length ≤ c.rest.length := by
    rw [Cursor.rest_skip, List.length_drop]
    exact Nat.sub_le _ _
  -- one round for the line end and one for the spaces behind it
  obtain ⟨fuel, hfuel⟩ : ∃ fuel, c.rest.length.succ = fuel + 2 := by
    rw [hrest]
    exact ⟨_, rfl⟩
  refine at_of_prepare ?_ hlength
  rw [prepare, skipOrderMark_of_ne hmark]
  show (skipToToken c.rest.length.succ (holding c floor floors key allowed emitted)).dropStale = _
  rw [hfuel, skipToToken_newLine hrest htail, dropStale_holding hkey]
  rfl

/-! ## Pending keys -/

theorem line_le_next (c : Cursor) : c.line ≤ c.next.line := by
  unfold Cursor.next
  split
  · exact Nat.le_refl _
  · split
    · exact Nat.le_succ _
    · exact Nat.le_refl _

theorem line_le_skip (n : Nat) (c : Cursor) : c.line ≤ (c.skip n).line := by
  induction n generalizing c with
  | zero => exact Nat.le_refl _
  | succ n ih => exact Nat.le_trans (line_le_next c) (ih c.next)

/-- The key may be forgotten on the lines behind that of a place. -/
def Lapses (c : Cursor) (key : Option PendingKey) : Prop :=
  ∀ k, key = some k → k.required = false ∧ k.line ≤ c.line

theorem freshen_of_lapses {c' : Cursor} (h : Lapses c key) (hline : c.line < c'.line) :
    freshen c' key = .ok none := by
  cases key with
  | none => rfl
  | some k =>
    obtain ⟨hrequired, hk⟩ := h k rfl
    have hstale : isStale c' k = true := by
      rw [isStale, bne_iff_ne.mpr (by omega)]
      rfl
    rw [freshen, if_pos hstale, hrequired]
    rfl

/-- The key that is remembered for the next token. -/
def keyAt (c : Cursor) (floor : Nat) (allowed : Bool) (emitted : List Token) : Option PendingKey :=
  if allowed then some ⟨emitted.length, c.index, c.line, c.column, floor == c.column + 1⟩ else none

theorem saveKey_block : (block c floor floors allowed emitted).saveKey =
    .ok (holding c floor floors (keyAt c floor allowed emitted) allowed emitted) := by
  cases allowed with
  | true => rfl
  | false => rfl

/-- No key has to start where the innermost block does not go on. -/
theorem lapses_keyAt (h : floor ≤ c.column) : Lapses c (keyAt c floor allowed emitted) := by
  intro k hk
  unfold keyAt at hk
  split at hk
  · obtain rfl := Option.some.inj hk
    exact ⟨beq_false_of_ne (by omega), Nat.le_refl _⟩
  · cases hk

end Scan
end Yaml
end Replatform
