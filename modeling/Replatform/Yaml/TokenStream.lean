import Replatform.Yaml.Lexeme
import Replatform.Yaml.Scalar

/-! # From text to tokens

The tokens of a text are found from left to right.  Two things cannot be seen at once:
that a node is a key shows only at the colon behind it, so each place where a key may
start is remembered for a while; and a block ends where a line starts further left, so
the columns of the open blocks are kept.  A fault is reported behind the tokens that
were certain when it was found.
-/
namespace Replatform
namespace Yaml

/-- A place where a key may have started. -/
structure PendingKey where
  /-- The number of tokens before it. -/
  number : Nat
  index : Nat
  line : Nat
  column : Nat
  /-- A block mapping goes on here, so it has to be a key. -/
  required : Bool
  deriving Repr

/-- The tokens of a text, and the fault at which they break off. -/
structure TokenStream where
  tokens : List Token
  fault : Option Fault
  deriving Repr

/-- How far a text has been read. -/
structure Scan where
  cursor : Cursor
  /-- The least column at which the innermost block goes on, and those of the blocks
  around it. -/
  floor : Nat
  floors : List Nat
  /-- The pending key of the innermost flow collection or of the block, and those outside. -/
  pending : Option PendingKey
  outer : List (Option PendingKey)
  /-- A key may start at the next token. -/
  keyAllowed : Bool
  /-- The tokens so far, latest first, and their number. -/
  emitted : List Token
  count : Nat

namespace Scan

/-- The start of a text. -/
def start (cs : List Char) : Scan := ⟨.start cs, 0, [], none, [], true, [], 0⟩

/-- Inside a flow collection. -/
def inFlow (s : Scan) : Bool := !s.outer.isEmpty

def emit (t : Token) (s : Scan) : Scan := { s with emitted := t :: s.emitted, count := s.count + 1 }

/-- Puts a token before all but the first `number`. -/
def insertAt (number : Nat) (t : Token) (s : Scan) : Scan :=
  let behind := s.count - number
  { s with emitted := s.emitted.take behind ++ t :: s.emitted.drop behind, count := s.count + 1 }

/-- Moves the cursor. -/
def goto (c : Cursor) (s : Scan) : Scan := { s with cursor := c }

/-! ### Keys -/

/-- A key has to end on the line on which it starts, after this many characters at most. -/
def keyLimit : Nat := 1024

/-- The colon of a pending key can no longer come. -/
def isStale (c : Cursor) (k : PendingKey) : Bool := k.line != c.line || keyLimit < c.index - k.index

/-- What is left of a pending key: a stale one is dropped unless it has to be a key. -/
def freshen (c : Cursor) : Option PendingKey → Except Fault (Option PendingKey)
  | none => .ok none
  | some k => if isStale c k then if k.required then .error .malformed else .ok none else .ok (some k)

/-- Drops the stale keys. -/
def dropStale (s : Scan) : Except Fault Scan := do
  return { s with pending := ← freshen s.cursor s.pending, outer := ← s.outer.mapM (freshen s.cursor) }

/-- Drops the pending key. -/
def dropKey (s : Scan) : Except Fault Scan :=
  match s.pending with
  | some k => if k.required then .error .malformed else .ok { s with pending := none }
  | none => .ok s

/-- Remembers the next token as a possible key, if one may start there. -/
def saveKey (s : Scan) : Except Fault Scan :=
  if s.keyAllowed then do
    let s' ← s.dropKey
    let c := s.cursor
    return { s' with
      pending := some ⟨s.count, c.index, c.line, c.column, !s.inFlow && s.floor == c.column + 1⟩ }
  else .ok s

/-- The number of tokens that are certain: none of the pending keys starts before their
end. -/
def certain (s : Scan) : Nat :=
  (s.pending :: s.outer).foldl (fun n k => match k with | some k => min n k.number | none => n) s.count

/-! ### Blocks -/

/-- Closes the blocks whose least column is above `least`. -/
def closeBlocks (least : Nat) : List Nat → Scan → Scan
  | [], s => s
  | outer :: floors, s =>
    if least < s.floor then
      closeBlocks least floors { (s.emit .blockEnd) with floor := outer, floors := floors }
    else s

/-- Closes the blocks that do not go on at `least`.  Flow collections know no indentation. -/
def unwind (least : Nat) (s : Scan) : Scan := if s.inFlow then s else closeBlocks least s.floors s

/-- Opens a block at a column, if it lies further right than the block around it. -/
def openBlock (column : Nat) (s : Scan) : Option Scan :=
  if s.floor ≤ column then some { s with floor := column + 1, floors := s.floor :: s.floors } else none

/-- Opens a block at the cursor, if it can be. -/
def openHere (t : Token) (s : Scan) : Scan :=
  match s.openBlock s.cursor.column with
  | some s' => s'.emit t
  | none => s

/-! ### Tokens by their first character -/

/-- A token of one character. -/
def takeMark (t : Token) (s : Scan) : Scan := (s.emit t).goto s.cursor.next

/-- A border between documents. -/
def takeBorder (t : Token) (s : Scan) : Except Fault Scan := do
  let s ← (s.unwind 0).dropKey
  return ({ s with keyAllowed := false }.emit t).goto (s.cursor.skip 3)

def takeDirective (s : Scan) : Except Fault Scan := do
  let s ← (s.unwind 0).dropKey
  let (d, c) ← s.cursor.takeDirective
  return ({ s with keyAllowed := false }.emit (.directive d)).goto c

/-- The start of a flow collection. -/
def openFlow (t : Token) (s : Scan) : Except Fault Scan := do
  let s ← s.saveKey
  return { s with pending := none, outer := s.pending :: s.outer, keyAllowed := true }.takeMark t

/-- The end of a flow collection. -/
def closeFlow (t : Token) (s : Scan) : Except Fault Scan := do
  let s ← s.dropKey
  match s.outer with
  | [] => .error .malformed
  | pending :: outer =>
    return { s with pending := pending, outer := outer, keyAllowed := false }.takeMark t

def takeFlowEntry (s : Scan) : Except Fault Scan := do
  let s ← { s with keyAllowed := true }.dropKey
  return s.takeMark .flowEntry

/-- The dash of an item. -/
def takeBlockEntry (s : Scan) : Except Fault Scan := do
  if !s.inFlow && !s.keyAllowed then .error .malformed
  let s := if s.inFlow then s else s.openHere .blockSequenceStart
  let s ← { s with keyAllowed := true }.dropKey
  return s.takeMark .blockEntry

/-- The question mark of a key. -/
def takeKey (s : Scan) : Except Fault Scan := do
  if !s.inFlow && !s.keyAllowed then .error .malformed
  let s := if s.inFlow then s else s.openHere .blockMappingStart
  let s ← { s with keyAllowed := !s.inFlow }.dropKey
  return s.takeMark .key

/-- The colon of a value.  A pending key becomes a key by it. -/
def takeValue (s : Scan) : Except Fault Scan := do
  match s.pending with
  | some k =>
    let s := { s with pending := none, keyAllowed := false }.insertAt k.number .key
    let s :=
      if s.inFlow then s
      else
        match s.openBlock k.column with
        | some s' => s'.insertAt k.number .blockMappingStart
        | none => s
    return s.takeMark .value
  | none =>
    if !s.inFlow && !s.keyAllowed then .error .malformed
    let s := if s.inFlow then s else s.openHere .blockMappingStart
    return { s with keyAllowed := !s.inFlow }.takeMark .value

/-- A name or a tag, which may be the start of a key. -/
def takeLexeme {α : Type} (take : Cursor → Except Fault (α × Cursor)) (token : α → Token) (s : Scan) :
    Except Fault Scan := do
  let s ← s.saveKey
  let (a, c) ← take s.cursor
  return ({ s with keyAllowed := false }.emit (token a)).goto c

def takeBlockScalar (s : Scan) : Except Fault Scan := do
  let s ← { s with keyAllowed := true }.dropKey
  let (text, c) ← s.cursor.takeBlock s.floor
  return (s.emit (.scalar false (String.ofList text))).goto c

def takePlain (s : Scan) : Except Fault Scan := do
  let s ← s.saveKey
  let (text, broken, c) := s.cursor.takePlain s.inFlow s.floor
  return ({ s with keyAllowed := broken }.emit (.scalar true (String.ofList text))).goto c

/-- A plain scalar can start at the cursor. -/
def startsPlain (s : Scan) : Bool :=
  let c := s.cursor.peek
  !(isBlankOrEnd c || "-?:,[]\x7b\x7d#&*!|>'\"%@\x60".toList.contains c) ||
    (!isBlankOrEnd s.cursor.next.peek && (c = '-' || (!s.inFlow && (c = '?' || c = ':'))))

/-- Behind the spaces, comments and line ends.  Outside of flow collections a key may start on
a new line. -/
def skipToToken : Nat → Scan → Scan
  | 0, s => s
  | fuel + 1, s =>
    let c := s.cursor.skipSpaces.skipComment
    if isBreak c.peek then
      skipToToken fuel { s with cursor := c.takeBreak.2, keyAllowed := s.keyAllowed || !s.inFlow }
    else s.goto c

/-- Behind a byte order mark at the start of the text. -/
def skipOrderMark (s : Scan) : Scan :=
  if s.cursor.index = 0 ∧ s.cursor.peek = byteOrderMark then s.goto s.cursor.next else s

/-- Reads the token at the cursor. -/
def takeToken (s : Scan) : Except Fault Scan :=
  let c := s.cursor
  let spaced := isBlankOrEnd c.next.peek
  let first := c.column = 0
  if c.peek = '%' ∧ first then s.takeDirective
  else if first ∧ c.isBorder '-' then s.takeBorder .documentStart
  else if first ∧ c.isBorder '.' then s.takeBorder .documentEnd
  else if c.peek = '[' then s.openFlow .flowSequenceStart
  else if c.peek = '\x7b' then s.openFlow .flowMappingStart
  else if c.peek = ']' then s.closeFlow .flowSequenceEnd
  else if c.peek = '\x7d' then s.closeFlow .flowMappingEnd
  else if c.peek = ',' then s.takeFlowEntry
  else if c.peek = '-' ∧ spaced then s.takeBlockEntry
  else if c.peek = '?' ∧ (s.inFlow ∨ spaced) then s.takeKey
  else if c.peek = ':' ∧ (s.inFlow ∨ spaced) then s.takeValue
  else if c.peek = '*' then s.takeLexeme Cursor.takeAnchor Token.alias
  else if c.peek = '&' then s.takeLexeme Cursor.takeAnchor Token.anchor
  else if c.peek = '!' then s.takeLexeme Cursor.takeTag Token.tag
  else if (c.peek = '|' ∨ c.peek = '>') ∧ !s.inFlow then s.takeBlockScalar
  else if c.peek = '\'' ∨ c.peek = '"' then
    s.takeLexeme Cursor.takeQuoted fun text => .scalar false (String.ofList text)
  else if s.startsPlain then s.takePlain
  else .error .malformed

/-- Reads on to the next token; the mark says that the text is over. -/
def advance (s : Scan) : Except Fault (Scan × Bool) := do
  let s := skipToToken s.cursor.rest.length.succ s.skipOrderMark
  let s ← s.dropStale
  let s := s.unwind (s.cursor.column + 1)
  if s.cursor.peek = textEnd then return (← (s.unwind 0).dropKey, true)
  return (← s.takeToken, false)

/-- Reads on to the end of the text or to a fault. -/
def run : Nat → Scan → TokenStream
  | 0, s => ⟨s.emitted.reverse, some .malformed⟩
  | fuel + 1, s =>
    match s.advance with
    | .ok (s', false) => run fuel s'
    | .ok (s', true) => ⟨s'.emitted.reverse, none⟩
    | .error fault =>
      match s.dropStale with
      | .ok s' => ⟨s'.emitted.reverse.take s'.certain, some fault⟩
      | .error fault => ⟨[], some fault⟩

end Scan

/-- The tokens of a text. -/
def TokenStream.ofText (cs : List Char) : TokenStream := (Scan.start cs).run cs.length.succ

end Yaml
end Replatform
