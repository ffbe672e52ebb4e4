import Replatform.Text.Hex
import Replatform.Text.Surrogate
import Replatform.Yaml.Cursor
import Replatform.Yaml.Fault

/-! # The texts of YAML scalars

Plain, quoted and block scalars.  Inside a scalar a single line break counts as a space
and of several the first does not count; a block scalar keeps its line breaks unless it
is folded.
-/
namespace Replatform
namespace Yaml

/-- The text that a line break and the further breaks behind it stand for. -/
def foldBreaks (lineBreak breaks : List Char) : List Char :=
  if lineBreak ≠ ['\n'] then lineBreak ++ breaks else if breaks.isEmpty then [' '] else breaks

/-- `c` is a space or a tab. -/
def isGap (c : Char) : Bool := c = ' ' || c = '\t'

/-- The character that a letter behind a backslash stands for. -/
def escapes : List (Char × Char) := [
  ('0', '\x00'), ('a', '\x07'), ('b', '\x08'), ('t', '\t'), ('\t', '\t'), ('n', '\n'), ('v', '\x0b'),
  ('f', '\x0c'), ('r', '\r'), ('e', '\x1b'), (' ', ' '), ('"', '"'), ('\\', '\\'), ('/', '/'),
  ('N', '\x85'), ('_', '\xa0'), ('L', '\u2028'), ('P', '\u2029')]

/-- How many hexadecimal digits follow a letter behind a backslash. -/
def hexEscapes : List (Char × Nat) := [('x', 2), ('u', 4), ('U', 8)]

/-- The number that hexadecimal digits spell. -/
def hexNumber? (value : Nat) : List Char → Option Nat
  | [] => some value
  | c :: rest =>
    match Text.hexValue? c with
    | some d => hexNumber? (value * 16 + d) rest
    | none => none

/-- The text of a code, which may be that of a surrogate. -/
def textOfCode (code : Nat) : Except Fault (List Char) :=
  if 0x10FFFF < code then .error (.codePoint code) else .ok (Text.ofCode code)

/-- The characters of a plain scalar up to a blank, a line end or a mark that ends it. -/
def plainRun (inFlow : Bool) : List Char → List Char
  | [] => []
  | c :: rest =>
    let follower := rest.headD textEnd
    if isBlankOrEnd c ||
        (c = ':' && (isBlankOrEnd follower || (inFlow && ",[]\x7b\x7d".toList.contains follower))) ||
        (inFlow && ",?[]\x7b\x7d".toList.contains c) then []
    else c :: plainRun inFlow rest

namespace Cursor

/-! ### Plain scalars -/

/-- The line breaks among the spaces at the cursor, or nothing if a border between documents
comes up. -/
def plainBreaks : Nat → Cursor → Option (List Char) × Cursor
  | 0, c => (some [], c)
  | fuel + 1, c =>
    if c.atBorder then (none, c)
    else
      let c := c.skipSpaces
      if isBreak c.peek then
        let (b, c) := c.takeBreak
        let (more, c) := plainBreaks fuel c
        (more.map (b ++ ·), c)
      else (some [], c)

/-- What stands between two runs of a plain scalar, with the mark whether there is a line
break in it.  Nothing stands there if the scalar is over. -/
def plainGap (c : Cursor) : List Char × Bool × Cursor :=
  let spaces := c.span (· = ' ')
  let c := c.skip spaces.length
  if isBreak c.peek then
    let (b, c) := c.takeBreak
    match plainBreaks c.rest.length.succ c with
    | (none, c) => ([], true, c)
    | (some more, c) => (foldBreaks b more, true, c)
  else (spaces, false, c)

/-- The text of a plain scalar from a run on, with the gap in front of it, whether a line
break is the last thing read, and the cursor behind. -/
def plainFrom (inFlow : Bool) (floor : Nat) :
    Nat → List Char → Bool → Cursor → List Char × Bool × Cursor
  | 0, _, broken, c => ([], broken, c)
  | fuel + 1, gap, broken, c =>
    let run := plainRun inFlow c.rest
    if c.peek = '#' || run.isEmpty then ([], broken, c)
    else
      let (gap', broken, c) := plainGap (c.skip run.length)
      if gap'.isEmpty || c.peek = '#' || (!inFlow && c.column < floor) then (gap ++ run, broken, c)
      else
        let (more, broken, c) := plainFrom inFlow floor fuel gap' broken c
        (gap ++ run ++ more, broken, c)

/-- The text of the plain scalar at the cursor. -/
def takePlain (inFlow : Bool) (floor : Nat) (c : Cursor) : List Char × Bool × Cursor :=
  let (text, broken, c) := plainFrom inFlow floor c.rest.length.succ [] false c
  (Text.ofChars text, broken, c)

/-! ### Quoted scalars -/

/-- The further line breaks behind one in a quoted scalar. -/
def quotedBreaks : Nat → Cursor → Except Fault (List Char × Cursor)
  | 0, c => .ok ([], c)
  | fuel + 1, c =>
    if c.atBorder then .error .malformed
    else
      let c := c.skipWhile isGap
      if isBreak c.peek then do
        let (b, c) := c.takeBreak
        let (more, c) ← quotedBreaks fuel c
        return (b ++ more, c)
      else .ok ([], c)

/-- What an escape stands for; the cursor is behind the backslash. -/
def takeEscape (c : Cursor) : Except Fault (List Char × Cursor) :=
  match escapes.lookup c.peek, hexEscapes.lookup c.peek with
  | some ch, _ => .ok ([ch], c.next)
  | none, some width =>
    let ds := c.next.rest.take width
    match hexNumber? 0 ds with
    | some code =>
      if ds.length < width then .error .malformed
      else (textOfCode code).map fun cs => (cs, c.next.skip width)
    | none => .error .malformed
  | none, none =>
    if isBreak c.peek then quotedBreaks c.rest.length.succ c.takeBreak.2 else .error .malformed

/-- The text of a quoted scalar from the cursor to the closing quote. -/
def quotedFrom (double : Bool) : Nat → Cursor → Except Fault (List Char × Cursor)
  | 0, _ => .error .malformed
  | fuel + 1, c =>
    let ch := c.peek
    let followedBy (cs : List Char) (c : Cursor) : Except Fault (List Char × Cursor) :=
      (quotedFrom double fuel c).map fun (more, c) => (cs ++ more, c)
    if ch = textEnd then .error .malformed
    else if isGap ch || isBreak ch then
      let spaces := c.span isGap
      let c := c.skip spaces.length
      if isBreak c.peek then do
        let (b, c) := c.takeBreak
        let (more, c) ← quotedBreaks c.rest.length.succ c
        followedBy (foldBreaks b more) c
      else followedBy spaces c
    else if double then
      if ch = '"' then .ok ([], c.next)
      else if ch = '\\' then do
        let (cs, c) ← takeEscape c.next
        followedBy cs c
      else followedBy (Text.ofChars [ch]) c.next
    else if ch = '\'' then
      if c.next.peek = '\'' then followedBy ['\''] (c.skip 2) else .ok ([], c.next)
    else followedBy (Text.ofChars [ch]) c.next

/-- The text of the quoted scalar at the cursor. -/
def takeQuoted (c : Cursor) : Except Fault (List Char × Cursor) :=
  quotedFrom (c.peek = '"') c.rest.length.succ c.next

/-! ### Block scalars -/

/-- What becomes of the line breaks behind a block scalar. -/
inductive Chomping where
  | strip
  | clip
  | keep
  deriving DecidableEq, Repr

/-- The chomping mark at the cursor. -/
def takeChomping (c : Cursor) : Chomping × Cursor :=
  if c.peek = '+' then (.keep, c.next) else if c.peek = '-' then (.strip, c.next) else (.clip, c)

/-- The indentation digit at the cursor. -/
def takeIncrement (c : Cursor) : Except Fault (Option Nat × Cursor) :=
  if c.peek.isDigit then
    if c.peek = '0' then .error .malformed else .ok (some (c.peek.toNat - '0'.toNat), c.next)
  else .ok (none, c)

/-- The chomping mark and the indentation digit of a block scalar, in either order. -/
def takeBlockHeader (c : Cursor) : Except Fault (Chomping × Option Nat × Cursor) := do
  let (chomping, c) := c.takeChomping
  let (increment, c) ← c.takeIncrement
  let (chomping, c) := if chomping = .clip ∧ increment.isSome then c.takeChomping else (chomping, c)
  if isSpaceOrEnd c.peek then .ok (chomping, increment, c) else .error .malformed

/-- The line breaks at the start of a block scalar, and the most spaces in front of one or of
the first line. -/
def leadingBreaks : Nat → Nat → Cursor → List Char × Nat × Cursor
  | 0, deepest, c => ([], deepest, c)
  | fuel + 1, deepest, c =>
    if c.peek = ' ' then leadingBreaks fuel (max deepest c.next.column) c.next
    else if isBreak c.peek then
      let (b, c) := c.takeBreak
      let (more, deepest, c) := leadingBreaks fuel deepest c
      (b ++ more, deepest, c)
    else ([], deepest, c)

/-- The line breaks of empty lines in a block scalar. -/
def blockBreaks (indent : Nat) : Nat → Cursor → List Char × Cursor
  | 0, c => ([], c)
  | fuel + 1, c =>
    let c := c.skipIndent indent
    if isBreak c.peek then
      let (b, c) := c.takeBreak
      let (more, c) := blockBreaks indent fuel c
      (b ++ more, c)
    else ([], c)

/-- The text of a block scalar from a line on, with the line breaks in front of it, the line
break of the last line, the breaks behind it and the cursor. -/
def blockLines (folded : Bool) (indent : Nat) :
    Nat → List Char → Cursor → List Char × List Char × List Char × Cursor
  | 0, breaks, c => ([], [], breaks, c)
  | fuel + 1, breaks, c =>
    let goesOn (c : Cursor) : Bool := c.column = indent && c.peek ≠ textEnd
    if goesOn c then
      let line := c.span (!isBreak ·)
      let flush := !isGap c.peek
      let (b, c) := (c.skip line.length).takeBreak
      let (breaks', c) := blockBreaks indent c.rest.length.succ c
      if goesOn c then
        let glue :=
          if folded && b = ['\n'] && flush && !isGap c.peek then
            if breaks'.isEmpty then [' '] else []
          else b
        let (more, last, trailing, c) := blockLines folded indent fuel breaks' c
        (breaks ++ line ++ glue ++ more, last, trailing, c)
      else (breaks ++ line, b, breaks', c)
    else ([], [], breaks, c)

/-- The text of the block scalar at the cursor; `floor` is the least column of what stands
in the block around it. -/
def takeBlock (floor : Nat) (c : Cursor) : Except Fault (List Char × Cursor) := do
  let folded : Bool := c.peek = '>'
  let (chomping, increment, c) ← c.next.takeBlockHeader
  let c := c.skipSpaces.skipComment
  if !isLineEnd c.peek then .error .malformed
  let c := c.takeBreak.2
  let least := max 1 floor
  let (breaks, indent, c) :=
    match increment with
    | some n =>
      let indent := least + n - 1
      let (breaks, c) := blockBreaks indent c.rest.length.succ c
      (breaks, indent, c)
    | none =>
      let (breaks, deepest, c) := leadingBreaks c.rest.length.succ 0 c
      (breaks, max least deepest, c)
  let (text, last, trailing, c) := blockLines folded indent c.rest.length.succ breaks c
  return (Text.ofChars (text ++ (if chomping = .strip then [] else last) ++
    (if chomping = .keep then trailing else [])), c)

end Cursor
end Yaml
end Replatform
