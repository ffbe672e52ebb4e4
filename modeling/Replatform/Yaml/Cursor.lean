/-! # A place in a YAML text

A cursor is the rest of a text together with where it starts: its index, its line and
its column.  Behind the last character stands the character `end`, which no text
holds.  Line ends have been made line feeds before, but the three line breaks beyond
ASCII may still occur.
-/
namespace Replatform
namespace Yaml

/-- The character that stands behind a text. -/
def textEnd : Char := '\x00'

/-- `c` ends a line. -/
def isBreak (c : Char) : Bool := c = '\n' || c = '\x85' || c = '\u2028' || c = '\u2029'

/-- `c` ends a line or the text. -/
def isLineEnd (c : Char) : Bool := isBreak c || c = textEnd

/-- `c` ends a line or the text or is a space. -/
def isSpaceOrEnd (c : Char) : Bool := isLineEnd c || c = ' '

/-- `c` ends a line or the text or is a space or a tab. -/
def isBlankOrEnd (c : Char) : Bool := isSpaceOrEnd c || c = '\t'

/-- The mark that a text may begin with. -/
def byteOrderMark : Char := '\ufeff'

/-- The rest of a text and where it starts. -/
structure Cursor where
  rest : List Char
  index : Nat
  line : Nat
  column : Nat
  deriving Repr

namespace Cursor

/-- The start of a text. -/
def start (cs : List Char) : Cursor := ⟨cs, 0, 0, 0⟩

/-- The character at the cursor. -/
def peek (c : Cursor) : Char := c.rest.headD textEnd

/-- The character `k` places behind the cursor. -/
def peekAt (c : Cursor) (k : Nat) : Char := (c.rest.drop k).headD textEnd

/-- One character further. -/
def next (c : Cursor) : Cursor :=
  match c.rest with
  | [] => c
  | ch :: rest =>
    if isBreak ch then ⟨rest, c.index + 1, c.line + 1, 0⟩
    else ⟨rest, c.index + 1, c.line, if ch = byteOrderMark then c.column else c.column + 1⟩

/-- Some characters further. -/
def skip : Nat → Cursor → Cursor
  | 0, c => c
  | n + 1, c => skip n c.next

/-- The characters up to the first that `p` rejects. -/
def span (p : Char → Bool) (c : Cursor) : List Char := c.rest.takeWhile p

/-- Behind the characters that `p` accepts. -/
def skipWhile (p : Char → Bool) (c : Cursor) : Cursor := c.skip (c.span p).length

/-- Behind the spaces. -/
def skipSpaces (c : Cursor) : Cursor := c.skipWhile (· = ' ')

/-- Behind the spaces in the columns before `indent`. -/
def skipIndent (indent : Nat) (c : Cursor) : Cursor :=
  c.skip (min (indent - c.column) (c.span (· = ' ')).length)

/-- At the end of the line if a comment starts here. -/
def skipComment (c : Cursor) : Cursor := if c.peek = '#' then c.skipWhile (!isBreak ·) else c

/-- The line break at the cursor as it counts in a scalar, and the cursor behind it. -/
def takeBreak (c : Cursor) : List Char × Cursor :=
  if isBreak c.peek then ([if c.peek = '\x85' then '\n' else c.peek], c.next) else ([], c)

/-- Three marks of a kind stand at the cursor, and nothing behind them but blanks: a border
between documents, if the column is the first. -/
def isBorder (mark : Char) (c : Cursor) : Bool :=
  c.rest.take 3 = [mark, mark, mark] && isBlankOrEnd (c.peekAt 3)

/-- A border of either kind. -/
def atBorder (c : Cursor) : Bool := c.isBorder '-' || c.isBorder '.'

end Cursor
end Yaml
end Replatform
