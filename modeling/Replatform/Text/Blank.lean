import Replatform.Text.Ranges

/-! # White space and lines

The characters that count as white space in a settings value or in the output of
a child process, what it means to trim a text, and where a text breaks into
lines.
-/
namespace Replatform
namespace Text

/-- The white-space characters: the bidirectional types `WS`, `B` and `S` and the
space separators. -/
def blanks : Ranges := [
  (0x9, 0xD), (0x1C, 0x20), (0x85, 0x85), (0xA0, 0xA0), (0x1680, 0x1680), (0x2000, 0x200A),
  (0x2028, 0x2029), (0x202F, 0x202F), (0x205F, 0x205F), (0x3000, 0x3000)]

/-- `c` is white space. -/
def isBlank (c : Char) : Bool := blanks.covers c

/-- The text without the white space in front of it. -/
def trimStart (cs : List Char) : List Char := cs.dropWhile isBlank

/-- The text without the white space behind it. -/
def trimEnd (cs : List Char) : List Char := (cs.reverse.dropWhile isBlank).reverse

/-- The text without the white space around it. -/
def trim (cs : List Char) : List Char := trimEnd (trimStart cs)

/-- A character that ends a line: the line feed, the vertical tab, the form feed,
the carriage return, the three information separators above it, and the three line
separators beyond ASCII. -/
def isLineEnd (c : Char) : Bool :=
  c = '\n' || c = '\x0b' || c = '\x0c' || c = '\r' || c = '\x1c' || c = '\x1d' || c = '\x1e' ||
    c = '\x85' || c = '\u2028' || c = '\u2029'

/-- Cuts a text at its line ends, `line` being the part of the current line read so
far in reverse.  A carriage return and the line feed after it are one line end, and
a text that ends in a line end has no empty line behind it. -/
def linesFrom (line : List Char) : List Char → List (List Char)
  | [] => if line.isEmpty then [] else [line.reverse]
  | '\r' :: '\n' :: rest => line.reverse :: linesFrom [] rest
  | c :: rest => if isLineEnd c then line.reverse :: linesFrom [] rest else linesFrom (c :: line) rest

/-- A text with line feeds for all line ends. -/
def plainLines : List Char → List Char
  | '\r' :: '\n' :: rest => '\n' :: plainLines rest
  | '\r' :: rest => '\n' :: plainLines rest
  | c :: rest => c :: plainLines rest
  | [] => []

/-- The lines of a text, without their line ends. -/
def lines (cs : List Char) : List (List Char) := linesFrom [] cs

/-- The lines of a text that hold more than white space, each trimmed. -/
def filledLines (cs : List Char) : List (List Char) :=
  ((lines cs).map trim).filter (fun l => !l.isEmpty)

end Text
end Replatform
