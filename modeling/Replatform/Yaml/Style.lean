import Replatform.Text.Hex
import Replatform.Text.Surrogate
import Replatform.Yaml.Cursor
import Replatform.Yaml.Tag

/-! # How a text is written as a YAML scalar

A text is written plainly if it then reads back as itself.  Otherwise it stands between
single quotes, or between double quotes if it has characters that need an escape or a
space next to a line break.  All that is written is printable ASCII and line feeds.
-/
namespace Replatform
namespace Yaml

/-- The ways to write a scalar. -/
inductive Style where
  | plain
  | single
  | double
  deriving DecidableEq, Repr

namespace Style

/-- A line that is longer than this is broken where it can be. -/
def lineWidth : Nat := 80

/-- `c` is a line feed or printable ASCII. -/
def isSimple (c : Char) : Bool := c = '\n' || (0x20 ≤ c.toNat && c.toNat ≤ 0x7E)

/-- A space stands next to a line feed. -/
def hasSpaceAtBreak : List Char → Bool
  | c :: d :: rest => (c = ' ' && d = '\n') || (c = '\n' && d = ' ') || hasSpaceAtBreak (d :: rest)
  | _ => false

/-- `c` starts something else than a plain scalar. -/
def isMark (c : Char) : Bool := "#,[]\x7b\x7d&*!|>'\"%@\x60".toList.contains c

/-- A mark inside the text would end a plain scalar: a colon before a blank, or a number sign
behind one. -/
def hasInnerMark : List Char → Bool
  | c :: rest =>
    (match rest with
     | [] => false
     | d :: rest => (d = ':' && isBlankOrEnd (rest.headD textEnd)) || (d = '#' && isBlankOrEnd c)) ||
      hasInnerMark rest
  | [] => false

/-- The text would not be read as a plain scalar from its first character on. -/
def startsOtherwise : List Char → Bool
  | [] => true
  | c :: rest =>
    let cs := c :: rest
    isMark c || c = ' ' ||
      ((c = '?' || c = ':' || c = '-') && isBlankOrEnd (rest.headD textEnd)) ||
      cs.take 3 = ['-', '-', '-'] || cs.take 3 = ['.', '.', '.']

/-- A plain scalar with this text reads back as the text. -/
def isPlain (s : String) : Bool :=
  let cs := s.toList
  cs.all isSimple && !cs.contains '\n' && !startsOtherwise cs && cs.getLast? != some ' ' &&
    !hasInnerMark cs && Tag.implicit s = .text

/-- The style in which a text is written. -/
def ofText (s : String) : Style :=
  let cs := s.toList
  if isPlain s then .plain
  else if cs.all isSimple && !hasSpaceAtBreak cs then .single
  else .double

/-! ### Writing in a style -/

/-- A line break and the indentation of the next line. -/
def newLine (indent : Nat) : List Char := '\n' :: List.replicate indent ' '

/-- Writes on from `column`, `before` being the character in front.  If `split` holds, a lone
space beyond the line width becomes a line break; it is neither the first nor the last
character.  A single quote is doubled where `quoted` says so, and of the line breaks in a
row one is written more. -/
def wrap (quoted split : Bool) (indent : Nat) : Option Char → Nat → List Char → List Char
  | _, _, [] => []
  | before, column, c :: rest =>
    if c = ' ' then
      let lone : Bool := before.isSome && before ≠ some ' ' && !rest.isEmpty && rest.head? ≠ some ' '
      if split && lone && lineWidth < column then
        newLine indent ++ wrap quoted split indent (some c) indent rest
      else ' ' :: wrap quoted split indent (some c) (column + 1) rest
    else if c = '\n' then
      (if before = some '\n' then [] else ['\n']) ++
        (if rest.head? = some '\n' then ['\n'] else newLine indent) ++
        wrap quoted split indent (some c) indent rest
    else if quoted && c = '\'' then
      '\'' :: '\'' :: wrap quoted split indent (some c) (column + 2) rest
    else c :: wrap quoted split indent (some c) (column + 1) rest

/-- The letter behind a backslash that stands for a character. -/
def escapeLetters : List (Char × Char) := [
  ('\x00', '0'), ('\x07', 'a'), ('\x08', 'b'), ('\t', 't'), ('\n', 'n'), ('\x0b', 'v'), ('\x0c', 'f'),
  ('\r', 'r'), ('\x1b', 'e'), ('"', '"'), ('\\', '\\'), ('\x85', 'N'), ('\xa0', '_'),
  ('\u2028', 'L'), ('\u2029', 'P')]

/-- A code between double quotes, if it is not written as a character. -/
def escape? (n : Nat) : Option (List Char) :=
  match if Text.isSurrogate n then none else escapeLetters.lookup (Char.ofNat n) with
  | some letter => some ['\\', letter]
  | none =>
    if 0x20 ≤ n ∧ n ≤ 0x7E then none
    else if n ≤ 0xFF then some ('\\' :: 'x' :: Text.upperHex 2 n)
    else if n ≤ 0xFFFF then some ('\\' :: 'u' :: Text.upperHex 4 n)
    else some ('\\' :: 'U' :: Text.upperHex 8 n)

/-- The code of the space. -/
def space : Nat := ' '.toNat

/-- A broken line between double quotes: a backslash keeps the break out of the text, and
another one keeps a space at the start of the next line in it. -/
def brokenLine (indent : Nat) (next : Option Nat) : List Char :=
  '\\' :: newLine indent ++ (if next = some space then ['\\'] else [])

/-- The column behind `brokenLine`. -/
def brokenColumn (indent : Nat) (next : Option Nat) : Nat :=
  if next = some space then indent + 1 else indent

/-- Writes between double quotes on from `column`.  `first` says that the text starts here,
`fresh` that an escape is just in front.  If `split` holds, a line beyond the width is
broken before a space, or before or behind an escape, but not at the ends of the text. -/
def wrapEscaped (split : Bool) (indent : Nat) : Bool → Bool → Nat → List Nat → List Char
  | _, _, _, [] => []
  | first, fresh, column, n :: rest =>
    let inner := split && !first && !rest.isEmpty
    match escape? n with
    | some cs =>
      if inner && lineWidth < column + cs.length - 1 then
        cs ++ brokenLine indent rest.head? ++
          wrapEscaped split indent false true (brokenColumn indent rest.head?) rest
      else cs ++ wrapEscaped split indent false true (column + cs.length) rest
    | none =>
      if inner && (n = space || fresh) && lineWidth < column then
        brokenLine indent (some n) ++ Char.ofNat n ::
          wrapEscaped split indent false false (brokenColumn indent (some n) + 1) rest
      else Char.ofNat n :: wrapEscaped split indent false false (column + 1) rest

/-- A text as a scalar that starts at `column`; further lines start at `indent`. -/
def scalar (split : Bool) (indent column : Nat) (s : String) : List Char :=
  match ofText s with
  | .plain => wrap false split indent none column s.toList
  | .single => '\'' :: wrap true split indent none (column + 1) s.toList ++ ['\'']
  | .double => '"' :: wrapEscaped split indent true false (column + 1) (Text.codes s.toList) ++ ['"']

end Style
end Yaml
end Replatform
