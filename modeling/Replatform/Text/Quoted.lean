import Replatform.Text.Hex
import Replatform.Text.Printable
import Replatform.Text.Surrogate

/-! # Quoted texts

How a text is shown inside a message: between single quotes, or between double
quotes if it holds a single quote and no double quote.  The backslash, the quote in
use and what has no glyph are escaped.
-/
namespace Replatform
namespace Text

/-- The quote that a text is shown between. -/
def quoteFor (cs : List Char) : Char :=
  if cs.contains '\'' && !cs.contains '"' then '"' else '\''

/-- One code between quotes. -/
def quoteCode (quote : Char) (n : Nat) : List Char :=
  let c := Char.ofNat n
  if isSurrogate n then '\\' :: 'u' :: hex 4 n
  else if c = quote ∨ c = '\\' then ['\\', c]
  else if c = '\n' then ['\\', 'n']
  else if c = '\t' then ['\\', 't']
  else if c = '\r' then ['\\', 'r']
  else if isPrintable c then [c]
  else if n < 0x100 then '\\' :: 'x' :: hex 2 n
  else if n < 0x10000 then '\\' :: 'u' :: hex 4 n
  else '\\' :: 'U' :: hex 8 n

/-- A text between quotes. -/
def quoted (cs : List Char) : List Char :=
  let quote := quoteFor cs
  quote :: (codes cs).flatMap (quoteCode quote) ++ [quote]

/-- One byte between quotes: printable ASCII as itself, any other byte by its value. -/
def quoteByte (quote : Char) (b : UInt8) : List Char :=
  let c := Char.ofNat b.toNat
  if c = quote ∨ c = '\\' then ['\\', c]
  else if c = '\n' then ['\\', 'n']
  else if c = '\t' then ['\\', 't']
  else if c = '\r' then ['\\', 'r']
  else if 0x20 ≤ b ∧ b < 0x7F then [c]
  else '\\' :: 'x' :: hex 2 b.toNat

/-- A string of bytes between quotes, with the mark `b` in front. -/
def quotedBytes (bs : List UInt8) : List Char :=
  let quote := quoteFor (bs.map fun b => Char.ofNat b.toNat)
  'b' :: quote :: bs.flatMap (quoteByte quote) ++ [quote]

end Text

/-- A string between quotes. -/
def quoted (s : String) : String := String.ofList (Text.quoted s.toList)

end Replatform
