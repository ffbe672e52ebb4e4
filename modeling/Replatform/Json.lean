import Replatform.Value

/-! # Values as JSON

A value is written on one line, with a space behind each comma and colon.  All that is
written is ASCII: other characters are escaped, those beyond sixteen bits as two
surrogates.  What JSON has no form for is written as the text that shows it.
-/
namespace Replatform
namespace Json

/-- A code of sixteen bits as an escape. -/
def escape (n : Nat) : List Char := '\\' :: 'u' :: Text.hex 4 n

/-- A code between quotes. -/
def ofCode (n : Nat) : List Char :=
  if n = '"'.toNat then ['\\', '"']
  else if n = '\\'.toNat then ['\\', '\\']
  else if n = 0x0A then ['\\', 'n']
  else if n = 0x0D then ['\\', 'r']
  else if n = 0x09 then ['\\', 't']
  else if n = 0x0C then ['\\', 'f']
  else if n = 0x08 then ['\\', 'b']
  else if 0x20 ≤ n ∧ n ≤ 0x7E then [Char.ofNat n]
  else if n < 0x10000 then escape n
  else escape (0xD800 + (n - 0x10000) / 0x400) ++ escape (0xDC00 + (n - 0x10000) % 0x400)

/-- A text between quotes. -/
def ofText (s : String) : String :=
  String.ofList ('"' :: (Text.codes s.toList).flatMap ofCode ++ ['"'])

/-- A number; the infinite ones and what is not a number have names. -/
def ofFloat : Binary64 → String
  | .infinite negative => if negative then "-Infinity" else "Infinity"
  | .notANumber => "NaN"
  | x => x.text

/-- A key of an object. -/
def keyText : Value → String
  | .text s => s
  | .null => "null"
  | .bool b => if b then "true" else "false"
  | .float x => ofFloat x
  | v => v.shown

mutual

/-- A value. -/
def ofValue : Value → String
  | .null => "null"
  | .bool b => if b then "true" else "false"
  | .int n => toString n
  | .float x => ofFloat x
  | .text s => ofText s
  | .list items => "[" ++ ", ".intercalate (ofItems items) ++ "]"
  | .pair a b => "[" ++ ofValue a ++ ", " ++ ofValue b ++ "]"
  | .map entries => "\x7b" ++ ", ".intercalate (ofEntries entries) ++ "\x7d"
  | v => ofText v.shown

/-- The items of a list. -/
def ofItems : List Value → List String
  | [] => []
  | v :: rest => ofValue v :: ofItems rest

/-- The entries of an object. -/
def ofEntries : List (Value × Value) → List String
  | [] => []
  | (k, v) :: rest => (ofText (keyText k) ++ ": " ++ ofValue v) :: ofEntries rest

end

end Json
end Replatform
