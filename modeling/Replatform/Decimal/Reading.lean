import Replatform.Decimal.Binary64
import Replatform.Text.Blank
import Replatform.Text.Digit

/-! # Reading numbers

Whole numbers in a base and decimal fractions, with a sign and white space around them.
Beyond ASCII any white space counts, and any decimal digit for the one of the same value;
within ASCII only the space and the controls from the tab to the carriage return do.
-/
namespace Replatform
namespace Decimal

/-- A character beyond ASCII that stands for one of ASCII in a number. -/
def toAscii (c : Char) : Char :=
  if c.toNat < 0x7F then c
  else if Text.isBlank c then ' '
  else
    match Text.digitValue? c with
    | some d => Char.ofNat ('0'.toNat + d)
    | none => '?'

/-- White space around a number. -/
def isPadding (c : Char) : Bool := c = ' ' || ('\t' ≤ c && c ≤ '\r')

/-- A number's text in ASCII, without the white space around it. -/
def bare (cs : List Char) : List Char :=
  (((cs.map toAscii).dropWhile isPadding).reverse.dropWhile isPadding).reverse

/-- A number's sign and what stands behind it. -/
def splitSign : List Char → Bool × List Char
  | '-' :: rest => (true, rest)
  | '+' :: rest => (false, rest)
  | cs => (false, cs)

/-- The value of a digit up to `z`. -/
def digit? (c : Char) : Option Nat :=
  if '0' ≤ c ∧ c ≤ '9' then some (c.toNat - '0'.toNat)
  else if 'a' ≤ c ∧ c ≤ 'z' then some (c.toNat - 'a'.toNat + 10)
  else if 'A' ≤ c ∧ c ≤ 'Z' then some (c.toNat - 'A'.toNat + 10)
  else none

/-- Reads digits below `base` onto `value`. -/
def readDigits (base value : Nat) : List Char → Option Nat
  | [] => some value
  | c :: rest =>
    match digit? c with
    | some d => if d < base then readDigits base (value * base + d) rest else none
    | none => none

/-- The letter that may stand between a leading zero and the digits of a base. -/
def baseMark? (base : Nat) : Option Char :=
  if base = 2 then some 'b' else if base = 8 then some 'o' else if base = 16 then some 'x' else none

/-- The digits behind the mark of the base, if it is there. -/
def dropBaseMark (base : Nat) : List Char → List Char
  | '0' :: c :: rest => if baseMark? base = some c.toLower then rest else '0' :: c :: rest
  | cs => cs

/-- A whole number written in `base`. -/
def readInt? (base : Nat) (cs : List Char) : Option Int :=
  let (negative, body) := splitSign (bare cs)
  match dropBaseMark base body with
  | [] => none
  | digits => (readDigits base 0 digits).map (Binary64.signed negative ·)

/-- The decimal digits a text begins with, and the rest. -/
def spanDigits (cs : List Char) : List Nat × List Char :=
  let ds := cs.takeWhile Char.isDigit
  (ds.map fun c => c.toNat - '0'.toNat, cs.drop ds.length)

/-- The number that digits spell. -/
def ofDigits (ds : List Nat) : Nat := ds.foldl (fun n d => n * 10 + d) 0

/-- The exponent behind the digits of a fraction: nothing, or `e`, a sign and digits to the
end. -/
def readExponent? : List Char → Option Int
  | [] => some 0
  | c :: rest =>
    if c = 'e' ∨ c = 'E' then
      let (negative, body) := splitSign rest
      match spanDigits body with
      | ([], _) => none
      | (ds, []) => some (Binary64.signed negative (ofDigits ds))
      | _ => none
    else none

/-- An unsigned decimal fraction: digits with or without a point among them, at least one,
and an exponent. -/
def readUnsigned? (negative : Bool) (cs : List Char) : Option Binary64 :=
  let (whole, rest) := spanDigits cs
  let (fraction, rest) :=
    match rest with
    | '.' :: tail => spanDigits tail
    | _ => ([], rest)
  if whole.isEmpty && fraction.isEmpty then none
  else
    (readExponent? rest).map fun e =>
      Binary64.ofDecimal negative (ofDigits (whole ++ fraction)) (e - fraction.length)

/-- A signed decimal fraction or the name of a number that is not finite, in either
case. -/
def readSigned? (cs : List Char) : Option Binary64 :=
  let (negative, body) := splitSign cs
  let name := body.map Char.toLower
  if name = "inf".toList ∨ name = "infinity".toList then some (.infinite negative)
  else if name = "nan".toList then some .notANumber
  else readUnsigned? negative body

/-- A decimal fraction with white space around it. -/
def readFloat? (cs : List Char) : Option Binary64 := readSigned? (bare cs)

end Decimal
end Replatform
