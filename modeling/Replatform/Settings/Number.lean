import Replatform.Decimal.Reading
import Replatform.Schema.Reader

/-! # Numbers in settings

Whole numbers and decimal fractions, as numbers or as texts.  A text may have white
space around the number and single underscores inside it, and its digits are those of
ASCII.  In front of a whole number there may be zeros, before its minus sign or behind
it, and behind it a point with zeros.
-/
namespace Replatform
namespace Settings
namespace Number

open Schema

/-- White space around a number: the information separators of ASCII are none here. -/
def isPadding (c : Char) : Bool := Text.isBlank c && !(0x1C ≤ c.toNat && c.toNat ≤ 0x1F)

/-- The text without the white space around it. -/
def trim (cs : List Char) : List Char :=
  ((cs.dropWhile isPadding).reverse.dropWhile isPadding).reverse

/-- Two underscores stand side by side. -/
def hasDoubleLine : List Char → Bool
  | '_' :: '_' :: _ => true
  | _ :: rest => hasDoubleLine rest
  | [] => false

/-- The text without its underscores, if they stand one by one between other characters. -/
def dropLines (cs : List Char) : List Char :=
  if cs.head? = some '_' || cs.getLast? = some '_' || hasDoubleLine cs then cs
  else cs.filter (· ≠ '_')

/-- `c` starts a whole number that is not zero. -/
def startsNumber (c : Char) : Bool := ('1' ≤ c && c ≤ '9') || c = '-'

/-- The text without a plus sign in front. -/
def dropPlus : List Char → List Char
  | '+' :: '-' :: rest => '+' :: '-' :: rest
  | '+' :: rest => rest
  | cs => cs

/-- The text without the zeros in front, among which there may be underscores.  The last of them
stays if nothing or a point follows. -/
def dropZeros : List Char → Option (List Char)
  | [] => none
  | c :: rest =>
    if startsNumber c then some (c :: rest)
    else if c = '0' then
      let zeros := rest.takeWhile fun c => c = '0' || c = '_'
      let last := zeros.getLast?.getD '0'
      match rest.drop zeros.length with
      | [] => some [last]
      | '.' :: tail => some (last :: '.' :: tail)
      | c :: tail => if startsNumber c then some (c :: tail) else none
    else none

/-- The digits without a point and zeros behind it. -/
def dropFraction (cs : List Char) : List Char :=
  match cs.dropWhile (· ≠ '.') with
  | '.' :: '0' :: zeros => if zeros.all (· = '0') then cs.takeWhile (· ≠ '.') else cs
  | _ => cs

/-- The most digits of a whole number in a text. -/
def digitLimit : Nat := 4300

/-- A whole number that is written as digits alone, perhaps behind a minus sign. -/
def intOfDigits (cs : List Char) : Except Problem Int :=
  let (negative, body) :=
    match cs with
    | '-' :: rest => (true, rest)
    | _ => (false, cs)
  let front := body.takeWhile Char.isDigit
  if body = ['0'] then .ok 0
  else if front.isEmpty || front.head? = some '0' then .error .intForm
  else if digitLimit < front.length then .error .intSize
  else if front.length < body.length then .error .intForm
  else .ok (Binary64.signed negative (Decimal.ofDigits (front.map fun c => c.toNat - '0'.toNat)))

/-- The digits of a whole number, without what else may be written around and among them. -/
def bareDigits (cs : List Char) : Option (List Char) :=
  let digits :=
    match dropPlus (trim cs) with
    | '-' :: rest => (dropZeros rest).map ('-' :: ·)
    | cs => dropZeros cs
  digits.map (dropLines ∘ dropFraction)

/-- A whole number in a text.  That it has too many digits is said only of a text that starts with
them. -/
def intOfText (cs : List Char) : Checked Int :=
  match intOfDigits cs, (bareDigits cs).map intOfDigits with
  | .ok n, _ => .ok n
  | .error .intSize, _ => .fail .intSize
  | .error _, some (.ok n) => .ok n
  | .error _, _ => .fail .intForm

/-- A whole number. -/
def int : Reader Int
  | .int n => .ok n
  | .bool b => .ok (if b then 1 else 0)
  | .float x =>
    if x.isFinite then
      match x.toInt? with
      | some n => if Reader.isWide n && n ≠ -Reader.wideBound then .ok n else .fail .intSize
      | none => .fail .intFraction
    else .fail .notFinite
  | .text s => intOfText s.toList
  | _ => .fail .notInt

/-- A decimal fraction in a text.  With underscores in it, the text must have no white space
around the number. -/
def floatOfText (cs : List Char) : Checked Binary64 :=
  match Decimal.readSigned? (trim cs), Decimal.readSigned? (dropLines cs) with
  | some x, _ => .ok x
  | none, some x => .ok x
  | none, none => .fail .floatForm

/-- A decimal fraction. -/
def float : Reader Binary64
  | .float x => .ok x
  | .int n => if (Binary64.ofInt n).isFinite then .ok (.ofInt n) else .fail .notFloat
  | .bool b => .ok (.ofInt (if b then 1 else 0))
  | .text s => floatOfText s.toList
  | _ => .fail .notFloat

end Number
end Settings
end Replatform
