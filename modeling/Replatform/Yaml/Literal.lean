import Replatform.Decimal.Reading
import Replatform.Text.Base64
import Replatform.Text.Case
import Replatform.Text.Split
import Replatform.Value
import Replatform.Yaml.Tag

/-! # The values of YAML scalars

A scalar is read as its tag says.
-/
namespace Replatform
namespace Yaml

/-- The number of decimal digits that a number begins with. -/
def decimalDigits (cs : List Char) : Nat :=
  (Decimal.spanDigits (Decimal.splitSign (Decimal.bare cs)).2).1.length

/-- A whole number in a base.  The decimal digits of one must not be too many. -/
def readLiteral (base : Nat) (cs : List Char) : Except Fault Int :=
  if base = 10 ∧ digitLimit < decimalDigits cs then .error (.size (decimalDigits cs))
  else
    match Decimal.readInt? base cs with
    | some n => .ok n
    | none => .error (.digits base (String.ofList cs))

/-- The sign in front of a number and the rest; there has to be a character. -/
def takeSign (cs : List Char) : Except Fault (Bool × List Char) :=
  if cs.isEmpty then .error .noDigits else .ok (Decimal.splitSign cs)

/-- A whole number without its sign.  The first characters tell the base, and colons separate
digits to the base sixty. -/
def readSize : List Char → Except Fault Int
  | [] => .error .noDigits
  | ['0'] => .ok 0
  | '0' :: 'b' :: rest => readLiteral 2 rest
  | '0' :: 'x' :: rest => readLiteral 16 rest
  | '0' :: rest => readLiteral 8 ('0' :: rest)
  | body =>
    if body.contains ':' then
      ((Text.splitAt ':' body).mapM (readLiteral 10)).map (List.foldl (fun n d => n * 60 + d) 0)
    else readLiteral 10 body

/-- A whole number.  Underscores do not count. -/
def readInt (cs : List Char) : Except Fault Int := do
  let (negative, body) ← takeSign (cs.filter (· ≠ '_'))
  let size ← readSize body
  return if negative then -size else size

/-- A decimal fraction in one of the usual forms. -/
def readFraction (cs : List Char) : Except Fault Binary64 :=
  match Decimal.readFloat? cs with
  | some x => .ok x
  | none => .error (.fraction (String.ofList cs))

/-- The number with the given digits to the base sixty, the last first.  A place beyond the
doubles is none. -/
def sixties : Int → Binary64 → List Binary64 → Except Fault Binary64
  | _, sum, [] => .ok sum
  | place, sum, d :: rest =>
    match Binary64.ofInt place with
    | .infinite _ => .error .place
    | x => sixties (place * 60) (sum.add (d.mul x)) rest

/-- The name of what is not a number. -/
def nanName : List Char := ".nan".toList

/-- A decimal fraction without its sign, in lower case.  Colons separate digits to the base
sixty. -/
def readMagnitude (body : List Char) : Except Fault Binary64 :=
  if body = ".inf".toList then .ok (.infinite false)
  else if body = nanName then .ok .notANumber
  else if body.contains ':' then do
    let parts ← (Text.splitAt ':' body).mapM readFraction
    sixties 1 (.zero false) parts.reverse
  else readFraction body

/-- A decimal fraction's sign and the rest.  Underscores and the case of letters do not
count. -/
def takeFloatSign (cs : List Char) : Except Fault (Bool × List Char) :=
  takeSign (Text.lower (cs.filter (· ≠ '_')))

/-- A decimal fraction. -/
def readFloat (cs : List Char) : Except Fault Binary64 := do
  let (negative, body) ← takeFloatSign cs
  let size ← readMagnitude body
  return if negative then size.neg else size

/-- The text is the name of what is not a number. -/
def namesNaN (cs : List Char) : Bool :=
  match takeFloatSign cs with
  | .ok (_, body) => body = nanName
  | .error _ => false

/-- The truth values by word. -/
def truths : List (String × Bool) :=
  [("yes", true), ("no", false), ("true", true), ("false", false), ("on", true), ("off", false)]

/-- A truth value; the case of the word does not count. -/
def readBool (cs : List Char) : Except Fault Bool :=
  let word := String.ofList (Text.lower cs)
  match truths.lookup word with
  | some b => .ok b
  | none => .error (.truth word)

/-- A string of bytes in base 64. -/
def readBinary (cs : List Char) : Except Fault (List UInt8) :=
  if cs.any fun c => 0x80 ≤ c.toNat then .error .malformed
  else
    match Base64.decode cs with
    | some bytes => .ok bytes
    | none => .error .malformed

/-- A day or a moment. -/
def readTime (cs : List Char) : Except Fault Value :=
  match Timestamp.read? (Tag.dropLineFeed cs) with
  | none => .error .time
  | some ⟨year, month, day, none⟩ =>
    match Calendar.date year month day with
    | .ok d => .ok (.date d)
    | .error fault => .error (.calendar fault)
  | some ⟨year, month, day, some t⟩ =>
    match Calendar.moment year month day t.hour t.minute t.second t.microsecond t.zone.minutes with
    | .ok m => .ok (.moment m)
    | .error fault => .error (.calendar fault)

/-- The value of a scalar of a kind. -/
def readScalar (tag : Tag) (text : String) : Except Fault Value :=
  let cs := text.toList
  match tag with
  | .null => .ok .null
  | .bool => (readBool cs).map .bool
  | .int => (readInt cs).map .int
  | .float => (readFloat cs).map .float
  | .binary => (readBinary cs).map .bytes
  | .timestamp => readTime cs
  | .text => .ok (.text text)
  | _ => .error .malformed

end Yaml
end Replatform
