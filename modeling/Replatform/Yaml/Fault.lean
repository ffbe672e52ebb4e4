import Replatform.Calendar
import Replatform.Text.Quoted

/-! # Why a YAML text has no value

Most texts without a value are malformed.  Some are well formed and hold a scalar
whose text is no number, truth value or time of the kind its tag names; such a fault
keeps what the scalar said.
-/
namespace Replatform
namespace Yaml

/-- Why a text has no value. -/
inductive Fault where
  | malformed
  /-- An escape names a code point beyond the last. -/
  | codePoint (code : Nat)
  /-- A truth value has another word. -/
  | truth (word : String)
  /-- A number has no character. -/
  | noDigits
  /-- A whole number has a character that is no digit of its base. -/
  | digits (base : Nat) (text : String)
  /-- A whole number has more decimal digits than are read. -/
  | size (digits : Nat)
  /-- A decimal fraction has another form. -/
  | fraction (text : String)
  /-- A place of a number to the base sixty is greater than any double. -/
  | place
  /-- A time has another form. -/
  | time
  /-- A time is a mapping. -/
  | timeOfMapping
  /-- The numbers of a time are out of range. -/
  | calendar (fault : Calendar.Fault)
  /-- Collections stand too deep inside one another, or the scalar that a mapping stands for
lies too deep in it. -/
  | depth
  deriving DecidableEq, Repr

/-- The most decimal digits that a whole number is read with. -/
def digitLimit : Nat := 4300

/-- The greatest code of an escape that is a number of the platform. -/
def greatestCode : Nat := 0x7FFFFFFF

/-- The wording of a fault. -/
def Fault.message : Fault → String
  | .malformed => "malformed text"
  | .codePoint code =>
    if greatestCode < code then "Python int too large to convert to C int"
    else "chr() arg not in range(0x110000)"
  | .truth word => quoted word
  | .noDigits => "string index out of range"
  | .digits base text =>
    "invalid literal for int() with base " ++ toString base ++ ": " ++
      String.ofList ((Text.quoted text.toList).take 200)
  | .size n =>
    "Exceeds the limit (" ++ toString digitLimit ++
      " digits) for integer string conversion: value has " ++ toString n ++
      " digits; use sys.set_int_max_str_digits() to increase the limit"
  | .fraction text => "could not convert string to float: " ++ quoted text
  | .place => "int too large to convert to float"
  | .time => "'NoneType' object has no attribute 'groupdict'"
  | .timeOfMapping => "expected string or bytes-like object, got 'list'"
  | .calendar fault => fault.message
  | .depth => "maximum recursion depth exceeded"

end Yaml
end Replatform
