import Replatform.Text.Utf8

/-! # Texts for the operating system

The operating system takes texts as bytes, up to a null byte.  So a text with the null
character cannot be handed over, and neither can one with a surrogate, unless it is one
of those that stand for a single byte of a name that is no UTF-8.
-/
namespace Replatform
namespace Text

/-- The code is a surrogate that stands for a byte. -/
def isByte (code : Nat) : Bool := 0xDC80 ≤ code && code < 0xDD00

/-- The code is a surrogate for which there are no bytes. -/
def isByteless (code : Nat) : Bool := isSurrogate code && !isByte code

/-- The wording of an error of the operating system. -/
def errno (number : Nat) (wording : String) : String :=
  "[Errno " ++ toString number ++ "] " ++ wording

/-- Why a text cannot be handed over. -/
inductive Unusable where
  | embeddedNull
  | unencodable (obstacle : Utf8.Obstacle)
  deriving DecidableEq, Repr

/-- The wording of the fault. -/
def Unusable.message : Unusable → String
  | .embeddedNull => "embedded null byte"
  | .unencodable obstacle => obstacle.message

/-- The first surrogates of some codes that have no bytes, with all surrogates behind them. -/
def byteless? (ns : List Nat) : Option Utf8.Obstacle :=
  match ns.dropWhile (!isByteless ·) with
  | [] => none
  | code :: rest =>
    some ⟨(ns.takeWhile (!isByteless ·)).length, code, (rest.takeWhile isSurrogate).length⟩

/-- What keeps a text from being handed over.  It is encoded before it is searched for a null. -/
def unusable? (s : String) : Option Unusable :=
  match byteless? (codes s.toList) with
  | some obstacle => some (.unencodable obstacle)
  | none => if (codes s.toList).contains 0 then some .embeddedNull else none

/-- The bytes as which a text is handed over. -/
def native (s : String) : List UInt8 :=
  (codes s.toList).flatMap fun n =>
    if isByte n then [UInt8.ofNat (n - 0xDC00)] else Utf8.encodeChar (Char.ofNat n)

end Text
end Replatform
