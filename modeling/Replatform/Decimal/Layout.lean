import Replatform.Decimal.Shortest

/-! # The layout of a number's digits

A layout says where positional notation ends and how the rest is spelled; the digits
are the shortest that read back.
-/
namespace Replatform
namespace Decimal

/-- How the digits of a double are laid out. -/
structure Layout where
  /-- The least exponent of the leading digit that is written positionally. -/
  leastPositional : Int
  /-- The greatest exponent of the leading digit that is written positionally. -/
  greatestPositional : Int
  /-- The least number of digits of a written exponent. -/
  exponentWidth : Nat
  infinityText : List Char
  notANumberText : List Char

/-- Numbers from a ten-thousandth to below ten to the sixteenth are written positionally,
with at least one digit behind the point; an exponent has a sign and two digits at
least. -/
def plainLayout : Layout where
  leastPositional := -4
  greatestPositional := 15
  exponentWidth := 2
  infinityText := "inf".toList
  notANumberText := "nan".toList

/-- The digits of `n`, padded with zeros in front to `width`. -/
def padded (width n : Nat) : List Char :=
  let ds := Nat.toDigits 10 n
  List.replicate (width - ds.length) '0' ++ ds

/-- The digits `ds` with the point after the first `whole` of them; missing digits are
zeros. -/
def positional (ds : List Char) (whole : Int) : List Char :=
  if whole ≤ 0 then '0' :: '.' :: List.replicate (-whole).toNat '0' ++ ds
  else
    let front := ds.take whole.toNat
    let back := ds.drop whole.toNat
    front ++ List.replicate (whole.toNat - front.length) '0' ++ '.' :: (if back.isEmpty then ['0'] else back)

/-- The digits `ds` with the point after the first, and the exponent of the first. -/
def scientific (layout : Layout) (ds : List Char) (lead : Int) : List Char :=
  let fraction := ds.drop 1
  ds.take 1 ++ (if fraction.isEmpty then [] else '.' :: fraction) ++
    'e' :: (if lead < 0 then '-' else '+') :: padded layout.exponentWidth lead.natAbs

/-- The text of a double. -/
def Layout.text (layout : Layout) : Binary64 → List Char
  | .notANumber => layout.notANumberText
  | .infinite negative => (if negative then ['-'] else []) ++ layout.infinityText
  | .finite negative m e =>
    let d : Binary64.Decimal := if m = 0 then ⟨0, 0⟩ else Binary64.shortest m e
    let ds := Nat.toDigits 10 d.digits
    let lead : Int := ds.length - 1 + d.exponent
    (if negative then ['-'] else []) ++
      (if layout.leastPositional ≤ lead ∧ lead ≤ layout.greatestPositional then positional ds (lead + 1)
       else scientific layout ds lead)

end Decimal

/-- The text of a double in the plain layout. -/
def Binary64.text (x : Binary64) : String := String.ofList (Decimal.plainLayout.text x)

end Replatform
