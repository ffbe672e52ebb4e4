import Replatform.Decimal.Binary64

/-! # The shortest decimal that reads back

Every double is the nearest one to all decimals of some interval around it.  Among
them those with the fewest digits are the candidates, and of two candidates the nearer
one is chosen, of two equally near ones the one with the even last digit.
-/
namespace Replatform
namespace Binary64

/-- A positive decimal: its digits as a whole number and the power of ten they count. -/
structure Decimal where
  digits : Nat
  exponent : Int
  deriving DecidableEq, Repr

/-- How many decimal digits a number has. -/
def decimalLength (n : Nat) : Nat := (Nat.toDigits 10 n).length

/-- The exponent of the leading digit of `num / den`. -/
def leadingExponent (num den : Nat) : Int :=
  if den ≤ num then (decimalLength (num / den) : Int) - 1 else -(decimalLength ((den - 1) / num) : Int)

/-- The double `m * 2 ^ e` lies strictly nearer to, or as its even mantissa allows as near
to, the decimal `c * 10 ^ k` than to either of its neighbours.  With `m` the least
53-bit mantissa the neighbour below is at half the distance. -/
def readsBack (m : Nat) (e : Int) (c : Nat) (k : Int) : Bool :=
  -- all in quarters of `2 ^ e`
  let lowGap := if m = Nat.pow 2 52 ∧ leastExponent < e then 1 else 2
  let (num, den) := ratio 1 (e - 2)
  let (p, r) := if 0 ≤ k then (c * Nat.pow 10 k.toNat, 1) else (c, Nat.pow 10 (-k).toNat)
  let x := p * den
  let unit := r * num
  let low := (4 * m - lowGap) * unit
  let high := (4 * m + 2) * unit
  if m % 2 = 0 then low ≤ x && x ≤ high else low < x && x < high

/-- The best decimal with `n` digits, if one reads back. -/
def withDigits? (m : Nat) (e : Int) (n : Nat) : Option Decimal :=
  let (num, den) := ratio m e
  let k := leadingExponent num den - (n - 1 : Nat)
  let (p, r) := if 0 ≤ k then (num, den * Nat.pow 10 k.toNat) else (num * Nat.pow 10 (-k).toNat, den)
  let below := p / r
  let near := divEven p r
  let other := if near = below then below + 1 else below
  if readsBack m e near k then some ⟨near, k⟩
  else if readsBack m e other k then some ⟨other, k⟩
  else none

/-- The first of the digit counts from `n` on, `more` of them, at which a decimal reads
back; seventeen digits always do. -/
def shortestFrom (m : Nat) (e : Int) (n : Nat) : Nat → Decimal
  | 0 => (withDigits? m e n).getD ⟨0, 0⟩
  | more + 1 =>
    match withDigits? m e n with
    | some d => d
    | none => shortestFrom m e (n + 1) more

/-- The decimal without the zeros its digits end in; `fuel` bounds their number. -/
def Decimal.trimZeros : Nat → Decimal → Decimal
  | 0, d => d
  | fuel + 1, d =>
    if d.digits % 10 = 0 ∧ d.digits ≠ 0 then trimZeros fuel ⟨d.digits / 10, d.exponent + 1⟩ else d

/-- The shortest decimal that reads back as `m * 2 ^ e`. -/
def shortest (m : Nat) (e : Int) : Decimal := (shortestFrom m e 1 16).trimZeros 18

end Binary64
end Replatform
