/-! # Sets of characters as ranges of code points -/
namespace Replatform
namespace Text

/-- A set of code points: closed ranges in ascending order. -/
abbrev Ranges := List (Nat × Nat)

/-- The set holds `n`: some range, found before the ranges pass `n`, reaches it. -/
def Ranges.has (n : Nat) : Ranges → Bool
  | [] => false
  | (lo, hi) :: rest => if n < lo then false else if n ≤ hi then true else Ranges.has n rest

/-- The set holds the character `c`. -/
def Ranges.covers (r : Ranges) (c : Char) : Bool := r.has c.toNat

end Text
end Replatform
