/-! # Base 64

Reading the four-characters-for-three-bytes form.  Characters outside the alphabet
are skipped, and so is all that follows the padding of a complete group.
-/
namespace Replatform
namespace Base64

/-- The value of a character of the alphabet. -/
def digit? (c : Char) : Option Nat :=
  if 'A' ≤ c ∧ c ≤ 'Z' then some (c.toNat - 'A'.toNat)
  else if 'a' ≤ c ∧ c ≤ 'z' then some (c.toNat - 'a'.toNat + 26)
  else if '0' ≤ c ∧ c ≤ '9' then some (c.toNat - '0'.toNat + 52)
  else if c = '+' then some 62
  else if c = '/' then some 63
  else none

/-- Reads on with `place` characters of the current group behind, of which `carry` bits
are left over, and `pads` padding characters in a row; `none` if the characters end
inside a group. -/
def decodeFrom : Nat → Nat → Nat → List Char → Option (List UInt8)
  | place, _, _, [] => if place = 0 then some [] else none
  | place, carry, pads, c :: rest =>
    if c = '=' then
      if 2 ≤ place ∧ 4 ≤ place + (pads + 1) then some []
      else decodeFrom place carry (if 2 ≤ place then pads + 1 else pads) rest
    else
      match digit? c with
      | none => decodeFrom place carry pads rest
      | some d =>
        match place with
        | 0 => decodeFrom 1 d 0 rest
        | 1 => (decodeFrom 2 (d % 16) 0 rest).map (UInt8.ofNat (carry * 4 + d / 16) :: ·)
        | 2 => (decodeFrom 3 (d % 4) 0 rest).map (UInt8.ofNat (carry * 16 + d / 4) :: ·)
        | _ => (decodeFrom 0 0 0 rest).map (UInt8.ofNat (carry * 64 + d) :: ·)

/-- The bytes of a base 64 text. -/
def decode (cs : List Char) : Option (List UInt8) := decodeFrom 0 0 0 cs

end Base64
end Replatform
