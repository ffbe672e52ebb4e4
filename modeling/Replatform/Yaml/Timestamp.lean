import Replatform.Calendar
import Replatform.Yaml.Fault

/-! # Times as YAML writes them

A day, or a day and a time of it with an offset from universal time or without.
-/
namespace Replatform
namespace Yaml

/-- A decimal digit of ASCII. -/
def digit? (c : Char) : Option Nat := if c.isDigit then some (c.toNat - '0'.toNat) else none

/-- The number that decimal digits spell. -/
def number (cs : List Char) : Nat := cs.foldl (fun n c => n * 10 + (c.toNat - '0'.toNat)) 0

/-- The offset of a time, as it is written. -/
inductive Timestamp.Zone where
  | none
  | universal
  | offset (negative : Bool) (hours minutes : Nat)
  deriving DecidableEq, Repr

/-- The time of a day, as it is written. -/
structure Timestamp.Clock where
  hour : Nat
  minute : Nat
  second : Nat
  microsecond : Nat
  zone : Timestamp.Zone
  deriving DecidableEq, Repr

/-- The numbers of a time, as they are written. -/
structure Timestamp where
  year : Nat
  month : Nat
  day : Nat
  clock : Option Timestamp.Clock
  deriving DecidableEq, Repr

namespace Timestamp

/-- Between `least` and `most` digits at the start of a text, as many as there are. -/
def takeDigits (least most : Nat) (cs : List Char) : Option (Nat × List Char) :=
  let ds := (cs.take most).takeWhile Char.isDigit
  if ds.length < least then Option.none else some (number ds, cs.drop ds.length)

/-- The text behind the character `c`. -/
def expect (c : Char) : List Char → Option (List Char)
  | d :: rest => if d = c then some rest else Option.none
  | [] => Option.none

/-- The microseconds of the digits behind the point of the seconds. -/
def micros (ds : List Char) : Nat := number ((ds ++ List.replicate 6 '0').take 6)

/-- The offset that a text consists of, behind spaces. -/
def readZone (cs : List Char) : Option Zone :=
  if cs.isEmpty then some .none
  else
    match cs.dropWhile fun c => c = ' ' || c = '\t' with
    | ['Z'] => some .universal
    | sign :: rest =>
      if sign = '+' ∨ sign = '-' then do
        let (hours, rest) ← takeDigits 1 2 rest
        if rest.isEmpty then return .offset (sign = '-') hours 0
        let (minutes, rest) ← takeDigits 2 2 (← expect ':' rest)
        if rest.isEmpty then return .offset (sign = '-') hours minutes
        failure
      else Option.none
    | [] => Option.none

/-- The text behind the mark between the day and the time. -/
def dropMark (cs : List Char) : Option (List Char) :=
  match cs with
  | 'T' :: rest => some rest
  | 't' :: rest => some rest
  | _ =>
    let rest := cs.dropWhile fun c => c = ' ' || c = '\t'
    if rest.length < cs.length then some rest else Option.none

/-- The time that a text consists of. -/
def readClock (cs : List Char) : Option Clock := do
  let (hour, rest) ← takeDigits 1 2 cs
  let (minute, rest) ← takeDigits 2 2 (← expect ':' rest)
  let (second, rest) ← takeDigits 2 2 (← expect ':' rest)
  let (fraction, rest) :=
    match rest with
    | '.' :: rest => (rest.takeWhile Char.isDigit, rest.dropWhile Char.isDigit)
    | _ => ([], rest)
  return ⟨hour, minute, second, micros fraction, ← readZone rest⟩

/-- The time that a text is. -/
def read? (cs : List Char) : Option Timestamp := do
  let (year, rest) ← takeDigits 4 4 cs
  let (month, rest) ← takeDigits 1 2 (← expect '-' rest)
  let (day, rest) ← takeDigits 1 2 (← expect '-' rest)
  if rest.isEmpty then return ⟨year, month, day, Option.none⟩
  return ⟨year, month, day, some (← readClock (← dropMark rest))⟩

/-- A text is taken for a time unasked if it has a time of day or gives month and day two
digits each. -/
def isImplicit (cs : List Char) : Bool :=
  match read? cs with
  | some t => t.clock.isSome || cs.length = 10
  | Option.none => false

/-- The minutes of an offset east of universal time. -/
def Zone.minutes : Zone → Option Int
  | .none => Option.none
  | .universal => some 0
  | .offset negative hours minutes =>
    let total : Int := hours * 60 + minutes
    some (if negative then -total else total)

end Timestamp
end Yaml
end Replatform
