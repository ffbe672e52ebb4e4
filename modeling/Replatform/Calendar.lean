/-! # Dates and moments

Days of the Gregorian calendar and moments of such a day, to the microsecond, with or
without an offset from universal time.
-/
namespace Replatform

/-- A day. -/
structure Date where
  year : Nat
  month : Nat
  day : Nat
  deriving DecidableEq, Repr

/-- A moment of a day.  The offset, if there is one, is in minutes east of universal time. -/
structure Moment where
  date : Date
  hour : Nat
  minute : Nat
  second : Nat
  microsecond : Nat
  offset : Option Int
  deriving DecidableEq, Repr

namespace Calendar

/-- Why numbers are not those of a day or a moment. -/
inductive Fault where
  | year (n : Nat)
  | month
  | day
  | hour
  | minute
  | second
  | offset (minutes : Int)
  deriving DecidableEq, Repr

/-- A length of time in whole days and the seconds beyond, as it is shown in messages. -/
def showMinutes (minutes : Int) : String :=
  let days := minutes.fdiv 1440
  let seconds := minutes.fmod 1440 * 60
  "datetime.timedelta(" ++
    (if days = 0 then "seconds=" ++ toString seconds
     else if seconds = 0 then "days=" ++ toString days
     else "days=" ++ toString days ++ ", seconds=" ++ toString seconds) ++ ")"

/-- The wording of a fault. -/
def Fault.message : Fault → String
  | .year n => "year " ++ toString n ++ " is out of range"
  | .month => "month must be in 1..12"
  | .day => "day is out of range for month"
  | .hour => "hour must be in 0..23"
  | .minute => "minute must be in 0..59"
  | .second => "second must be in 0..59"
  | .offset minutes =>
    "offset must be a timedelta strictly between -timedelta(hours=24) and timedelta(hours=24), not " ++
      showMinutes minutes ++ "."

/-- The year has a 29th of February. -/
def isLeap (year : Nat) : Bool := year % 4 = 0 && (year % 100 != 0 || year % 400 = 0)

/-- The number of days of a month. -/
def daysIn (year month : Nat) : Nat :=
  match month with
  | 2 => if isLeap year then 29 else 28
  | 4 => 30
  | 6 => 30
  | 9 => 30
  | 11 => 30
  | _ => 31

/-- The day of the given numbers. -/
def date (year month day : Nat) : Except Fault Date :=
  if year < 1 ∨ 9999 < year then .error (.year year)
  else if month < 1 ∨ 12 < month then .error .month
  else if day < 1 ∨ daysIn year month < day then .error .day
  else .ok ⟨year, month, day⟩

/-- The moment of the given numbers.  The offset is judged first. -/
def moment (year month day hour minute second microsecond : Nat) (offset : Option Int) :
    Except Fault Moment :=
  match offset.filter fun o => 1440 ≤ o.natAbs with
  | some o => .error (.offset o)
  | none => do
    let d ← date year month day
    if 23 < hour then .error .hour
    else if 59 < minute then .error .minute
    else if 59 < second then .error .second
    else .ok ⟨d, hour, minute, second, microsecond, offset⟩

end Calendar

/-- The number of days before a day since the first of March of year zero. -/
def Date.count (d : Date) : Nat :=
  let y := if d.month ≤ 2 then d.year - 1 else d.year
  let m := if d.month ≤ 2 then d.month + 9 else d.month - 3
  365 * y + y / 4 - y / 100 + y / 400 + (153 * m + 2) / 5 + (d.day - 1)

/-- The microseconds of a moment since the count of days began, in universal time where
the moment has an offset. -/
def Moment.count (t : Moment) : Int :=
  let minutes : Int := (t.date.count * 24 + t.hour) * 60 + t.minute
  ((minutes - t.offset.getD 0) * 60 + t.second) * 1000000 + t.microsecond

/-- The two moments are the same: both have an offset or neither has, and the counts
agree. -/
def Moment.same (s t : Moment) : Bool := s.offset.isSome == t.offset.isSome && s.count == t.count

/-- A day as it is shown in messages. -/
def Date.shown (d : Date) : String :=
  "datetime.date(" ++ ", ".intercalate ([d.year, d.month, d.day].map toString) ++ ")"

/-- A moment as it is shown in messages: seconds only if they or the microseconds are not
zero, microseconds only if they are not. -/
def Moment.shown (t : Moment) : String :=
  let parts := [t.date.year, t.date.month, t.date.day, t.hour, t.minute] ++
    (if t.microsecond ≠ 0 then [t.second, t.microsecond] else if t.second ≠ 0 then [t.second] else [])
  let zone :=
    match t.offset with
    | none => ""
    | some 0 => ", tzinfo=datetime.timezone.utc"
    | some o => ", tzinfo=datetime.timezone(" ++ Calendar.showMinutes o ++ ")"
  "datetime.datetime(" ++ ", ".intercalate (parts.map toString) ++ zone ++ ")"

end Replatform
