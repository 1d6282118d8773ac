/-!
# Dates and instants

Days of the Gregorian calendar and times of day with an optional offset from universal time, as
descriptor and settings files may write them. Dates are checked here; arithmetic is only what
comparing two instants needs.
-/

namespace PageOutline

/-- A calendar day. -/
structure Date where
  year : Nat
  month : Nat
  day : Nat
deriving DecidableEq

namespace Date

/-- Whether a year has a twenty-ninth of February. -/
def isLeapYear (year : Nat) : Bool :=
  year % 4 == 0 && (year % 100 != 0 || year % 400 == 0)

/-- The number of days that a month has. -/
def daysInMonth (year month : Nat) : Nat :=
  if month = 2 then if isLeapYear year then 29 else 28
  else if month = 4 ∨ month = 6 ∨ month = 9 ∨ month = 11 then 30
  else 31

/-- The day, if there is one: years run from 1 to 9999. -/
def ofParts? (year month day : Nat) : Option Date :=
  if 1 ≤ year ∧ year ≤ 9999 ∧ 1 ≤ month ∧ month ≤ 12 ∧ 1 ≤ day ∧ day ≤ daysInMonth year month then
    some ⟨year, month, day⟩
  else none

/-- The number of days before this one since the start of year 1. -/
def dayNumber (d : Date) : Nat :=
  let y := d.year - 1
  let months := (List.range' 1 (d.month - 1)).foldl (fun n month => n + daysInMonth d.year month) 0
  365 * y + y / 4 - y / 100 + y / 400 + months + (d.day - 1)

end Date

/-- A day with a time of day; `offset?` is the offset from universal time in minutes, if one is
known. -/
structure Instant where
  date : Date
  hour : Nat
  minute : Nat
  second : Nat
  microsecond : Nat
  offset? : Option Int
deriving DecidableEq

namespace Instant

/-- The instant, if the time of day exists and the offset is less than a day. -/
def ofParts? (date : Date) (hour minute second microsecond : Nat) (offset? : Option Int) :
    Option Instant :=
  if hour < 24 ∧ minute < 60 ∧ second < 60 ∧ microsecond < 1000000 ∧
      offset?.all (fun o => -1440 < o ∧ o < 1440) then
    some ⟨date, hour, minute, second, microsecond, offset?⟩
  else none

/-- Microseconds since the start of year 1, read in the instant's own offset. -/
def microseconds (t : Instant) : Int :=
  let minutes : Int := (t.date.dayNumber * 24 + t.hour) * 60 + t.minute - t.offset?.getD 0
  (minutes * 60 + t.second) * 1000000 + t.microsecond

/-- Two instants are the same if both offsets are known or both unknown and the clocks agree. -/
def same (s t : Instant) : Bool :=
  s.offset?.isSome == t.offset?.isSome && s.microseconds == t.microseconds

end Instant

end PageOutline
