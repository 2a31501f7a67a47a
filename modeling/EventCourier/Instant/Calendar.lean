import EventCourier.Instant

/-!
# Calendar dates and times of day

The proleptic Gregorian calendar, counted from years that begin on the first of March so that the
leap day is the last day of its year.  Dates and days since the epoch correspond one to one, and a
date with a time of day at an offset from UTC names an instant.
-/

namespace EventCourier

/-- A year, a month from 1 and a day of the month from 1. -/
structure CalendarDate where
  year : Int
  month : Nat
  day : Nat
  deriving DecidableEq, Repr

namespace CalendarDate

def isLeapYear (year : Int) : Bool :=
  year % 4 == 0 && (year % 100 != 0 || year % 400 == 0)

/-- How many days a month has; none for a number that is no month. -/
def daysInMonth (year : Int) : Nat → Nat
  | 2 => if isLeapYear year then 29 else 28
  | 4 | 6 | 9 | 11 => 30
  | 1 | 3 | 5 | 7 | 8 | 10 | 12 => 31
  | _ => 0

def exists? (date : CalendarDate) : Bool :=
  1 ≤ date.day && date.day ≤ daysInMonth date.year date.month

/-- Days from 0000-03-01 to 1970-01-01. -/
def epochShift : Int := 719468

/-- Days since 1970-01-01, negative before it. -/
def toDays (date : CalendarDate) : Int :=
  let year := if date.month ≤ 2 then date.year - 1 else date.year
  let month : Int := if date.month ≤ 2 then date.month + 9 else date.month - 3
  let era := year / 400
  let yearOfEra := year % 400
  let dayOfYear := (153 * month + 2) / 5 + date.day - 1
  let dayOfEra := yearOfEra * 365 + yearOfEra / 4 - yearOfEra / 100 + dayOfYear
  era * 146097 + dayOfEra - epochShift

def ofDays (days : Int) : CalendarDate :=
  let shifted := days + epochShift
  let era := shifted / 146097
  let dayOfEra := shifted % 146097
  let yearOfEra := (dayOfEra - dayOfEra / 1460 + dayOfEra / 36524 - dayOfEra / 146096) / 365
  let dayOfYear := dayOfEra - (365 * yearOfEra + yearOfEra / 4 - yearOfEra / 100)
  let month := (5 * dayOfYear + 2) / 153
  let day := dayOfYear - (153 * month + 2) / 5 + 1
  let calendarMonth := if month < 10 then month + 3 else month - 9
  let year := yearOfEra + era * 400
  { year := if calendarMonth ≤ 2 then year + 1 else year
    month := calendarMonth.toNat
    day := day.toNat }

end CalendarDate

/-- A time of day; the second is 60 in an inserted second. -/
structure TimeOfDay where
  hour : Nat
  minute : Nat
  second : Nat
  nanos : Nat
  deriving DecidableEq, Repr

namespace Instant

def date (t : Instant) : CalendarDate :=
  CalendarDate.ofDays (t.secs / 86400)

def timeOfDay (t : Instant) : TimeOfDay :=
  let ofDay := (t.secs % 86400).toNat
  { hour := ofDay / 3600
    minute := ofDay / 60 % 60
    second := ofDay % 60 + t.nanos / nanosPerSecond
    nanos := t.nanos % nanosPerSecond }

/-- The instant of a date and a time of day that is `offset` seconds ahead of UTC, if the date
exists and both the local time and the instant have a calendar date. -/
def ofLocal? (date : CalendarDate) (time : TimeOfDay) (offset : Int) : Option Instant :=
  if date.exists? then
    let second := min time.second 59
    let nanos := time.nanos + (time.second - 59) * nanosPerSecond
    let localSecs :=
      date.toDays * 86400 + (time.hour * 3600 + time.minute * 60 + second : Nat)
    if earliestSecond ≤ localSecs ∧ localSecs ≤ latestSecond then
      ofParts? (localSecs - offset) nanos
    else none
  else none

end Instant
end EventCourier
