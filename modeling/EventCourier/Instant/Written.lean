import EventCourier.Instant.Calendar

/-!
# Instants in text

An instant is written as date and time of day in UTC, `2024-02-03T04:05:06.250Z`.  Documents write
the shortest fraction that keeps the value; message headers always write milliseconds.
-/

namespace EventCourier
namespace Instant

/-- A number in decimal digits, with zeros in front up to a width. -/
def padded (width n : Nat) : List Char :=
  let digits := Nat.toDigits 10 n
  List.replicate (width - digits.length) '0' ++ digits

/-- A year: four digits from 0 to 9999, and with a sign and at least four digits beyond. -/
def writtenYear (year : Int) : List Char :=
  if 0 ≤ year ∧ year ≤ 9999 then padded 4 year.toNat
  else (if year < 0 then '-' else '+') :: padded 4 year.natAbs

/-- A fraction of a second in `places` digits, without what is finer. -/
def writtenFraction (places nanos : Nat) : List Char :=
  '.' :: padded places (nanos / Nat.pow 10 (9 - places))

/-- The fewest digits of none, three, six and nine that keep the nanoseconds. -/
def shortestFraction (nanos : Nat) : List Char :=
  if nanos = 0 then []
  else if nanos % 1000000 = 0 then writtenFraction 3 nanos
  else if nanos % 1000 = 0 then writtenFraction 6 nanos
  else writtenFraction 9 nanos

/-- Date and time of day in UTC, with the fraction written by `fraction`. -/
def written (fraction : Nat → List Char) (t : Instant) : String :=
  let date := t.date
  let time := t.timeOfDay
  String.ofList <|
    writtenYear date.year ++ '-' :: padded 2 date.month ++ '-' :: padded 2 date.day ++
    'T' :: padded 2 time.hour ++ ':' :: padded 2 time.minute ++ ':' :: padded 2 time.second ++
    fraction time.nanos ++ ['Z']

/-- The text of an instant in a document: nothing of it is lost. -/
def toText (t : Instant) : String :=
  t.written shortestFraction

/-- The text of an instant in a message header: always three fraction digits. -/
def toMillisText (t : Instant) : String :=
  t.written (writtenFraction 3)

end Instant
end EventCourier
