/-!
# Instants

An instant is a whole number of seconds since 1970-01-01T00:00:00Z, rounded down, and the
nanoseconds since that second began.  Behind any second there may be an inserted one: an instant in
it has a billion nanoseconds or more.  An instant that is made from its parts can only lie in a
second inserted at the end of a minute.  Messages carry an instant as whole milliseconds, which the
instants of an inserted second do not have.
-/

namespace EventCourier

/-- The first second that has a calendar date: the start of the year -262143. -/
def earliestSecond : Int := -8334601228800

/-- The last second that has a calendar date: the end of the year 262142. -/
def latestSecond : Int := 8210266876799

def nanosPerSecond : Nat := 1000000000

def nanosPerMilli : Nat := 1000000

/-- The seconds and nanoseconds that name an instant: the second has a date, and there is at most
one inserted second behind it. -/
def NamesInstant (secs : Int) (nanos : Nat) : Prop :=
  (earliestSecond ≤ secs ∧ secs ≤ latestSecond) ∧ nanos < 2 * nanosPerSecond

instance (secs : Int) (nanos : Nat) : Decidable (NamesInstant secs nanos) :=
  inferInstanceAs (Decidable (_ ∧ _))

/-- A point in time on the proleptic Gregorian calendar, to the nanosecond. -/
structure Instant where
  /-- Whole seconds since the epoch, rounded down. -/
  secs : Int
  nanos : Nat
  named : NamesInstant secs nanos
  deriving DecidableEq

namespace Instant

/-- The instant with the given seconds and nanoseconds, if they name one and do not insert a second
within a minute. -/
def ofParts? (secs : Int) (nanos : Nat) : Option Instant :=
  if nanosPerSecond ≤ nanos ∧ secs % 60 ≠ 59 then none
  else if h : NamesInstant secs nanos then some ⟨secs, nanos, h⟩ else none

def onLeapSecond (t : Instant) : Bool :=
  nanosPerSecond ≤ t.nanos

/-- Whole milliseconds since the epoch, rounded down; an inserted second counts as the one after
it. -/
def millis (t : Instant) : Int :=
  t.secs * 1000 + (t.nanos / nanosPerMilli : Nat)

/-- The instant a number of milliseconds after the epoch, if it has a calendar date. -/
def ofMillis? (millis : Int) : Option Instant :=
  ofParts? (millis / 1000) ((millis % 1000).toNat * nanosPerMilli)

inductive Inexact where
  /-- It lies in an inserted second, whose milliseconds are those of the second after it. -/
  | leapSecond
  | subMillisecond
  deriving DecidableEq, Repr

def Inexact.message : Inexact → String
  | .leapSecond => "falls on a leap second"
  | .subMillisecond => "has sub-millisecond precision"

/-- The milliseconds that stand for exactly this instant, or why there are none. -/
def exactMillis (t : Instant) : Except Inexact Int64 :=
  if t.onLeapSecond then .error .leapSecond
  else if t.nanos % nanosPerMilli ≠ 0 then .error .subMillisecond
  else .ok (Int64.ofInt t.millis)

/-- The instant of its whole milliseconds; an instant whose milliseconds have no date is kept. -/
def truncated (t : Instant) : Instant :=
  (ofMillis? t.millis).getD t

end Instant
end EventCourier
