import EventCourier.Instant.Calendar
import EventCourier.Text.Whitespace

/-!
# Reading instants from text

A reader takes more than the writer produces: white space before a number and around separators,
one-digit months and times, a space or a lower-case letter between date and time, any number of
fraction digits, and any offset from UTC.  What it takes it converts to UTC.
-/

namespace EventCourier
namespace Instant

/-- Splits off at most `limit` decimal digits at the front. -/
def spanDigits (limit : Nat) (chars : List Char) : List Char × List Char :=
  let digits := (chars.take limit).takeWhile Char.isDigit
  (digits, chars.drop digits.length)

def digitsValue (digits : List Char) : Nat :=
  digits.foldl (fun value c => value * 10 + (c.toNat - 48)) 0

/-- White space, then a number of at least one and at most `limit` digits that is within bounds. -/
def readNumber? (limit low high : Nat) (chars : List Char) : Option (Nat × List Char) :=
  let (digits, rest) := spanDigits limit (Text.trimStart chars)
  let value := digitsValue digits
  if digits.isEmpty || value < low || high < value then none else some (value, rest)

/-- White space, then a year: at most four digits, or a sign and any number of them. -/
def readYear? (chars : List Char) : Option (Int × List Char) :=
  match Text.trimStart chars with
  | '-' :: rest => (signed rest).map fun (value, rest) => (-(value : Int), rest)
  | '+' :: rest => (signed rest).map fun (value, rest) => ((value : Int), rest)
  | rest => (readDigitsOf 4 rest).map fun (value, rest) => ((value : Int), rest)
where
  readDigitsOf (limit : Nat) (chars : List Char) : Option (Nat × List Char) :=
    let (digits, rest) := spanDigits limit chars
    if digits.isEmpty then none else some (digitsValue digits, rest)
  signed (chars : List Char) : Option (Nat × List Char) :=
    readDigitsOf chars.length chars

/-- White space, then one given character. -/
def readMark? (mark : Char) (chars : List Char) : Option (List Char) :=
  match Text.trimStart chars with
  | c :: rest => if c = mark then some rest else none
  | [] => none

/-- A fraction of a second, in nanoseconds: a point and digits, of which the first nine count. -/
def readFraction? : List Char → Option (Nat × List Char)
  | '.' :: rest =>
    let (digits, rest) := spanDigits 9 rest
    if digits.isEmpty then none
    else some (digitsValue digits * Nat.pow 10 (9 - digits.length), rest.dropWhile Char.isDigit)
  | rest => some (0, rest)

/-- Two decimal digits, the first at most `high`. -/
def readPair? (high : Char) : List Char → Option (Nat × List Char)
  | tens :: ones :: rest =>
    if '0' ≤ tens ∧ tens ≤ high ∧ ones.isDigit then some (digitsValue [tens, ones], rest) else none
  | _ => none

/-- Seconds ahead of UTC: the letters `UTC` or `Z` in either case, or a sign, two digits of hours
and two of minutes with any colons and white space between. -/
def readOffset? (chars : List Char) : Option (Int × List Char) :=
  match chars with
  | 'Z' :: rest => some (0, rest)
  | 'z' :: rest => some (0, rest)
  | '+' :: rest => readHours 1 rest
  | '-' :: rest => readHours (-1) rest
  | '\u2212' :: rest => readHours (-1) rest
  | u :: t :: c :: rest =>
    if u.toUpper = 'U' ∧ t.toUpper = 'T' ∧ c.toUpper = 'C' then some (0, rest) else none
  | _ => none
where
  readHours (sign : Int) (chars : List Char) : Option (Int × List Char) := do
    let (hours, rest) ← readPair? '9' chars
    let rest := rest.dropWhile fun c => c = ':' || Text.isWhiteSpace c
    let (minutes, rest) ← readPair? '5' rest
    let seconds := hours * 3600 + minutes * 60
    if seconds < 86400 then some (sign * seconds, rest) else none

/-- The instant that a text names, in any spelling that the reader takes. -/
def ofText? (text : String) : Option Instant := do
  let (year, rest) ← readYear? text.toList
  let rest ← readMark? '-' rest
  let (month, rest) ← readNumber? 2 1 12 rest
  let rest ← readMark? '-' rest
  let (day, rest) ← readNumber? 2 1 31 rest
  let rest ← afterDate rest
  let (hour, rest) ← readNumber? 2 0 23 rest
  let rest ← readMark? ':' rest
  let (minute, rest) ← readNumber? 2 0 59 rest
  let rest ← readMark? ':' rest
  let (second, rest) ← readNumber? 2 0 60 rest
  let (nanos, rest) ← readFraction? rest
  let (offset, rest) ← readOffset? (Text.trimStart rest)
  if (Text.trimStart rest).isEmpty then
    ofLocal? { year, month, day } { hour, minute, second, nanos } offset
  else none
where
  afterDate : List Char → Option (List Char)
    | 'T' :: rest => some rest
    | 't' :: rest => some rest
    | ' ' :: rest => some rest
    | _ => none

end Instant
end EventCourier
