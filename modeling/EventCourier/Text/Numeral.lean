/-!
# Natural numbers in text

A setting that is a number is written as decimal digits, with an optional plus sign.  The number
must fit 64 bits.
-/

namespace EventCourier
namespace Text

inductive NumeralFault where
  | empty
  | invalidDigit
  | tooLarge
  deriving DecidableEq, Repr

def NumeralFault.message : NumeralFault → String
  | .empty => "cannot parse integer from empty string"
  | .invalidDigit => "invalid digit found in string"
  | .tooLarge => "number too large to fit in target type"

/-- Reads digits after a number already read; the first digit that is none, or that makes the
number too large, decides the fault. -/
def readDigits (value : Nat) : List Char → Except NumeralFault Nat
  | [] => .ok value
  | c :: rest =>
    if '0' ≤ c ∧ c ≤ '9' then
      let next := value * 10 + (c.toNat - 48)
      if next < UInt64.size then readDigits next rest else .error .tooLarge
    else .error .invalidDigit

/-- The 64-bit natural number that a text is: an optional plus sign and decimal digits. -/
def readNumeral (s : String) : Except NumeralFault UInt64 :=
  let read (digits : List Char) := (readDigits 0 digits).map UInt64.ofNat
  match s.toList with
  | [] => .error .empty
  | ['+'] => .error .invalidDigit
  | '+' :: digits => read digits
  | digits => read digits

end Text
end EventCourier
