/-!
# Byte strings

Everything the codecs produce and consume is a finite string of octets.  This file fixes that
type, the exact split that bounds-checked reading rests on, and the lower-case hexadecimal form
in which digests and fingerprints are shown.
-/

namespace EventCourier

/-- A string of octets, first octet first. -/
abbrev Bytes := List UInt8

namespace Bytes

/-- Whether a byte string has at least `count` bytes; it looks at no more than `count` of them. -/
def reaches : Nat → Bytes → Bool
  | 0, _ => true
  | _ + 1, [] => false
  | count + 1, _ :: rest => reaches count rest

theorem reaches_iff {count : Nat} {bytes : Bytes} :
    reaches count bytes = true ↔ count ≤ bytes.length := by
  induction count generalizing bytes with
  | zero => simp [reaches]
  | succ count ih =>
    cases bytes with
    | nil => simp [reaches]
    | cons byte rest => simp [reaches, ih]

/-- The digit for a number below sixteen, letters in lower case. -/
def hexDigit (n : Nat) : Char :=
  if n < 10 then Char.ofNat (48 + n) else Char.ofNat (87 + n)

/-- Two lower-case hexadecimal digits, high half first. -/
def hexPair (byte : UInt8) : List Char :=
  [hexDigit (byte.toNat / 16), hexDigit (byte.toNat % 16)]

def hex (bytes : Bytes) : String :=
  String.ofList (bytes.flatMap hexPair)

/-- A 64-bit word as eight bytes, most significant first. -/
def ofWord (word : UInt64) : Bytes :=
  [(word >>> 56).toUInt8, (word >>> 48).toUInt8, (word >>> 40).toUInt8, (word >>> 32).toUInt8,
   (word >>> 24).toUInt8, (word >>> 16).toUInt8, (word >>> 8).toUInt8, word.toUInt8]

/-- The number that a byte string spells in base 256, most significant byte first. -/
def toNat (bytes : Bytes) : Nat :=
  bytes.foldl (fun value byte => value * 256 + byte.toNat) 0

/-- The word that eight bytes spell, most significant first. -/
def toWord (bytes : Bytes) : UInt64 :=
  UInt64.ofNat bytes.toNat

end Bytes

end EventCourier
