import EventCourier.Bytes

/-!
# Variable-length naturals

A natural number is written in groups of seven bits, least significant group first.  Every byte
but the last has its top bit set.  Any natural has a written form; a reader accepts a number that
fits 64 bits, in at most ten bytes and not necessarily in its shortest form.
-/

namespace EventCourier
namespace Varint

inductive Fault where
  | truncated
  /-- The number does not fit 64 bits, or it has more than ten bytes. -/
  | overflow
  deriving DecidableEq, Repr

def Fault.message : Fault → String
  | .truncated => "truncated varint"
  | .overflow => "varint overflows 64 bits"

def encode (n : Nat) : Bytes :=
  if n < 128 then [UInt8.ofNat n]
  else UInt8.ofNat (n % 128 + 128) :: encode (n / 128)
termination_by n
decreasing_by omega

def maxBytes : Nat := 10

/-- The seven bits of the group at an index, at their place in a word. -/
def place (byte : UInt8) (index : Nat) : UInt64 :=
  (byte &&& 127).toUInt64 <<< (7 * index).toUInt64

/-- Reads on from the group at an index, into a word that holds the groups before it.  The last
group there can be brings the top bit of the word and nothing else. -/
def decodeFrom (index : Nat) (word : UInt64) : Bytes → Except Fault (UInt64 × Nat)
  | [] => .error .truncated
  | byte :: rest =>
    if index = maxBytes - 1 ∧ 1 < byte then .error .overflow
    else if byte &&& 128 = 0 then .ok (word ||| place byte index, index + 1)
    else decodeFrom (index + 1) (word ||| place byte index) rest

/-- Reads the number at the front of a byte string, and how many bytes it takes. -/
def decode (bytes : Bytes) : Except Fault (UInt64 × Nat) :=
  decodeFrom 0 0 (bytes.take maxBytes)

/-- How many bits a number needs; zero needs one. -/
def significantBits (n : Nat) : Nat :=
  max 1 (if n = 0 then 0 else n.log2 + 1)

def encodedLen (n : Nat) : Nat :=
  (significantBits n + 6) / 7

theorem decodeFrom_used {index used : Nat} {word value : UInt64} {bytes : Bytes}
    (hread : decodeFrom index word bytes = .ok (value, used)) :
    index < used ∧ used ≤ index + bytes.length := by
  induction bytes generalizing index word with
  | nil => simp [decodeFrom] at hread
  | cons byte rest ih =>
    rw [List.length_cons]
    unfold decodeFrom at hread
    split at hread
    · cases hread
    · split at hread
      · cases hread
        omega
      · have hbound := ih hread
        omega

/-- A number that was read takes at least one byte, and no more than there are. -/
theorem decode_used {bytes : Bytes} {value : UInt64} {used : Nat}
    (hread : decode bytes = .ok (value, used)) : 0 < used ∧ used ≤ bytes.length := by
  have hbound := decodeFrom_used hread
  rw [List.length_take] at hbound
  omega

end Varint
end EventCourier
