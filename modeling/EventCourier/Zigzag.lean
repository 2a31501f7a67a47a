/-!
# Zigzag numbering of signed words

Signed 64-bit integers are numbered 0, -1, 1, -2, 2, … so that a small magnitude of either sign
gets a small number, which a variable-length natural then writes in few bytes.
-/

namespace EventCourier
namespace Zigzag

/-- The position of a signed word in the order 0, -1, 1, -2, 2, …: twice the word, with every bit
flipped when it is negative. -/
def encode (n : Int64) : UInt64 :=
  ((n <<< 1) ^^^ (n >>> 63)).toUInt64

/-- The signed word at a position in the order 0, -1, 1, -2, 2, …. -/
def decode (position : UInt64) : Int64 :=
  (position >>> 1).toInt64 ^^^ (-(position &&& 1).toInt64)

end Zigzag
end EventCourier
