/-!
# Size limits

A codec refuses to write or read beyond its limits, so that a message from elsewhere cannot make
it hold more than was foreseen.
-/

namespace EventCourier

structure Limits where
  maxFieldBytes : UInt64 := 65536
  maxPayloadBytes : UInt64 := 1048576
  /-- How many records may lie within one another below a payload's own fields. -/
  maxDepth : UInt64 := 8
  deriving DecidableEq, Repr

namespace Limits

def inspect (limits : Limits) : String :=
  "CodecLimits \x7b max_field_bytes: " ++ toString limits.maxFieldBytes ++
    ", max_payload_bytes: " ++ toString limits.maxPayloadBytes ++
    ", max_depth: " ++ toString limits.maxDepth ++ " \x7d"

end Limits
end EventCourier
