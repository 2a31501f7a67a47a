/-!
# Kinds of values

A field of a payload has one of six kinds.  The kind travels in one byte before the value, so a
consumer can step over a field it does not know.
-/

namespace EventCourier

inductive Kind where
  | bool
  | int
  | text
  | bytes
  | timestamp
  | record
  deriving DecidableEq, Repr

namespace Kind

def tag : Kind → UInt8
  | .bool => 0
  | .int => 1
  | .text => 2
  | .bytes => 3
  | .timestamp => 4
  | .record => 5

/-- The kind that a byte stands for; no byte above five stands for one. -/
def ofTag? (byte : UInt8) : Option Kind :=
  if byte = 0 then some .bool
  else if byte = 1 then some .int
  else if byte = 2 then some .text
  else if byte = 3 then some .bytes
  else if byte = 4 then some .timestamp
  else if byte = 5 then some .record
  else none

/-- The name of a kind, in schemas and in diagnostics. -/
def name : Kind → String
  | .bool => "bool"
  | .int => "int"
  | .text => "text"
  | .bytes => "bytes"
  | .timestamp => "timestamp"
  | .record => "record"

theorem ofTag?_tag (kind : Kind) : ofTag? kind.tag = some kind := by
  cases kind <;> rfl

theorem tag_of_ofTag? {byte : UInt8} {kind : Kind} (h : ofTag? byte = some kind) :
    byte = kind.tag := by
  unfold ofTag? at h
  repeat' split at h
  all_goals simp_all [tag]
  all_goals subst h; rfl

end Kind
end EventCourier
