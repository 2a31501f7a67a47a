/-!
# What makes a schema unacceptable

The rules that let old and new versions of a payload be read by one another are enforced when a
schema is declared.  Each rule has a fault that names the field, by its path from the event type.
-/

namespace EventCourier

inductive SchemaFault where
  | emptyEventType
  | versionZero (eventType : String)
  | reservedId (path : String)
  | duplicateId (path : String) (id : UInt32)
  | retiredId (path : String) (id : UInt32)
  /-- The field is said to be introduced before the first version or after the current one. -/
  | sinceOutside (path : String) (since version : UInt32)
  /-- A field that older payloads lack is required. -/
  | lateRequired (path : String)
  | layoutMissing (path : String)
  | layoutUnexpected (path : String)
  deriving DecidableEq, Repr

def SchemaFault.message : SchemaFault → String
  | .emptyEventType => "schema event type is empty"
  | .versionZero eventType => s!"schema {eventType}: version 0 is reserved"
  | .reservedId path => s!"invalid schema {path}: field id 0 is reserved"
  | .duplicateId path id => s!"invalid schema {path}: duplicate field id {id}"
  | .retiredId path id => s!"invalid schema {path}: field id {id} is retired"
  | .sinceOutside path since version =>
    s!"invalid schema {path}: since {since} is outside 1..={version}"
  | .lateRequired path => s!"invalid schema {path}: fields added after version 1 must be optional"
  | .layoutMissing path => s!"invalid schema {path}: record field without a layout"
  | .layoutUnexpected path => s!"invalid schema {path}: layout on a non-record field"

end EventCourier
