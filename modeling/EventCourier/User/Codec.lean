import EventCourier.Codec
import EventCourier.User.Records

/-!
# The codec of user events

Every event type has its schema, declared from its layout at its version, and the codec of user
events is the codec over all of them.
-/

namespace EventCourier
namespace User

def schemas : Except CodecError (List Schema) :=
  EventType.all.mapM fun eventType =>
    Schema.report eventType.name eventType.version eventType.layout

def registry : Except CodecError Registry := do
  Registry.ofSchemas Fact.family.eventTypes (← schemas)

def codec (limits : Limits) : Except CodecError (Codec Fact) := do
  return { family := Fact.family, registry := ← registry, limits }

end User
end EventCourier
