import EventCourier.Instant
import EventCourier.Uuid

/-!
# Event metadata

What is known of every event, whatever it is about.
-/

namespace EventCourier

structure Metadata where
  eventId : Uuid
  eventType : String
  aggregateId : Uuid
  occurredAt : Instant
  deriving DecidableEq

end EventCourier
