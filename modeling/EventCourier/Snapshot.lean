import EventCourier.Error
import EventCourier.Value

/-!
# Families of snapshots

A snapshot is a value that an event carries.  A family says which event types its snapshots have
and how each snapshot becomes a record and is rebuilt from one; everything on the wire is the
codec's work.
-/

namespace EventCourier

structure SnapshotFamily (σ : Type) where
  eventTypes : List String
  eventType : σ → String
  toRecord : σ → Record
  fromRecord : String → Record → Except CodecError σ

structure TaggedRecord where
  eventType : String
  record : Record

def TaggedRecord.family (eventTypes : List String) : SnapshotFamily TaggedRecord where
  eventTypes := eventTypes
  eventType := (·.eventType)
  toRecord := (·.record)
  fromRecord eventType record := .ok ⟨eventType, record⟩

end EventCourier
