import EventCourier.Envelope
import EventCourier.Instant.Reader
import EventCourier.Instant.Written
import EventCourier.Json.Fields
import EventCourier.Metadata

/-!
# Envelopes and metadata as documents

Identifiers and instants are strings in their written forms, and a payload is an array of its
octets.  Reading takes every spelling of them that a text may have.
-/

namespace EventCourier

def Uuid.toJson (id : Uuid) : Json := .text id.toText

def Instant.toJson (t : Instant) : Json := .text t.toText

namespace Json

def uuid? (doc : Json) : Option Uuid :=
  doc.text?.bind fun s => (Uuid.ofText s).toOption

def instant? (doc : Json) : Option Instant :=
  doc.text?.bind Instant.ofText?

def octet? (doc : Json) : Option UInt8 :=
  (doc.natural? 256).map UInt8.ofNat

end Json

def Metadata.toJson (metadata : Metadata) : Json :=
  .ofMembers [
    ("event_id", metadata.eventId.toJson),
    ("event_type", .text metadata.eventType),
    ("aggregate_id", metadata.aggregateId.toJson),
    ("occurred_at", metadata.occurredAt.toJson)]

def Metadata.ofJson? (doc : Json) : Option Metadata := do
  let fields ← doc.fields? ["event_id", "event_type", "aggregate_id", "occurred_at"]
  match fields with
  | [eventId, eventType, aggregateId, occurredAt] =>
    return {
      eventId := ← Json.required? Json.uuid? eventId
      eventType := ← Json.required? Json.text? eventType
      aggregateId := ← Json.required? Json.uuid? aggregateId
      occurredAt := ← Json.required? Json.instant? occurredAt }
  | _ => none

def Envelope.toJson (envelope : Envelope) : Json :=
  .ofMembers [
    ("event_id", .text envelope.eventId),
    ("timestamp", envelope.timestamp.toJson),
    ("source", .text envelope.source),
    ("aggregate_type", .text envelope.aggregateType),
    ("aggregate_id", .text envelope.aggregateId),
    ("event_type", .text envelope.eventType),
    ("payload", .array (envelope.payload.map fun octet => .natural octet.toNat))]

def Envelope.ofJson? (doc : Json) : Option Envelope := do
  let fields ← doc.fields?
    ["event_id", "timestamp", "source", "aggregate_type", "aggregate_id", "event_type", "payload"]
  match fields with
  | [eventId, timestamp, source, aggregateType, aggregateId, eventType, payload] =>
    return {
      eventId := ← Json.required? Json.text? eventId
      timestamp := ← Json.required? Json.instant? timestamp
      source := ← Json.required? Json.text? source
      aggregateType := ← Json.required? Json.text? aggregateType
      aggregateId := ← Json.required? Json.text? aggregateId
      eventType := ← Json.required? Json.text? eventType
      payload := ← (← Json.required? Json.items? payload).mapM Json.octet? }
  | _ => none

end EventCourier
