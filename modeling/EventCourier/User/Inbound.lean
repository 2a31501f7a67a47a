import EventCourier.User.Codec

/-!
# User events from the broker

A consumer rebuilds an event from an envelope.  The envelope must be about a user, its ids must be
identifiers, and its payload must be about the same user as the envelope.
-/

namespace EventCourier
namespace User

def envelopeId (name s : String) : Except CodecError Uuid :=
  match Uuid.ofText s with
  | .ok id => .ok id
  | .error fault => .error (.decoding (.envelopeNotUuid name fault))

def decodeEvent (codec : Codec Fact) (bytes : Bytes) : Except CodecError Event := do
  let envelope ← codec.decodeEnvelope bytes
  if envelope.aggregateType ≠ aggregateType then
    throw (.decoding (.aggregateType aggregateType envelope.aggregateType))
  let eventId ← envelopeId "event_id" envelope.eventId
  let aggregateId ← envelopeId "aggregate_id" envelope.aggregateId
  let fact ← codec.decodePayload envelope.eventType envelope.payload
  if fact.userId ≠ aggregateId then
    throw (.decoding (.envelopeAggregate aggregateId fact.userId))
  return {
    metadata := {
      eventId, eventType := envelope.eventType, aggregateId, occurredAt := envelope.timestamp }
    fact }

end User
end EventCourier
