import EventCourier.Envelope
import EventCourier.Payload.Decoder
import EventCourier.Payload.Encoder
import EventCourier.Registry
import EventCourier.Snapshot

/-!
# The event codec

A codec joins a family of snapshots, the registry of its schemas and the limits.  It writes and
reads payloads by the schema of their event type, envelopes of registered event types, and both at
once.
-/

namespace EventCourier

structure Codec (σ : Type) where
  family : SnapshotFamily σ
  registry : Registry
  limits : Limits

namespace Codec

variable {σ : Type}

def encodePayload (codec : Codec σ) (snapshot : σ) : Except CodecError Bytes := do
  let schema ← codec.registry.lookup (codec.family.eventType snapshot)
  Payload.encode schema (codec.family.toRecord snapshot) codec.limits

/-- The record of a payload; an empty one stands for no fields, where none is required. -/
def decodeRecord (codec : Codec σ) (schema : Schema) (eventType : String) (payload : Bytes) :
    Except CodecError Record :=
  if payload.isEmpty then
    if schema.layout.hasRequiredAt schema.version then
      .error (.decoding (.emptyPayload eventType))
    else .ok .empty
  else (Payload.decode schema payload codec.limits).map (·.2)

def decodePayload (codec : Codec σ) (eventType : String) (payload : Bytes) :
    Except CodecError σ := do
  let schema ← codec.registry.lookup eventType
  let record ← codec.decodeRecord schema eventType payload
  codec.family.fromRecord eventType record

/-- The bytes of an envelope of a registered event type, which has a payload if its schema
requires a field. -/
def encodeEnvelope (codec : Codec σ) (envelope : Envelope) : Except CodecError Bytes := do
  let schema ← codec.registry.lookup envelope.eventType
  if envelope.payload.isEmpty && schema.layout.hasRequiredAt schema.version then
    throw (.encoding (.emptyPayload envelope.eventType))
  envelope.encode codec.limits

/-- The envelope at the front of a byte string, its payload as it is. -/
def decodeEnvelope (codec : Codec σ) (bytes : Bytes) : Except CodecError Envelope :=
  Envelope.decode bytes codec.limits

/-- The bytes of an envelope with a snapshot as its payload, whatever payload it had. -/
def wrap (codec : Codec σ) (snapshot : σ) (envelope : Envelope) : Except CodecError Bytes := do
  let eventType := codec.family.eventType snapshot
  if envelope.eventType ≠ eventType then
    throw (.encoding (.sealMismatch envelope.eventType eventType))
  let payload ← codec.encodePayload snapshot
  codec.encodeEnvelope { envelope with payload }

/-- The envelope at the front of a byte string, and the snapshot in it. -/
def unwrap (codec : Codec σ) (bytes : Bytes) : Except CodecError (Envelope × σ) := do
  let envelope ← codec.decodeEnvelope bytes
  let snapshot ← codec.decodePayload envelope.eventType envelope.payload
  return (envelope, snapshot)

def peekEventType (codec : Codec σ) (bytes : Bytes) : Except CodecError String :=
  Envelope.peekEventType bytes codec.limits

end Codec

/-- The key by which a consumer knows an encoded envelope again: its digest in hexadecimal. -/
def dedupKey (bytes : Bytes) : String :=
  (Sha256.digest bytes).hex

end EventCourier
