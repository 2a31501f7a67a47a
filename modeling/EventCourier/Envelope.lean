import EventCourier.Limits
import EventCourier.Wire.Cursor
import EventCourier.Wire.Piece

/-!
# Envelopes

An envelope names an event and carries its payload, which it does not look into.  On the wire it
is a marker, the event id, the instant in milliseconds, source, aggregate type, aggregate id and
event type, and last the payload; whatever follows is for later layouts and ignored.
-/

namespace EventCourier

structure Envelope where
  eventId : String
  timestamp : Instant
  source : String
  aggregateType : String
  aggregateId : String
  eventType : String
  payload : Bytes
  deriving DecidableEq

namespace Envelope

/-- The marker of this layout, `EVT1`. -/
def marker : Bytes := [0x45, 0x56, 0x54, 0x31]

/-- The texts of an envelope with their names, in the order in which they are written. -/
def texts (envelope : Envelope) : List (String × String) :=
  [("event_id", envelope.eventId), ("source", envelope.source),
    ("aggregate_type", envelope.aggregateType), ("aggregate_id", envelope.aggregateId),
    ("event_type", envelope.eventType)]

/-- Why a text may not stand in an envelope: it is empty or too long. -/
def textFault? (limits : Limits) (name s : String) : Option EncodingError :=
  let size := (Text.toUtf8 s).length
  if size = 0 then some (.envelopeFieldEmpty name)
  else if limits.maxFieldBytes.toNat < size then
    some (.envelopeFieldTooLong name size limits.maxFieldBytes)
  else none

def pieces (envelope : Envelope) (millis : Int64) : List Piece :=
  [.raw marker,
    .block (Text.toUtf8 envelope.eventId),
    .word millis,
    .block (Text.toUtf8 envelope.source),
    .block (Text.toUtf8 envelope.aggregateType),
    .block (Text.toUtf8 envelope.aggregateId),
    .block (Text.toUtf8 envelope.eventType),
    .block envelope.payload]

/-- The bytes of an envelope, or the first thing that keeps it from being written: a text, the
payload, the instant. -/
def encode (envelope : Envelope) (limits : Limits) : Except CodecError Bytes :=
  match envelope.texts.findSome? fun (name, s) => textFault? limits name s with
  | some cause => .error (.encoding cause)
  | none =>
    if limits.maxPayloadBytes.toNat < envelope.payload.length then
      .error (.encoding
        (.envelopeFieldTooLong "payload" envelope.payload.length limits.maxPayloadBytes))
    else
      match envelope.timestamp.exactMillis with
      | .error reason => .error (.encoding (.envelopeTimestamp reason))
      | .ok millis => .ok (Piece.encodeAll (envelope.pieces millis))

/-- How many bytes an envelope takes, without writing it. -/
def encodedLen (envelope : Envelope) : Nat :=
  let prefixed (size : Nat) := Varint.encodedLen size + size
  marker.length + 8 +
    prefixed (Text.toUtf8 envelope.eventId).length +
    prefixed (Text.toUtf8 envelope.source).length +
    prefixed (Text.toUtf8 envelope.aggregateType).length +
    prefixed (Text.toUtf8 envelope.aggregateId).length +
    prefixed (Text.toUtf8 envelope.eventType).length +
    prefixed envelope.payload.length

def readMarker : Reading Unit := do
  let found ← Reading.take "envelope marker" marker.length
  if found = marker then return () else Reading.refuse (.marker found)

def readText (limits : Limits) (name : String) : Reading String := do
  let s ← Reading.text name limits.maxFieldBytes
  if s = "" then Reading.refuse (.envelopeFieldEmpty name) else return s

def readTimestamp : Reading Instant := do
  let millis ← Reading.word "timestamp"
  match Instant.ofMillis? millis.toInt with
  | some t => return t
  | none => Reading.refuse (.envelopeTimestamp millis)

/-- Takes an envelope; what follows it stays. -/
def reading (limits : Limits) : Reading Envelope := do
  readMarker
  let eventId ← readText limits "event_id"
  let timestamp ← readTimestamp
  let source ← readText limits "source"
  let aggregateType ← readText limits "aggregate_type"
  let aggregateId ← readText limits "aggregate_id"
  let eventType ← readText limits "event_type"
  let payload ← Reading.block "payload" limits.maxPayloadBytes
  return { eventId, timestamp, source, aggregateType, aggregateId, eventType, payload }

def decode (bytes : Bytes) (limits : Limits) : Except CodecError Envelope :=
  match (reading limits).run bytes with
  | .ok envelope => .ok envelope
  | .error cause => .error (.decoding cause)

def peekEventType (bytes : Bytes) (limits : Limits) : Except CodecError String :=
  (decode bytes limits).map (·.eventType)

end Envelope
end EventCourier
