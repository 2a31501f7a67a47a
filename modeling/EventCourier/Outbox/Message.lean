import EventCourier.Instant.Written
import EventCourier.Outbox.Config
import EventCourier.User.Codec

/-!
# Messages in the outbox

An event becomes a message: its encoded envelope, the topic it goes to, and headers that repeat
what a relay or a consumer may want to know without decoding.  An event whose metadata contradict
what it says is refused.
-/

namespace EventCourier
namespace Outbox

structure Message where
  payload : Bytes
  topic : String
  headers : List (String × String)
  aggregateType : String
  aggregateId : String
  eventType : String
  createdAt : Instant
  deriving DecidableEq

def Message.header? (message : Message) (name : String) : Option String :=
  message.headers.lookup name

structure Factory where
  codec : Codec User.Fact
  config : Config
  now : Instant

namespace Factory

/-- The headers of a message, in ascending order of their names. -/
def headers (envelope : Envelope) (schema : Schema) (correlationId : Uuid) (payload : Bytes) :
    List (String × String) :=
  [("aggregate_id", envelope.aggregateId),
    ("aggregate_type", envelope.aggregateType),
    ("correlation_id", correlationId.toText),
    ("dedup_key", dedupKey payload),
    ("event_id", envelope.eventId),
    ("event_type", envelope.eventType),
    ("schema_fingerprint", schema.fingerprint.hex),
    ("schema_version", toString schema.version),
    ("timestamp", envelope.timestamp.toMillisText)]

/-- What an event's metadata say against its fact. -/
def contradiction? (event : User.Event) : Option EncodingError :=
  if event.metadata.eventType ≠ event.eventType then
    some (.metadataType event.metadata.eventType event.eventType)
  else if event.metadata.aggregateId ≠ event.fact.userId then
    some (.metadataAggregate event.metadata.aggregateId event.fact.userId)
  else none

def createMessage (factory : Factory) (event : User.Event) (correlationId : Uuid) :
    Except CodecError Message := do
  if let some cause := contradiction? event then
    throw (.encoding cause)
  let schema ← factory.codec.registry.lookup event.eventType
  let encoded ← factory.codec.encodePayload event.fact
  let envelope := event.envelope factory.config.source encoded
  let payload ← factory.codec.encodeEnvelope envelope
  return {
    payload
    topic := factory.config.topic
    headers := headers envelope schema correlationId payload
    aggregateType := envelope.aggregateType
    aggregateId := envelope.aggregateId
    eventType := envelope.eventType
    createdAt := factory.now.truncated }

/-- A factory shown for inspection, without its clock. -/
def inspect (factory : Factory) : String :=
  "OutboxMessageFactory \x7b codec: EventCodec \x7b registry: " ++
    factory.codec.registry.inspect ++ ", limits: " ++ factory.codec.limits.inspect ++
    " \x7d, config: " ++ factory.config.inspect ++ ", .. \x7d"

end Factory
end Outbox
end EventCourier
