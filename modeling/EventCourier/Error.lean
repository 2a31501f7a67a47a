import EventCourier.Instant
import EventCourier.Kind
import EventCourier.Schema.Fault
import EventCourier.Text.Quoted
import EventCourier.Text.Utf8
import EventCourier.Uuid
import EventCourier.Varint

/-!
# Errors of the codecs

An error is its cause: which rule was broken, where, and by what.  A codec either encodes or
decodes faithfully or gives one of these; the wording belongs to `message` alone.
-/

namespace EventCourier

inductive EncodingError where
  | schema (fault : SchemaFault)
  /-- A schema is registered for an event type that no snapshot has. -/
  | foreignSchema (eventType : String)
  | repeatedSchema (eventType : String)
  | tooDeep (path : String) (limit : UInt64)
  /-- A record holds a field that its layout does not have. -/
  | foreignField (path : String) (id : UInt32)
  | requiredField (path : String)
  | kindMismatch (path : String) (expected found : Kind)
  | fieldTooLong (path : String) (size : Nat) (limit : UInt64)
  | timestamp (path : String) (reason : Instant.Inexact)
  | layoutMissing (path : String)
  | payloadTooLong (eventType : String) (size : Nat) (limit : UInt64)
  | envelopeFieldEmpty (name : String)
  | envelopeFieldTooLong (name : String) (size : Nat) (limit : UInt64)
  | envelopeTimestamp (reason : Instant.Inexact)
  /-- An event type that carries data is enveloped without a payload. -/
  | emptyPayload (eventType : String)
  | sealMismatch (envelopeType snapshotType : String)
  /-- An event's metadata give it another event type than its payload. -/
  | metadataType (metadata payload : String)
  /-- An event's metadata put it under another aggregate than the user of its payload. -/
  | metadataAggregate (aggregateId userId : Uuid)
  deriving DecidableEq, Repr

def EncodingError.message : EncodingError → String
  | .schema fault => fault.message
  | .foreignSchema eventType => s!"schema registered for {eventType}, which no snapshot produces"
  | .repeatedSchema eventType => s!"schema for {eventType} registered twice"
  | .tooDeep path limit => s!"{path}: nesting exceeds depth {limit}"
  | .foreignField path id => s!"{path}: field id {id} is not part of the schema"
  | .requiredField path => s!"{path} is required"
  | .kindMismatch path expected found =>
    s!"{path} expected {expected.name}, found {found.name}"
  | .fieldTooLong path size limit => s!"{path} is {size} bytes, limit is {limit}"
  | .timestamp path reason => s!"{path} {reason.message}"
  | .layoutMissing path => s!"{path} has no record layout"
  | .payloadTooLong eventType size limit =>
    s!"{eventType} payload is {size} bytes, limit is {limit}"
  | .envelopeFieldEmpty name => s!"envelope {name} is empty"
  | .envelopeFieldTooLong name size limit => s!"envelope {name} is {size} bytes, limit is {limit}"
  | .envelopeTimestamp reason => s!"envelope timestamp {reason.message}"
  | .emptyPayload eventType => s!"{eventType} envelope has an empty payload"
  | .sealMismatch envelopeType snapshotType =>
    s!"envelope event type {envelopeType} does not match snapshot event type {snapshotType}"
  | .metadataType metadata payload =>
    s!"metadata event type {metadata} does not match payload event type {payload}"
  | .metadataAggregate aggregateId userId =>
    s!"aggregate id {aggregateId.toText} does not match payload user id {userId.toText}"

inductive DecodingError where
  /-- Bytes that are to be a variable-length natural alone are not one. -/
  | varint (fault : Varint.Fault)
  | varintAt (what : String) (offset : Nat) (fault : Varint.Fault)
  | short (what : String) (needed offset remaining : Nat)
  /-- A block declares more bytes than it may have. -/
  | declared (what : String) (size limit : UInt64)
  | notUtf8 (what : String) (fault : Text.Utf8Fault)
  | missingField (name : String)
  | fieldKind (name : String) (expected found : Kind)
  | fieldNotUuid (name : String) (fault : Uuid.Fault)
  | payloadTooLong (eventType : String) (size : Nat) (limit : UInt64)
  | versionZero
  | versionOutOfRange (version : UInt64)
  | tooDeep (path : String) (limit : UInt64)
  | fieldOrder (path : String) (id : UInt64) (last : UInt32)
  | unknownKind (path : String) (id : UInt32) (tag : UInt8)
  | kindMismatch (path : String) (expected found : Kind)
  | boolByte (path : String) (byte : UInt8)
  | millisOutOfRange (path : String) (millis : Int64)
  | layoutMissing (path : String)
  | requiredField (path : String) (version : UInt32)
  | marker (found : Bytes)
  | envelopeFieldEmpty (name : String)
  | envelopeTimestamp (millis : Int64)
  | emptyPayload (eventType : String)
  /-- A field of a record spells none of the things that it can name. -/
  | unknownSpelling (name found : String)
  | envelopeNotUuid (name : String) (fault : Uuid.Fault)
  | aggregateType (expected found : String)
  /-- An envelope is about another aggregate than the user of its payload. -/
  | envelopeAggregate (aggregateId userId : Uuid)
  deriving DecidableEq, Repr

def DecodingError.message : DecodingError → String
  | .varint fault => fault.message
  | .varintAt what offset fault => s!"{what} at offset {offset}: decoding error: {fault.message}"
  | .short what needed offset remaining =>
    s!"truncated {what}: need {needed} bytes at offset {offset}, {remaining} remain"
  | .declared what size limit => s!"{what} declares {size} bytes, limit is {limit}"
  | .notUtf8 what fault => s!"{what} is not valid UTF-8: {fault.message}"
  | .missingField name => s!"missing required field {name}"
  | .fieldKind name expected found =>
    s!"field {name} expected {expected.name}, found {found.name}"
  | .fieldNotUuid name fault => s!"field {name} is not a UUID: {fault.message}"
  | .payloadTooLong eventType size limit =>
    s!"{eventType} payload is {size} bytes, limit is {limit}"
  | .versionZero => "schema version 0 is reserved"
  | .versionOutOfRange version => s!"schema version {version} is out of range"
  | .tooDeep path limit => s!"{path}: nesting exceeds depth {limit}"
  | .fieldOrder path id last =>
    s!"{path}: field id {id} after {last} is zero, duplicate or out of order"
  | .unknownKind path id tag => s!"{path}: field {id} has unknown wire kind {tag}"
  | .kindMismatch path expected found =>
    s!"{path} expected {expected.name}, found {found.name}"
  | .boolByte path byte => s!"{path} has invalid bool byte {byte}"
  | .millisOutOfRange path millis => s!"{path} holds out-of-range millis {millis}"
  | .layoutMissing path => s!"{path} has no record layout"
  | .requiredField path version => s!"{path} is required at version {version}"
  | .marker found =>
    let octets := String.intercalate ", " (found.map fun octet => Bytes.hex [octet])
    s!"unrecognized envelope marker [{octets}]"
  | .envelopeFieldEmpty name => s!"envelope {name} is empty"
  | .envelopeTimestamp millis => s!"timestamp {millis} is out of range"
  | .emptyPayload eventType => s!"{eventType} payload is empty"
  | .unknownSpelling name found => s!"unknown {name} {Text.quoted found}"
  | .envelopeNotUuid name fault => s!"envelope {name} is not a UUID: {fault.message}"
  | .aggregateType expected found => s!"expected aggregate type {expected}, found {found}"
  | .envelopeAggregate aggregateId userId =>
    s!"envelope aggregate id {aggregateId.toText} does not match payload user id {userId.toText}"

inductive CodecError where
  | encoding (cause : EncodingError)
  | decoding (cause : DecodingError)
  | unknownEventType (eventType : String)
  deriving DecidableEq, Repr

def CodecError.message : CodecError → String
  | .encoding cause => s!"encoding error: {cause.message}"
  | .decoding cause => s!"decoding error: {cause.message}"
  | .unknownEventType eventType => s!"unknown event type: {eventType}"

end EventCourier
