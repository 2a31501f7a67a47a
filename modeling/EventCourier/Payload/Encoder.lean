import EventCourier.Limits
import EventCourier.Schema
import EventCourier.Value
import EventCourier.Wire.Piece
import EventCourier.Zigzag

/-!
# Writing payloads

A payload is the schema's version and then the record's fields in ascending order of their ids:
for each its id, the byte of its kind and its value.  A nested record is a block of such fields.
Absent fields leave no trace, so a record has one payload.
-/

namespace EventCourier
namespace Payload

/-- A value that is not a record as a piece, or what keeps it from being written. -/
def scalarPiece (limits : Limits) (path : String) : Value → Except EncodingError Piece
  | .bool b => .ok (.byte (if b then 1 else 0))
  | .int n => .ok (.varint (Zigzag.encode n))
  | .text s => sized (Text.toUtf8 s)
  | .bytes content => sized content
  | .timestamp t =>
    match t.exactMillis with
    | .ok millis => .ok (.word millis)
    | .error reason => .error (.timestamp path reason)
  | .record _ => .error (.layoutMissing path)
where
  sized (octets : Bytes) : Except EncodingError Piece :=
    if limits.maxFieldBytes.toNat < octets.length then
      .error (.fieldTooLong path octets.length limits.maxFieldBytes)
    else .ok (.block octets)

/-- The pieces of a field: its id, its kind and its value. -/
def fieldPieces (id : UInt32) (kind : Kind) (value : Piece) : List Piece :=
  [.varint id.toUInt64, .byte kind.tag, value]

mutual

/-- The fields of a record that lies `depth` records deep, in their written form. -/
def encodeRecord (limits : Limits) (path : String) (depth : Nat) (record : Record) :
    Layout → Except EncodingError Bytes
  | ⟨fields, retired⟩ =>
    if limits.maxDepth.toNat < depth then .error (.tooDeep path limits.maxDepth)
    else
      match record.entries.find? fun entry => (Layout.field? ⟨fields, retired⟩ entry.1).isNone with
      | some (id, _) => .error (.foreignField path id)
      | none => encodeFields limits path depth record fields

/-- Those fields of a record that are listed, in their written form. -/
def encodeFields (limits : Limits) (path : String) (depth : Nat) (record : Record) :
    List Field → Except EncodingError Bytes
  | [] => .ok []
  | field :: rest =>
    match encodeField limits path depth record field with
    | .error cause => .error cause
    | .ok front =>
      match encodeFields limits path depth record rest with
      | .error cause => .error cause
      | .ok back => .ok (front ++ back)

/-- One field of a record in its written form; nothing when it is absent and may be. -/
def encodeField (limits : Limits) (path : String) (depth : Nat) (record : Record) :
    Field → Except EncodingError Bytes
  | ⟨id, name, kind, required, _, layout⟩ =>
    let here := path ++ "." ++ name
    match record.get? id with
    | none => if required then .error (.requiredField here) else .ok []
    | some value =>
      if value.kind ≠ kind then .error (.kindMismatch here kind value.kind)
      else
        match layout, value with
        | some nested, .record inner =>
          match encodeRecord limits here (depth + 1) inner nested with
          | .error cause => .error cause
          | .ok octets => .ok (Piece.encodeAll (fieldPieces id kind (.block octets)))
        | _, scalar =>
          match scalarPiece limits here scalar with
          | .error cause => .error cause
          | .ok piece => .ok (Piece.encodeAll (fieldPieces id kind piece))

end

def encode (schema : Schema) (record : Record) (limits : Limits) : Except CodecError Bytes :=
  match encodeRecord limits schema.eventType 0 record schema.layout with
  | .error cause => .error (.encoding cause)
  | .ok fields =>
    let payload := Piece.encode (.varint schema.version.toUInt64) ++ fields
    if limits.maxPayloadBytes.toNat < payload.length then
      .error (.encoding (.payloadTooLong schema.eventType payload.length limits.maxPayloadBytes))
    else .ok payload

end Payload
end EventCourier
