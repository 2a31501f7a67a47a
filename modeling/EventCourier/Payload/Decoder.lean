import EventCourier.Limits
import EventCourier.Schema
import EventCourier.Value
import EventCourier.Wire.Cursor
import EventCourier.Zigzag

/-!
# Reading payloads

A consumer reads a payload against its own schema, whichever version wrote it.  Fields it knows
must have the kind it knows; fields it does not know are stepped over by their kind.  A field that
its layout requires must be there when the payload's version already had it.
-/

namespace EventCourier
namespace Payload

def version : Reading UInt32 := do
  let raw ← Reading.varint "schema version"
  if raw = 0 then Reading.refuse .versionZero
  else if raw.toNat < UInt32.size then return raw.toUInt32
  else Reading.refuse (.versionOutOfRange raw)

/-- The id of the next field: above the id of the field before it. -/
def fieldId (path : String) (last : UInt32) : Reading UInt32 := do
  let raw ← Reading.varint "field id"
  if last.toNat < raw.toNat ∧ raw.toNat < UInt32.size then return raw.toUInt32
  else Reading.refuse (.fieldOrder path raw last)

def fieldKind (path : String) (id : UInt32) : Reading Kind := do
  let tag ← Reading.byte "wire kind"
  match Kind.ofTag? tag with
  | some kind => return kind
  | none => Reading.refuse (.unknownKind path id tag)

def fieldHead (path : String) (last : UInt32) : Reading (UInt32 × Kind) := do
  let id ← fieldId path last
  let kind ← fieldKind path id
  return (id, kind)

def skipValue (limits : Limits) : Kind → Reading Unit
  | .bool => do
    let _ ← Reading.byte "unknown bool field"
  | .int => do
    let _ ← Reading.varint "unknown int field"
  | .timestamp => do
    let _ ← Reading.take "unknown timestamp field" 8
  | .text | .bytes | .record => do
    let _ ← Reading.block "unknown field" limits.maxPayloadBytes

def scalar (limits : Limits) (path : String) : Kind → Reading Value
  | .bool => do
    let octet ← Reading.byte path
    if octet = 0 then return .bool false
    else if octet = 1 then return .bool true
    else Reading.refuse (.boolByte path octet)
  | .int => do
    let position ← Reading.varint path
    return .int (Zigzag.decode position)
  | .text => do
    let s ← Reading.text path limits.maxFieldBytes
    return .text s
  | .bytes => do
    let content ← Reading.block path limits.maxFieldBytes
    return .bytes content
  | .timestamp => do
    let millis ← Reading.word path
    match Instant.ofMillis? millis.toInt with
    | some t => return .timestamp t
    | none => Reading.refuse (.millisOutOfRange path millis)
  | .record => Reading.refuse (.layoutMissing path)

/-! ## Each step moves on -/

theorem advances_fieldId (path : String) (last : UInt32) :
    Reading.Advances (fieldId path last) := by
  refine (Reading.advances_varint _).andThen fun raw => ?_
  split
  · exact Reading.movesOn_give _
  · exact Reading.movesOn_refuse _

theorem movesOn_fieldKind (path : String) (id : UInt32) :
    Reading.MovesOn (fieldKind path id) := by
  refine (Reading.movesOn_byte _).andThen fun tag => ?_
  split
  · exact Reading.movesOn_give _
  · exact Reading.movesOn_refuse _

theorem advances_fieldHead (path : String) (last : UInt32) :
    Reading.Advances (fieldHead path last) :=
  (advances_fieldId path last).andThen fun id =>
    (movesOn_fieldKind path id).andThen fun _ => Reading.movesOn_give _

theorem movesOn_skipValue (limits : Limits) (kind : Kind) :
    Reading.MovesOn (skipValue limits kind) := by
  cases kind
  · exact (Reading.movesOn_byte _).andThen fun _ => Reading.movesOn_give _
  · exact (Reading.movesOn_varint _).andThen fun _ => Reading.movesOn_give _
  · exact (Reading.movesOn_block _ _).andThen fun _ => Reading.movesOn_give _
  · exact (Reading.movesOn_block _ _).andThen fun _ => Reading.movesOn_give _
  · exact (Reading.movesOn_take _ _).andThen fun _ => Reading.movesOn_give _
  · exact (Reading.movesOn_block _ _).andThen fun _ => Reading.movesOn_give _

theorem movesOn_scalar (limits : Limits) (path : String) (kind : Kind) :
    Reading.MovesOn (scalar limits path kind) := by
  cases kind
  · refine (Reading.movesOn_byte _).andThen fun octet => ?_
    split
    · exact Reading.movesOn_give _
    · split
      · exact Reading.movesOn_give _
      · exact Reading.movesOn_refuse _
  · exact (Reading.movesOn_varint _).andThen fun _ => Reading.movesOn_give _
  · exact (Reading.movesOn_text _ _).andThen fun _ => Reading.movesOn_give _
  · exact (Reading.movesOn_block _ _).andThen fun _ => Reading.movesOn_give _
  · refine (Reading.movesOn_word _).andThen fun millis => ?_
    split
    · exact Reading.movesOn_give _
    · exact Reading.movesOn_refuse _
  · exact Reading.movesOn_refuse _

/-! ## Records -/

/-- The record that was read, if no field is missing that its payload's version had to carry. -/
def complete (layout : Layout) (path : String) (version : UInt32) (record : Record) :
    Except DecodingError Record :=
  match layout.fields.find? fun field =>
      field.required && field.since ≤ version && (record.get? field.id).isNone with
  | some missing => .error (.requiredField (path ++ "." ++ missing.name) version)
  | none => .ok record

/-- Reads fields up to the end and adds them to those already read, the last of which has the id
`last`, in a record that lies `depth` records deep. -/
def decodeFields (limits : Limits) (version : UInt32) (layout : Layout) (path : String)
    (depth : Nat) (last : UInt32) (record : Record) (cursor : Cursor) :
    Except DecodingError Record :=
  if cursor.atEnd then complete layout path version record
  else
    match _hhead : fieldHead path last cursor with
    | (.error cause, _) => .error cause
    | (.ok (id, kind), body) =>
      match layout.field? id with
      | none =>
        match _hskip : skipValue limits kind body with
        | (.error cause, _) => .error cause
        | (.ok _, after) => decodeFields limits version layout path depth id record after
      | some field =>
        let here := path ++ "." ++ field.name
        if kind ≠ field.kind then .error (.kindMismatch here field.kind kind)
        else
          match kind, field.layout with
          | .record, some nested =>
            match _hblock : Reading.block here limits.maxPayloadBytes body with
            | (.error cause, _) => .error cause
            | (.ok octets, after) =>
              if limits.maxDepth.toNat < depth + 1 then .error (.tooDeep here limits.maxDepth)
              else
                match decodeFields limits version nested here (depth + 1) 0 .empty
                    (.start octets) with
                | .error cause => .error cause
                | .ok inner =>
                  decodeFields limits version layout path depth id
                    (record.insert id (.record inner)) after
          | _, _ =>
            match _hscalar : scalar limits here kind body with
            | (.error cause, _) => .error cause
            | (.ok value, after) =>
              decodeFields limits version layout path depth id (record.insert id value) after
termination_by cursor.rest.length
decreasing_by
  · have hshorter := advances_fieldHead path last _ _ _ _hhead
    have hle := (movesOn_skipValue limits kind).length_le _hskip
    omega
  · have hshorter := advances_fieldHead path last _ _ _ _hhead
    have hlt := Reading.block_length_lt _hblock
    simp only [Cursor.start]
    omega
  · have hshorter := advances_fieldHead path last _ _ _ _hhead
    have hle := (Reading.movesOn_block here limits.maxPayloadBytes).length_le _hblock
    omega
  · have hshorter := advances_fieldHead path last _ _ _ _hhead
    have hle := (movesOn_scalar limits here kind).length_le _hscalar
    omega

/-- The version that a payload was written at, and the fields that the schema knows. -/
def decode (schema : Schema) (payload : Bytes) (limits : Limits) :
    Except CodecError (UInt32 × Record) :=
  if limits.maxPayloadBytes.toNat < payload.length then
    .error (.decoding (.payloadTooLong schema.eventType payload.length limits.maxPayloadBytes))
  else
    match version (.start payload) with
    | (.error cause, _) => .error (.decoding cause)
    | (.ok written, fields) =>
      match decodeFields limits written schema.layout schema.eventType 0 0 .empty fields with
      | .error cause => .error (.decoding cause)
      | .ok record => .ok (written, record)

def schemaVersion (payload : Bytes) : Except CodecError UInt32 :=
  match version.run payload with
  | .ok written => .ok written
  | .error cause => .error (.decoding cause)

end Payload
end EventCourier
