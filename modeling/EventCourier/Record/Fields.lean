import EventCourier.Error
import EventCourier.Value

/-!
# Typed access to a record's fields

A consumer asks a record for a field of a given kind by its id.  What comes back is the value, or
a decoding error that names the field the way the consumer knows it.
-/

namespace EventCourier
namespace Record

def required (record : Record) (id : UInt32) (name : String) : Except DecodingError Value :=
  match record.get? id with
  | some value => .ok value
  | none => .error (.missingField name)

def text (record : Record) (id : UInt32) (name : String) : Except DecodingError String := do
  match ← record.required id name with
  | .text s => return s
  | other => throw (.fieldKind name .text other.kind)

def optionalText (record : Record) (id : UInt32) (name : String) :
    Except DecodingError (Option String) :=
  match record.get? id with
  | none => .ok none
  | some (.text s) => .ok (some s)
  | some other => .error (.fieldKind name .text other.kind)

def uuid (record : Record) (id : UInt32) (name : String) : Except DecodingError Uuid := do
  let raw ← record.text id name
  match Uuid.ofText raw with
  | .ok identifier => return identifier
  | .error fault => throw (.fieldNotUuid name fault)

def bool (record : Record) (id : UInt32) (name : String) : Except DecodingError Bool := do
  match ← record.required id name with
  | .bool b => return b
  | other => throw (.fieldKind name .bool other.kind)

def int (record : Record) (id : UInt32) (name : String) : Except DecodingError Int64 := do
  match ← record.required id name with
  | .int n => return n
  | other => throw (.fieldKind name .int other.kind)

def bytes (record : Record) (id : UInt32) (name : String) : Except DecodingError Bytes := do
  match ← record.required id name with
  | .bytes content => return content
  | other => throw (.fieldKind name .bytes other.kind)

def timestamp (record : Record) (id : UInt32) (name : String) : Except DecodingError Instant := do
  match ← record.required id name with
  | .timestamp t => return t
  | other => throw (.fieldKind name .timestamp other.kind)

def record (record : Record) (id : UInt32) (name : String) : Except DecodingError Record := do
  match ← record.required id name with
  | .record inner => return inner
  | other => throw (.fieldKind name .record other.kind)

end Record
end EventCourier
