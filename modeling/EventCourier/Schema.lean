import EventCourier.Error
import EventCourier.Json
import EventCourier.Layout
import EventCourier.Sha256

/-!
# Schemas of payloads

A schema says how the payloads of one event type are laid out at the current version.  It can only
be obtained by declaring it, and a declaration that would keep old and new versions from reading
one another is refused.  The fingerprint of a schema is taken from its canonical JSON text, so it
does not depend on the order in which the fields were declared.
-/

namespace EventCourier

def checkSchema (eventType : String) (version : UInt32) (layout : Layout) :
    Except SchemaFault Unit :=
  if eventType = "" then .error .emptyEventType
  else if version = 0 then .error (.versionZero eventType)
  else layout.check version eventType

/-- The layout of one event type's payloads at the version that new ones are written at. -/
structure Schema where
  eventType : String
  version : UInt32
  layout : Layout
  /-- The layout is a declared one in ascending order. -/
  ordered : ∃ declared : Layout, layout = declared.arranged
  /-- The layout keeps the rules. -/
  sound : checkSchema eventType version layout = .ok ()

namespace Schema

/-- The schema with a declared layout, or the first rule that the declaration breaks. -/
def declare (eventType : String) (version : UInt32) (declared : Layout) :
    Except SchemaFault Schema :=
  match h : checkSchema eventType version declared.arranged with
  | .error fault => .error fault
  | .ok () => .ok ⟨eventType, version, declared.arranged, ⟨declared, rfl⟩, h⟩

/-- What a codec makes of a declaration: a fault in it is an encoding error. -/
def report (eventType : String) (version : UInt32) (declared : Layout) : Except CodecError Schema :=
  (declare eventType version declared).mapError fun fault => .encoding (.schema fault)

mutual

/-- A layout as a document; the retired ids are left out when there are none. -/
def layoutDocument : Layout → Json
  | ⟨fields, retired⟩ =>
    .ofMembers <| ("fields", .array (fieldDocuments fields)) ::
      if retired.isEmpty then []
      else [("retired", .array (retired.map fun id => .natural id.toNat))]

def fieldDocuments : List Field → List Json
  | [] => []
  | field :: rest => fieldDocument field :: fieldDocuments rest

/-- A field as a document; the layout is left out when there is none. -/
def fieldDocument : Field → Json
  | ⟨id, name, kind, required, since, layout⟩ =>
    .ofMembers <|
      [("id", .natural id.toNat), ("name", .text name), ("kind", .text kind.name),
        ("required", .bool required), ("since", .natural since.toNat)] ++
      match layout with
      | none => []
      | some nested => [("record", layoutDocument nested)]

end

/-- The members of a schema's document, in canonical order. -/
def members (schema : Schema) : List (String × Json) :=
  [("event_type", .text schema.eventType), ("version", .natural schema.version.toNat),
    ("body", layoutDocument schema.layout)]

def canonical (schema : Schema) : String :=
  (Json.ofMembers schema.members).compact

/-- The first eight octets of the digest of a canonical text. -/
def fingerprintOf (canonical : String) : Bytes :=
  (Sha256.digest (Text.toUtf8 canonical)).take 8

/-- The fingerprint of a schema, eight octets. -/
def fingerprint (schema : Schema) : Bytes :=
  fingerprintOf schema.canonical

def descriptor (schema : Schema) : Json :=
  .ofMembers (schema.members ++ [("fingerprint", .text schema.fingerprint.hex)])

end Schema
end EventCourier
