import EventCourier.Layout
import EventCourier.User.Event

/-!
# Layouts of user events

Field ids belong to the wire: an id once published keeps its meaning.  Every payload has the user
first and the instant last; what lies between belongs to the event type.  Addresses gained their
optional parts with version 2.
-/

namespace EventCourier
namespace User

abbrev userIdField : UInt32 := 1

namespace Address

def layout : Layout where
  fields := [
    { id := 1, name := "address_id", kind := .text },
    { id := 2, name := "street_address", kind := .text },
    { id := 3, name := "detail_address", kind := .text, required := false },
    { id := 4, name := "zip_code", kind := .text },
    { id := 5, name := "is_default", kind := .bool },
    { id := 6, name := "name", kind := .text, required := false, since := 2 },
    { id := 7, name := "city", kind := .text, required := false, since := 2 },
    { id := 8, name := "state", kind := .text, required := false, since := 2 },
    { id := 9, name := "country", kind := .text, required := false, since := 2 }]

end Address

namespace EventType

def version : EventType → UInt32
  | .addressAdded | .addressUpdated => 2
  | _ => 1

def ownFields : EventType → List Field
  | .created => [
    { id := 2, name := "username", kind := .text },
    { id := 3, name := "email", kind := .text },
    { id := 4, name := "name", kind := .text },
    { id := 5, name := "phone_number", kind := .text, required := false },
    { id := 6, name := "user_type", kind := .text }]
  | .profileUpdated => [
    { id := 2, name := "name", kind := .text },
    { id := 3, name := "phone_number", kind := .text, required := false }]
  | .addressAdded | .addressUpdated => [
    { id := 2, name := "address", kind := .record, layout := some Address.layout }]
  | .addressDeleted => [
    { id := 2, name := "address_id", kind := .text }]
  | .deleted | .passwordChanged | .withdrawn | .deactivated | .activated => []

def timeField : EventType → UInt32
  | .created => 7
  | .profileUpdated => 4
  | .addressAdded | .addressUpdated | .addressDeleted => 3
  | .deleted | .passwordChanged | .withdrawn | .deactivated | .activated => 2

def timeName : EventType → String
  | .created => "registered_at"
  | .deleted => "deleted_at"
  | .passwordChanged => "changed_at"
  | .profileUpdated => "updated_at"
  | .addressAdded => "added_at"
  | .addressUpdated => "updated_at"
  | .addressDeleted => "deleted_at"
  | .withdrawn => "withdrawn_at"
  | .deactivated => "deactivated_at"
  | .activated => "activated_at"

def layout (eventType : EventType) : Layout where
  fields :=
    { id := userIdField, name := "user_id", kind := .text } :: eventType.ownFields ++
      [{ id := eventType.timeField, name := eventType.timeName, kind := .timestamp }]

end EventType

end User
end EventCourier
