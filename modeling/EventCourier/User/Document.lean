import EventCourier.Json.Values
import EventCourier.User.Layouts

/-!
# Facts as documents

A fact is an object with one member: what happened, and under it the user, the details and the
instant by their names.  Details that are absent are null; a reader takes a missing member as
absent too.
-/

namespace EventCourier
namespace User

/-- A text that may be absent, as a document. -/
def textOrNull (s : Option String) : Json := .ofOption (s.map .text)

def UserType.toJson (kind : UserType) : Json := .text kind.spelling

/-- The kind of account that a document names: its spelling, or an object with the spelling as the
only member and no value. -/
def UserType.ofJson? : Json → Option UserType
  | .string (some s) => ofSpelling? s
  | .object [(some s, .null)] => ofSpelling? s
  | _ => none

def Address.toJson (address : Address) : Json :=
  .ofMembers [
    ("address_id", address.addressId.toJson),
    ("street_address", .text address.streetAddress),
    ("detail_address", textOrNull address.detailAddress),
    ("zip_code", .text address.zipCode),
    ("is_default", .bool address.isDefault),
    ("name", textOrNull address.name),
    ("city", textOrNull address.city),
    ("state", textOrNull address.state),
    ("country", textOrNull address.country)]

def Address.ofJson? (doc : Json) : Option Address := do
  let fields ← doc.fields? (Address.layout.fields.map (·.name))
  match fields with
  | [addressId, streetAddress, detailAddress, zipCode, isDefault, name, city, state, country] =>
    return {
      addressId := ← Json.required? Json.uuid? addressId
      streetAddress := ← Json.required? Json.text? streetAddress
      detailAddress := ← Json.optional? Json.text? detailAddress
      zipCode := ← Json.required? Json.text? zipCode
      isDefault := ← Json.required? Json.bool? isDefault
      name := ← Json.optional? Json.text? name
      city := ← Json.optional? Json.text? city
      state := ← Json.optional? Json.text? state
      country := ← Json.optional? Json.text? country }
  | _ => none

def Change.members : Change → List (String × Json)
  | .created r => [
    ("username", .text r.username),
    ("email", .text r.email),
    ("name", .text r.name),
    ("phone_number", textOrNull r.phoneNumber),
    ("user_type", r.userType.toJson)]
  | .profileUpdated name phoneNumber => [
    ("name", .text name),
    ("phone_number", textOrNull phoneNumber)]
  | .addressAdded address => [("address", address.toJson)]
  | .addressUpdated address => [("address", address.toJson)]
  | .addressDeleted addressId => [("address_id", addressId.toJson)]
  | .deleted | .passwordChanged | .withdrawn | .deactivated | .activated => []

def Change.ofFields? : EventType → List (Option Json) → Option Change
  | .created, [username, email, name, phoneNumber, userType] =>
    return .created {
      username := ← Json.required? Json.text? username
      email := ← Json.required? Json.text? email
      name := ← Json.required? Json.text? name
      phoneNumber := ← Json.optional? Json.text? phoneNumber
      userType := ← Json.required? UserType.ofJson? userType }
  | .profileUpdated, [name, phoneNumber] =>
    return .profileUpdated (← Json.required? Json.text? name)
      (← Json.optional? Json.text? phoneNumber)
  | .addressAdded, [address] => return .addressAdded (← Json.required? Address.ofJson? address)
  | .addressUpdated, [address] => return .addressUpdated (← Json.required? Address.ofJson? address)
  | .addressDeleted, [addressId] => return .addressDeleted (← Json.required? Json.uuid? addressId)
  | .deleted, [] => some .deleted
  | .passwordChanged, [] => some .passwordChanged
  | .withdrawn, [] => some .withdrawn
  | .deactivated, [] => some .deactivated
  | .activated, [] => some .activated
  | _, _ => none

def Fact.toJson (fact : Fact) : Json :=
  let eventType := fact.change.eventType
  .ofMembers [(eventType.variant, .ofMembers <|
    ("user_id", fact.userId.toJson) :: fact.change.members ++
      [(eventType.timeName, fact.time.toJson)])]

def Fact.ofJson? : Json → Option Fact
  | .object [(some variant, doc)] => do
    let eventType ← EventType.ofVariant? variant
    let fields ← doc.fields? (eventType.layout.fields.map (·.name))
    match fields with
    | userId :: rest =>
      return {
        userId := ← Json.required? Json.uuid? userId
        change := ← Change.ofFields? eventType rest.dropLast
        time := ← Json.required? Json.instant? (← rest.getLast?) }
    | [] => none
  | _ => none

end User
end EventCourier
