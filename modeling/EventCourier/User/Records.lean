import EventCourier.Record.Fields
import EventCourier.Snapshot
import EventCourier.User.Layouts

/-!
# Facts as records

A fact becomes a record by putting the user, the details and the instant under their ids, and is
rebuilt by asking the record for them in the same order.  Identifiers and the kind of an account
are texts in a record.
-/

namespace EventCourier
namespace User

def Address.toRecord (address : Address) : Record :=
  Record.empty
    |>.insert 1 (.uuid address.addressId)
    |>.insert 2 (.text address.streetAddress)
    |>.insertIfSome 3 (address.detailAddress.map .text)
    |>.insert 4 (.text address.zipCode)
    |>.insert 5 (.bool address.isDefault)
    |>.insertIfSome 6 (address.name.map .text)
    |>.insertIfSome 7 (address.city.map .text)
    |>.insertIfSome 8 (address.state.map .text)
    |>.insertIfSome 9 (address.country.map .text)

def Address.ofRecord (record : Record) : Except DecodingError Address := do
  return {
    addressId := ← record.uuid 1 "address_id"
    streetAddress := ← record.text 2 "street_address"
    detailAddress := ← record.optionalText 3 "detail_address"
    zipCode := ← record.text 4 "zip_code"
    isDefault := ← record.bool 5 "is_default"
    name := ← record.optionalText 6 "name"
    city := ← record.optionalText 7 "city"
    state := ← record.optionalText 8 "state"
    country := ← record.optionalText 9 "country" }

def Change.intoRecord (record : Record) : Change → Record
  | .created r => record
    |>.insert 2 (.text r.username)
    |>.insert 3 (.text r.email)
    |>.insert 4 (.text r.name)
    |>.insertIfSome 5 (r.phoneNumber.map .text)
    |>.insert 6 (.text r.userType.spelling)
  | .profileUpdated name phoneNumber => record
    |>.insert 2 (.text name)
    |>.insertIfSome 3 (phoneNumber.map .text)
  | .addressAdded address => record.insert 2 (.record address.toRecord)
  | .addressUpdated address => record.insert 2 (.record address.toRecord)
  | .addressDeleted addressId => record.insert 2 (.uuid addressId)
  | .deleted | .passwordChanged | .withdrawn | .deactivated | .activated => record

def UserType.ofRecord (record : Record) : Except DecodingError UserType := do
  let raw ← record.text 6 "user_type"
  match ofSpelling? raw with
  | some kind => return kind
  | none => throw (.unknownSpelling "user_type" raw)

def Change.ofRecord (record : Record) : EventType → Except DecodingError Change
  | .created => do
    let username ← record.text 2 "username"
    let email ← record.text 3 "email"
    let name ← record.text 4 "name"
    let phoneNumber ← record.optionalText 5 "phone_number"
    let userType ← UserType.ofRecord record
    return .created { username, email, name, phoneNumber, userType }
  | .profileUpdated => do
    let name ← record.text 2 "name"
    let phoneNumber ← record.optionalText 3 "phone_number"
    return .profileUpdated name phoneNumber
  | .addressAdded => do
    let inner ← record.record 2 "address"
    return .addressAdded (← Address.ofRecord inner)
  | .addressUpdated => do
    let inner ← record.record 2 "address"
    return .addressUpdated (← Address.ofRecord inner)
  | .addressDeleted => do
    let addressId ← record.uuid 2 "address_id"
    return .addressDeleted addressId
  | .deleted => return .deleted
  | .passwordChanged => return .passwordChanged
  | .withdrawn => return .withdrawn
  | .deactivated => return .deactivated
  | .activated => return .activated

namespace Fact

def toRecord (fact : Fact) : Record :=
  (fact.change.intoRecord (Record.empty.insert userIdField (.uuid fact.userId))).insert
    fact.change.eventType.timeField (.timestamp fact.time)

def ofTypedRecord (eventType : EventType) (record : Record) : Except DecodingError Fact := do
  let userId ← record.uuid userIdField "user_id"
  let change ← Change.ofRecord record eventType
  let time ← record.timestamp eventType.timeField eventType.timeName
  return { userId, change, time }

def ofRecord (eventType : String) (record : Record) : Except CodecError Fact :=
  match EventType.ofName? eventType with
  | none => .error (.unknownEventType eventType)
  | some known =>
    match ofTypedRecord known record with
    | .ok fact => .ok fact
    | .error cause => .error (.decoding cause)

def family : SnapshotFamily Fact where
  eventTypes := EventType.all.map EventType.name
  eventType := eventType
  toRecord := toRecord
  fromRecord := ofRecord

end Fact

end User
end EventCourier
