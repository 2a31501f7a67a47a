import EventCourier.Proofs.Record.Access
import EventCourier.User.Records

/-!
# What records say about users

A fact stands in a record when the record has the parts of the fact under their ids, the
identifiers among them in any spelling.  A record is read as a fact exactly when the fact stands in
it.  Every fact stands in the record that it is made into, and is so read back from there.
-/

namespace EventCourier

namespace User

structure Address.StandsIn (record : Record) (address : Address) : Prop where
  addressId : record.Names 1 address.addressId
  streetAddress : record.get? 2 = some (.text address.streetAddress)
  detailAddress : record.get? 3 = address.detailAddress.map .text
  zipCode : record.get? 4 = some (.text address.zipCode)
  isDefault : record.get? 5 = some (.bool address.isDefault)
  name : record.get? 6 = address.name.map .text
  city : record.get? 7 = address.city.map .text
  state : record.get? 8 = address.state.map .text
  country : record.get? 9 = address.country.map .text

structure Registration.StandsIn (record : Record) (registration : Registration) : Prop where
  username : record.get? 2 = some (.text registration.username)
  email : record.get? 3 = some (.text registration.email)
  name : record.get? 4 = some (.text registration.name)
  phoneNumber : record.get? 5 = registration.phoneNumber.map .text
  userType : record.get? 6 = some (.text registration.userType.spelling)

def Change.StandsIn (record : Record) : Change → Prop
  | .created registration => registration.StandsIn record
  | .profileUpdated name phoneNumber =>
    record.get? 2 = some (.text name) ∧ record.get? 3 = phoneNumber.map .text
  | .addressAdded address | .addressUpdated address =>
    ∃ inner, record.get? 2 = some (.record inner) ∧ address.StandsIn inner
  | .addressDeleted addressId => record.Names 2 addressId
  | .deleted | .passwordChanged | .withdrawn | .deactivated | .activated => True

/-- The record has the parts of the fact under their ids. -/
structure Fact.StandsIn (record : Record) (fact : Fact) : Prop where
  userId : record.Names userIdField fact.userId
  change : fact.change.StandsIn record
  time : record.get? fact.change.eventType.timeField = some (.timestamp fact.time)

/-! ## Reading -/

section Reading

variable {record : Record}

open Record

theorem Address.ofRecord_eq_ok_iff {address : Address} :
    ofRecord record = .ok address ↔ address.StandsIn record := by
  simp only [ofRecord, bind_eq_ok_iff, pure_eq_ok_iff, uuid_eq_ok_iff, text_eq_ok_iff,
    optionalText_eq_ok_iff, bool_eq_ok_iff]
  constructor
  · rintro ⟨_, haddressId, _, hstreet, _, hdetail, _, hzip, _, hdefault, _, hname, _, hcity,
      _, hstate, _, hcountry, rfl⟩
    exact ⟨haddressId, hstreet, hdetail, hzip, hdefault, hname, hcity, hstate, hcountry⟩
  · rintro ⟨haddressId, hstreet, hdetail, hzip, hdefault, hname, hcity, hstate, hcountry⟩
    exact ⟨_, haddressId, _, hstreet, _, hdetail, _, hzip, _, hdefault, _, hname, _, hcity,
      _, hstate, _, hcountry, rfl⟩

theorem UserType.ofRecord_eq_ok_iff {kind : UserType} :
    ofRecord record = .ok kind ↔ record.get? 6 = some (.text kind.spelling) := by
  simp only [ofRecord, bind_eq_ok_iff, text_eq_ok_iff]
  constructor
  · rintro ⟨raw, hget, hraw⟩
    split at hraw
    next found hfound =>
      obtain rfl := pure_eq_ok_iff.mp hraw
      rw [hget, spelling_of_ofSpelling? hfound]
    next =>
      cases hraw
  · intro hget
    refine ⟨_, hget, ?_⟩
    simp [ofSpelling?_spelling]

theorem Registration.exists_reading_iff {registration : Registration} :
    Change.ofRecord record .created = .ok (.created registration) ↔
      registration.StandsIn record := by
  simp only [Change.ofRecord, bind_eq_ok_iff, pure_eq_ok_iff, text_eq_ok_iff,
    optionalText_eq_ok_iff, UserType.ofRecord_eq_ok_iff, Change.created.injEq]
  constructor
  · rintro ⟨_, husername, _, hemail, _, hname, _, hphone, _, hkind, rfl⟩
    exact ⟨husername, hemail, hname, hphone, hkind⟩
  · rintro ⟨husername, hemail, hname, hphone, hkind⟩
    exact ⟨_, husername, _, hemail, _, hname, _, hphone, _, hkind, rfl⟩

theorem Change.eventType_of_ofRecord
    {eventType : EventType} {change : Change} (hread : ofRecord record eventType = .ok change) :
    change.eventType = eventType := by
  cases eventType <;> simp only [ofRecord, bind_eq_ok_iff, pure_eq_ok_iff] at hread
  all_goals grind [Change.eventType]

theorem Change.ofRecord_eq_ok_iff {change : Change} :
    ofRecord record change.eventType = .ok change ↔ change.StandsIn record := by
  cases change with
  | created registration => exact Registration.exists_reading_iff
  | profileUpdated name phoneNumber =>
      simp [ofRecord, eventType, StandsIn, bind_eq_ok_iff, text_eq_ok_iff,
        optionalText_eq_ok_iff, -bind_pure_comp]
  | addressAdded address =>
      simp [ofRecord, eventType, StandsIn, bind_eq_ok_iff, record_eq_ok_iff,
        Address.ofRecord_eq_ok_iff, -bind_pure_comp]
  | addressUpdated address =>
      simp [ofRecord, eventType, StandsIn, bind_eq_ok_iff, record_eq_ok_iff,
        Address.ofRecord_eq_ok_iff, -bind_pure_comp]
  | addressDeleted addressId =>
      simp [ofRecord, eventType, StandsIn, bind_eq_ok_iff, uuid_eq_ok_iff, -bind_pure_comp]
  | deleted | passwordChanged | withdrawn | deactivated | activated =>
      simp [ofRecord, eventType, StandsIn]

theorem Fact.ofTypedRecord_eq_ok_iff {eventType : EventType} {fact : Fact} :
    ofTypedRecord eventType record = .ok fact ↔
      fact.change.eventType = eventType ∧ fact.StandsIn record := by
  simp only [ofTypedRecord, bind_eq_ok_iff, pure_eq_ok_iff, uuid_eq_ok_iff, timestamp_eq_ok_iff]
  constructor
  · rintro ⟨_, huser, change, hchange, _, htime, rfl⟩
    obtain rfl := Change.eventType_of_ofRecord hchange
    exact ⟨rfl, huser, Change.ofRecord_eq_ok_iff.mp hchange, htime⟩
  · rintro ⟨rfl, huser, hchange, htime⟩
    exact ⟨_, huser, _, Change.ofRecord_eq_ok_iff.mpr hchange, _, htime, rfl⟩

theorem Fact.ofRecord_eq_ok_iff {name : String} {fact : Fact} :
    ofRecord name record = .ok fact ↔ fact.eventType = name ∧ fact.StandsIn record := by
  unfold ofRecord
  split
  next hunknown =>
    simp only [reduceCtorEq, false_iff]
    rintro ⟨rfl, _⟩
    rw [Fact.eventType, EventType.ofName?_name] at hunknown
    cases hunknown
  next known hknown =>
    obtain rfl := EventType.name_of_ofName? hknown
    have hname : fact.change.eventType = known ↔ fact.eventType = known.name := by
      constructor
      · rintro rfl
        rfl
      · intro hsame
        have hfound := EventType.ofName?_name fact.change.eventType
        rw [Fact.eventType] at hsame
        rw [hsame, hknown] at hfound
        exact (Option.some.inj hfound).symm
    rw [← hname, ← Fact.ofTypedRecord_eq_ok_iff]
    cases ofTypedRecord known record <;> simp

end Reading

/-! ## Records made from facts -/

section Making

open Record

theorem Address.standsIn_toRecord (address : Address) : address.StandsIn address.toRecord := by
  constructor
  · apply names_of_get?
    simp [toRecord, get?_insert, get?_insertIfSome]
  all_goals simp [toRecord, get?_insert, get?_insertIfSome]

theorem Fact.get?_userId (fact : Fact) :
    fact.toRecord.get? userIdField = some (.uuid fact.userId) := by
  rcases fact with ⟨userId, change, time⟩
  cases change <;>
    simp [toRecord, Change.intoRecord, Change.eventType, EventType.timeField, userIdField,
      get?_insert, get?_insertIfSome]

theorem Fact.get?_time (fact : Fact) :
    fact.toRecord.get? fact.change.eventType.timeField = some (.timestamp fact.time) :=
  get?_insert_self _ _ _

theorem Change.standsIn_toRecord (userId : Uuid) (change : Change) (time : Instant) :
    change.StandsIn (Fact.toRecord { userId, change, time }) := by
  cases change with
  | created registration =>
      constructor <;>
        simp [Fact.toRecord, intoRecord, eventType, EventType.timeField, userIdField, get?_insert,
          get?_insertIfSome]
  | profileUpdated name phoneNumber =>
      simp [StandsIn, Fact.toRecord, intoRecord, eventType, EventType.timeField, userIdField,
        get?_insert, get?_insertIfSome]
  | addressAdded address | addressUpdated address =>
      refine ⟨address.toRecord, ?_, address.standsIn_toRecord⟩
      simp [Fact.toRecord, intoRecord, eventType, EventType.timeField, get?_insert]
  | addressDeleted addressId =>
      apply names_of_get?
      simp [Fact.toRecord, intoRecord, eventType, EventType.timeField, get?_insert]
  | deleted | passwordChanged | withdrawn | deactivated | activated => trivial

theorem Fact.standsIn_toRecord (fact : Fact) : fact.StandsIn fact.toRecord :=
  ⟨names_of_get? fact.get?_userId, fact.change.standsIn_toRecord fact.userId fact.time,
    fact.get?_time⟩

/-- A fact is read back from the record that it is made into. -/
theorem Fact.ofRecord_toRecord (fact : Fact) : ofRecord fact.eventType fact.toRecord = .ok fact :=
  ofRecord_eq_ok_iff.mpr ⟨rfl, fact.standsIn_toRecord⟩

end Making

end User
end EventCourier
