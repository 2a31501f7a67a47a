import EventCourier.Proofs.Record.Respelling
import EventCourier.Proofs.User.Payload

/-!
# Facts rebuilt from payloads

A payload is read by the schema of its event type, and the fact is rebuilt from the record with
ids and kinds of its own.  They are those of the schema, so whatever record is read, only the
spellings of its identifiers and of the kind of an account can keep the fact from being rebuilt.
The record that the fact is made into is the one that was read with its identifiers respelled.
-/

namespace EventCourier
namespace User

open Record

/-- The names of the fields that hold identifiers. -/
def identifierNames : List String :=
  ["user_id", "address_id"]

section Rebuilding

variable {limits : Limits} {depth : Nat} {record : Record}

/-! ## Whether a fact can be rebuilt -/

theorem Address.exists_standsIn
    (hcovered : record.CoveredBy layout)
    (hfits : record.Fits limits layout depth)
    (hspells : record.SpellsIdentifiers identifierNames layout) :
    ∃ address : Address, address.StandsIn record := by
  obtain ⟨_, _, hadmits⟩ :=
    (coveredBy_and_fits_iff_admits ascending_layout).mp ⟨hcovered, hfits⟩
  simp only [layout, List.forall_mem_cons] at hadmits
  obtain ⟨hid, hstreet, hdetail, hzip, hdefault, hname, hcity, hstate, hcountry, _⟩ := hadmits
  obtain ⟨addressId, haddressId⟩ :=
    hspells.exists_names List.mem_cons_self (by decide) (hid.exists_text rfl rfl)
  obtain ⟨streetAddress, hstreet⟩ := hstreet.exists_text rfl rfl
  obtain ⟨detailAddress, hdetail⟩ := hdetail.exists_optionalText rfl
  obtain ⟨zipCode, hzip⟩ := hzip.exists_text rfl rfl
  obtain ⟨isDefault, hdefault⟩ := hdefault.exists_bool rfl rfl
  obtain ⟨name, hname⟩ := hname.exists_optionalText rfl
  obtain ⟨city, hcity⟩ := hcity.exists_optionalText rfl
  obtain ⟨state, hstate⟩ := hstate.exists_optionalText rfl
  obtain ⟨country, hcountry⟩ := hcountry.exists_optionalText rfl
  exact ⟨⟨addressId, streetAddress, detailAddress, zipCode, isDefault, name, city, state, country⟩,
    haddressId, hstreet, hdetail, hzip, hdefault, hname, hcity, hstate, hcountry⟩

theorem Address.exists_standsIn_inner
    {outer : Layout} {field : Field} (hadmits : field.Admits limits depth (record.get? field.id))
    (hspells : record.SpellsIdentifiers identifierNames outer)
    (hfield : outer.field? field.id = some field) (hkind : field.kind = .record)
    (hrequired : field.required = true) (hnested : field.layout = some layout) :
    ∃ address : Address, ∃ inner, record.get? field.id = some (.record inner) ∧
      address.StandsIn inner := by
  obtain ⟨inner, hget, hcovered, hfits⟩ := hadmits.exists_record hkind hrequired hnested
  obtain ⟨address, hstands⟩ := exists_standsIn hcovered hfits
    (hspells.within (get?_eq_some_iff.mp hget) hfield hnested)
  exact ⟨address, inner, hget, hstands⟩

theorem Change.exists_standsIn
    {eventType : EventType}
    (hadmits : ∀ field ∈ eventType.ownFields, field.Admits limits depth (record.get? field.id))
    (hspells : record.SpellsIdentifiers identifierNames eventType.layout)
    (hkind : eventType = .created →
      record.get? 6 = some (.text "CUSTOMER") ∨ record.get? 6 = some (.text "ADMIN")) :
    ∃ change : Change, change.eventType = eventType ∧ change.StandsIn record := by
  cases eventType with
  | created =>
      simp only [EventType.ownFields, List.forall_mem_cons] at hadmits
      obtain ⟨husername, hemail, hname, hphone, _⟩ := hadmits
      obtain ⟨username, husername⟩ := husername.exists_text rfl rfl
      obtain ⟨email, hemail⟩ := hemail.exists_text rfl rfl
      obtain ⟨name, hname⟩ := hname.exists_text rfl rfl
      obtain ⟨phoneNumber, hphone⟩ := hphone.exists_optionalText rfl
      rcases hkind rfl with hcustomer | hadmin
      · exact ⟨.created ⟨username, email, name, phoneNumber, .customer⟩, rfl,
          husername, hemail, hname, hphone, hcustomer⟩
      · exact ⟨.created ⟨username, email, name, phoneNumber, .admin⟩, rfl,
          husername, hemail, hname, hphone, hadmin⟩
  | profileUpdated =>
      simp only [EventType.ownFields, List.forall_mem_cons] at hadmits
      obtain ⟨hname, hphone, _⟩ := hadmits
      obtain ⟨name, hname⟩ := hname.exists_text rfl rfl
      obtain ⟨phoneNumber, hphone⟩ := hphone.exists_optionalText rfl
      exact ⟨.profileUpdated name phoneNumber, rfl, hname, hphone⟩
  | addressAdded =>
      obtain ⟨address, haddress⟩ := Address.exists_standsIn_inner (hadmits _ List.mem_cons_self)
        hspells (EventType.field?_own List.mem_cons_self) rfl rfl rfl
      exact ⟨.addressAdded address, rfl, haddress⟩
  | addressUpdated =>
      obtain ⟨address, haddress⟩ := Address.exists_standsIn_inner (hadmits _ List.mem_cons_self)
        hspells (EventType.field?_own List.mem_cons_self) rfl rfl rfl
      exact ⟨.addressUpdated address, rfl, haddress⟩
  | addressDeleted =>
      have hid := hadmits _ List.mem_cons_self
      obtain ⟨addressId, haddressId⟩ := hspells.exists_names
        (List.mem_cons_of_mem _ List.mem_cons_self) (by decide) (hid.exists_text rfl rfl)
      exact ⟨.addressDeleted addressId, rfl, haddressId⟩
  | deleted => exact ⟨.deleted, rfl, trivial⟩
  | passwordChanged => exact ⟨.passwordChanged, rfl, trivial⟩
  | withdrawn => exact ⟨.withdrawn, rfl, trivial⟩
  | deactivated => exact ⟨.deactivated, rfl, trivial⟩
  | activated => exact ⟨.activated, rfl, trivial⟩

theorem Fact.exists_standsIn
    {eventType : EventType}
    (hcovered : record.CoveredBy eventType.layout)
    (hfits : record.Fits limits eventType.layout depth)
    (hspells : record.SpellsIdentifiers identifierNames eventType.layout)
    (hkind : eventType = .created →
      record.get? 6 = some (.text "CUSTOMER") ∨ record.get? 6 = some (.text "ADMIN")) :
    ∃ fact : Fact, fact.eventType = eventType.name ∧ fact.StandsIn record := by
  have hascending := eventType.layout_sound.ascending
  obtain ⟨_, _, hadmits⟩ := (coveredBy_and_fits_iff_admits hascending).mp ⟨hcovered, hfits⟩
  simp only [EventType.layout, List.cons_append, List.forall_mem_cons, List.forall_mem_append]
    at hadmits
  obtain ⟨huser, hown, htime, _⟩ := hadmits
  obtain ⟨userId, huserId⟩ :=
    hspells.exists_names List.mem_cons_self (by decide) (huser.exists_text rfl rfl)
  obtain ⟨change, rfl, hchange⟩ := Change.exists_standsIn hown hspells hkind
  obtain ⟨time, htime⟩ := htime.exists_timestamp rfl rfl
  exact ⟨⟨userId, change, time⟩, rfl, huserId, hchange, htime⟩

/-! ## What a rebuilt fact had to find -/

theorem Address.StandsIn.spells
    {address : Address} (hstands : address.StandsIn record) :
    record.SpellsIdentifiers identifierNames layout := by
  constructor
  · simp only [layout, List.forall_mem_cons]
    simpa [identifierNames] using hstands.addressId.exists_ofText
  · intro id inner _ field nested hfield hnested
    have hscalar : ∀ field ∈ layout.fields, field.layout = none := by simp [layout]
    rw [hscalar field (Layout.mem_of_field? hfield)] at hnested
    cases hnested

theorem EventType.timeName_notMem (eventType : EventType) :
    eventType.timeName ∉ identifierNames := by
  cases eventType <;> decide

/-- The only records in facts are addresses. -/
theorem EventType.nested_eq
    {eventType : EventType} : ∀ field ∈ eventType.layout.fields, ∀ nested,
      field.layout = some nested →
        (eventType = .addressAdded ∨ eventType = .addressUpdated) ∧ field.id = 2 ∧
          nested = Address.layout := by
  cases eventType <;> simp [layout, ownFields, eq_comm]

theorem Change.StandsIn.kind_spelled
    {change : Change} (hstands : change.StandsIn record) (htype : change.eventType = .created) :
    record.get? 6 = some (.text "CUSTOMER") ∨ record.get? 6 = some (.text "ADMIN") := by
  cases change with
  | created registration =>
      have hkind := hstands.userType
      rcases registration with ⟨_, _, _, _, kind⟩
      cases kind with
      | customer => exact .inl hkind
      | admin => exact .inr hkind
  | _ => cases htype

theorem Change.StandsIn.exists_address
    {change : Change} (hstands : change.StandsIn record)
    (htype : change.eventType = .addressAdded ∨ change.eventType = .addressUpdated) :
    ∃ address : Address, ∃ inner, record.get? 2 = some (.record inner) ∧
      address.StandsIn inner := by
  cases change with
  | addressAdded address | addressUpdated address => exact ⟨address, hstands⟩
  | _ => simp [eventType] at htype

theorem Change.StandsIn.own_spells
    {change : Change} (hstands : change.StandsIn record) :
    ∀ field ∈ change.eventType.ownFields, field.name ∈ identifierNames → ∀ s,
      record.get? field.id = some (.text s) → ∃ identifier, Uuid.ofText s = .ok identifier := by
  cases change with
  | addressDeleted addressId =>
      simpa [eventType, EventType.ownFields, identifierNames] using hstands.exists_ofText
  | _ => simp [eventType, EventType.ownFields, identifierNames]

theorem Fact.StandsIn.spells
    {fact : Fact} (hstands : fact.StandsIn record) :
    record.SpellsIdentifiers identifierNames fact.change.eventType.layout := by
  constructor
  · simp only [EventType.layout, List.cons_append, List.forall_mem_cons, List.forall_mem_append]
    exact ⟨fun _ => hstands.userId.exists_ofText, hstands.change.own_spells,
      fun hname => absurd hname fact.change.eventType.timeName_notMem, List.forall_mem_nil _⟩
  · intro id inner hmem field nested hfield hnested
    obtain ⟨hlisted, rfl⟩ := fact.change.eventType.layout_sound.field?_eq_some_iff.mp hfield
    obtain ⟨htype, hid, rfl⟩ := EventType.nested_eq field hlisted nested hnested
    obtain ⟨address, found, hget, haddress⟩ := hstands.change.exists_address htype
    rw [← hid, get?_eq_some_iff.mpr hmem] at hget
    cases hget
    exact haddress.spells

/-! ## The record of a rebuilt fact -/

theorem EventType.coveredBy_of_own
    {eventType : EventType} {field : Field} {nested : Layout} {inner : Record}
    (hcovered : record.CoveredBy eventType.layout) (hown : field ∈ eventType.ownFields)
    (hnested : field.layout = some nested) (hget : record.get? field.id = some (.record inner)) :
    inner.CoveredBy nested :=
  hcovered.within (get?_eq_some_iff.mp hget) (field?_own hown) hnested

theorem Address.StandsIn.toRecord_eq
    {address : Address} (hstands : address.StandsIn record)
    (hdeclared : record.Declared layout) :
    address.toRecord = record.respelled identifierNames layout := by
  apply eq_respelled_of_fields ascending_layout address.declared_toRecord hdeclared
  obtain ⟨_, hget, hspells⟩ := hstands.addressId
  simp [layout, toRecord, get?_insert, get?_insertIfSome, hget, hstands.streetAddress,
    hstands.detailAddress, hstands.zipCode, hstands.isDefault, hstands.name, hstands.city,
    hstands.state, hstands.country, identifierNames, Value.respelled_text_of_ofText _ hspells,
    Value.respelled_text_of_notMem, Value.respelled_bool, Function.comp_def]

theorem Change.StandsIn.get?_toRecord
    {change : Change} (hstands : change.StandsIn record)
    (hcovered : record.CoveredBy change.eventType.layout) (userId : Uuid) (time : Instant) :
    ∀ field ∈ change.eventType.ownFields,
      (Fact.toRecord { userId, change, time }).get? field.id =
        (record.get? field.id).map (Value.respelled identifierNames (some field)) := by
  cases change with
  | created registration =>
      simp [eventType, EventType.ownFields, EventType.timeField, userIdField, Fact.toRecord,
        intoRecord, get?_insert, get?_insertIfSome, hstands.username, hstands.email, hstands.name,
        hstands.phoneNumber, hstands.userType, identifierNames, Value.respelled_text_of_notMem,
        Function.comp_def]
  | profileUpdated name phoneNumber =>
      simp [eventType, EventType.ownFields, EventType.timeField, userIdField, Fact.toRecord,
        intoRecord, get?_insert, get?_insertIfSome, hstands.1, hstands.2, identifierNames,
        Value.respelled_text_of_notMem, Function.comp_def]
  | addressAdded address | addressUpdated address =>
      obtain ⟨inner, hget, haddress⟩ := hstands
      have hinside := EventType.coveredBy_of_own hcovered List.mem_cons_self rfl hget
      have hrespelled := haddress.toRecord_eq hinside.here
      simp [eventType, EventType.ownFields, EventType.timeField, Fact.toRecord, intoRecord,
        get?_insert, hget, hrespelled, Value.respelled_record]
  | addressDeleted addressId =>
      obtain ⟨_, hget, hspells⟩ := hstands
      simp [eventType, EventType.ownFields, EventType.timeField, Fact.toRecord, intoRecord,
        get?_insert, hget, identifierNames, Value.respelled_text_of_ofText _ hspells]
  | deleted | passwordChanged | withdrawn | deactivated | activated =>
      simp [eventType, EventType.ownFields]

theorem Fact.StandsIn.toRecord_eq
    {fact : Fact} (hstands : fact.StandsIn record)
    (hcovered : record.CoveredBy fact.change.eventType.layout) :
    fact.toRecord = record.respelled identifierNames fact.change.eventType.layout := by
  have hascending := fact.change.eventType.layout_sound.ascending
  apply eq_respelled_of_fields hascending fact.declared_toRecord hcovered.here
  obtain ⟨_, hget, hspells⟩ := hstands.userId
  have hown := hstands.change.get?_toRecord hcovered fact.userId fact.time
  simp only [EventType.layout, List.cons_append, List.forall_mem_cons, List.forall_mem_append]
  refine ⟨?_, hown, ?_, List.forall_mem_nil _⟩
  · simp [fact.get?_userId, hget, identifierNames, Value.respelled_text_of_ofText _ hspells]
  · rw [fact.get?_time, hstands.time, Option.map_some, Value.respelled_timestamp]

end Rebuilding

/-- A fact is rebuilt from whatever record is read by the schema of an event type, if the texts in
it are the spellings of identifiers and of the kind of an account that they have to be, and only
then.  It is of the same event type, and makes the record that was read, with every identifier in
it, in an address too, spelled as identifiers are written. -/
theorem ofRecord_of_decode
    {eventType : EventType} {filled : Registry} {schema : Schema} {payload : Bytes}
    {limits : Limits} {version : UInt32} {record : Record} (hfilled : registry = .ok filled)
    (hschema : filled.lookup eventType.name = .ok schema)
    (hread : Payload.decode schema payload limits = .ok (version, record)) :
    ((∃ fact, Fact.ofRecord eventType.name record = .ok fact) ↔
      record.SpellsIdentifiers identifierNames schema.layout ∧
        (eventType = .created →
          record.get? 6 = some (.text "CUSTOMER") ∨ record.get? 6 = some (.text "ADMIN"))) ∧
      ∀ fact, Fact.ofRecord eventType.name record = .ok fact →
        fact.eventType = eventType.name ∧
          fact.toRecord = record.respelled identifierNames schema.layout := by
  obtain rfl := eq_schema_of_lookup hfilled hschema
  obtain ⟨hcovered, hfits⟩ := Payload.coveredBy_and_fits_of_decode hread
  have hfact : ∀ fact, Fact.ofRecord eventType.name record = .ok fact →
      fact.change.eventType = eventType ∧ fact.StandsIn record := by
    intro fact hrebuilt
    obtain ⟨hname, hstands⟩ := Fact.ofRecord_eq_ok_iff.mp hrebuilt
    exact ⟨EventType.name_injective hname, hstands⟩
  refine ⟨⟨?_, ?_⟩, ?_⟩
  · rintro ⟨fact, hrebuilt⟩
    obtain ⟨rfl, hstands⟩ := hfact fact hrebuilt
    exact ⟨hstands.spells, hstands.change.kind_spelled⟩
  · rintro ⟨hspells, hkind⟩
    obtain ⟨fact, hname, hstands⟩ := Fact.exists_standsIn hcovered hfits hspells hkind
    exact ⟨fact, Fact.ofRecord_eq_ok_iff.mpr ⟨hname, hstands⟩⟩
  · intro fact hrebuilt
    obtain ⟨rfl, hstands⟩ := hfact fact hrebuilt
    exact ⟨rfl, hstands.toRecord_eq hcovered⟩

/-- A payload of the first version, with a field that is not known and two identifiers in spellings
in which they are not written. -/
def housePayload : Bytes :=
  [1, 1, 2, 32] ++ Text.toUtf8 "A0B1C2D3E4F5061728394A5B6C7D8E9F" ++ [2, 5, 59, 1, 2, 45] ++
    Text.toUtf8 "urn:uuid:7a7a7a7a-7a7a-7a7a-7a7a-7A7A7A7A7A7A" ++
    [2, 2, 1, 65, 4, 2, 1, 57, 5, 0, 1, 3, 4, 0, 0, 0, 0, 0, 0, 0, 2, 9, 1, 5]

def houseRecord : Record :=
  Record.empty
    |>.insert 1 (.text "A0B1C2D3E4F5061728394A5B6C7D8E9F")
    |>.insert 2 (.record
      (Record.empty
        |>.insert 1 (.text "urn:uuid:7a7a7a7a-7a7a-7a7a-7a7a-7A7A7A7A7A7A")
        |>.insert 2 (.text "A")
        |>.insert 4 (.text "9")
        |>.insert 5 (.bool true)))
    |>.insert 3 (.timestamp ⟨0, 2000000, by decide⟩)

def house : Fact where
  userId := ⟨[0xa0, 0xb1, 0xc2, 0xd3, 0xe4, 0xf5, 0x06, 0x17, 0x28, 0x39, 0x4a, 0x5b, 0x6c, 0x7d,
    0x8e, 0x9f], rfl⟩
  change := .addressAdded {
    addressId := ⟨List.replicate 16 0x7a, rfl⟩
    streetAddress := "A"
    detailAddress := none
    zipCode := "9"
    isDefault := true
    name := none
    city := none
    state := none
    country := none }
  time := ⟨0, 2000000, by decide⟩

theorem ofRecord_of_decode_house :
    ∃ filled, registry = .ok filled ∧
      filled.lookup "UserAddressAdded" = .ok EventType.addressAdded.schema ∧
      Payload.decode EventType.addressAdded.schema housePayload {} = .ok (1, houseRecord) ∧
      Fact.ofRecord "UserAddressAdded" houseRecord = .ok house ∧
      house.toRecord =
        houseRecord.respelled identifierNames EventType.addressAdded.schema.layout := by
  obtain ⟨filled, hfilled, hfind⟩ := exists_registry
  have hschema : filled.lookup EventType.addressAdded.name = .ok EventType.addressAdded.schema := by
    rw [Registry.lookup_eq_ok_iff, hfind, EventType.ofName?_name, Option.map_some]
  have hread : Payload.decode EventType.addressAdded.schema housePayload {} =
      .ok (1, houseRecord) := by
    with_unfolding_all rfl
  have hrebuilt : Fact.ofRecord EventType.addressAdded.name houseRecord = .ok house := by
    decide +kernel
  obtain ⟨_, hmade⟩ := ofRecord_of_decode hfilled hschema hread
  exact ⟨filled, hfilled, hschema, hread, hrebuilt, (hmade house hrebuilt).2⟩

end User
end EventCourier
