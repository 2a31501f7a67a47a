import EventCourier.Proofs.Record.Admission
import EventCourier.Proofs.Record.Extent
import EventCourier.Proofs.User.Records
import EventCourier.Proofs.User.Schemas

/-!
# Facts within limits

A fact is within limits when its texts are no longer than the limits allow, its instant is a whole
millisecond, and an address in it does not lie too deep.  These are exactly the facts whose records
fit the layouts of their event types.
-/

namespace EventCourier
namespace User

/-- The texts that the record of an address has. -/
def Address.texts (address : Address) : List String :=
  address.addressId.toText :: address.streetAddress :: (address.detailAddress.toList ++
    address.zipCode :: (address.name.toList ++ (address.city.toList ++
      (address.state.toList ++ address.country.toList))))

def Change.texts : Change → List String
  | .created registration =>
    registration.username :: registration.email :: registration.name ::
      (registration.phoneNumber.toList ++ [registration.userType.spelling])
  | .profileUpdated name phoneNumber => name :: phoneNumber.toList
  | .addressAdded address | .addressUpdated address => address.texts
  | .addressDeleted addressId => [addressId.toText]
  | .deleted | .passwordChanged | .withdrawn | .deactivated | .activated => []

def Change.address? : Change → Option Address
  | .addressAdded address | .addressUpdated address => some address
  | _ => none

/-- The texts that the record of a fact has, in it and in the record of an address in it. -/
def Fact.texts (fact : Fact) : List String :=
  fact.userId.toText :: fact.change.texts

@[mk_iff]
structure Fact.Within (limits : Limits) (fact : Fact) : Prop where
  texts : ∀ s ∈ fact.texts, (Text.toUtf8 s).length ≤ limits.maxFieldBytes.toNat
  exact : ∃ millis, fact.time.exactMillis = .ok millis
  depth : fact.change.address?.isSome = true → 1 ≤ limits.maxDepth.toNat

open Record

theorem Address.ascending_layout : layout.Ascending := by
  simp [Layout.Ascending, layout]

theorem Address.declared_toRecord (address : Address) : address.toRecord.Declared layout := by
  rw [declared_iff_get? ascending_layout]
  intro id hunknown
  simp_all [layout, toRecord, get?_insert, get?_insertIfSome]

theorem Address.fits_toRecord_iff {limits : Limits} {depth : Nat} {address : Address} :
    address.toRecord.CoveredBy layout ∧ address.toRecord.Fits limits layout depth ↔
      depth ≤ limits.maxDepth.toNat ∧
        ∀ s ∈ address.texts, (Text.toUtf8 s).length ≤ limits.maxFieldBytes.toNat := by
  rw [coveredBy_and_fits_iff_admits ascending_layout,
    and_iff_right address.declared_toRecord]
  refine and_congr_right fun _ => ?_
  simp [layout, toRecord, get?_insert, get?_insertIfSome, Field.admits_text_iff,
    Field.admits_optionalText_iff, Field.admits_bool, texts, Value.uuid, or_imp, forall_and]

theorem Fact.declared_toRecord (fact : Fact) :
    fact.toRecord.Declared fact.change.eventType.layout := by
  rw [declared_iff_get? fact.change.eventType.layout_sound.ascending]
  rcases fact with ⟨userId, change, time⟩
  intro id hunknown
  cases change <;>
    simp_all [toRecord, Change.eventType, Change.intoRecord, EventType.layout, EventType.ownFields,
      EventType.timeField, userIdField, get?_insert, get?_insertIfSome]

theorem Change.admits_iff
    {limits : Limits} {userId : Uuid} {change : Change} {time : Instant} :
    (∀ field ∈ change.eventType.ownFields,
        field.Admits limits 0 ((Fact.toRecord { userId, change, time }).get? field.id)) ↔
      (∀ s ∈ change.texts, (Text.toUtf8 s).length ≤ limits.maxFieldBytes.toNat) ∧
        (change.address?.isSome = true → 1 ≤ limits.maxDepth.toNat) := by
  cases change with
  | created registration =>
      simp [eventType, EventType.ownFields, EventType.timeField, userIdField, Fact.toRecord,
        intoRecord, texts, address?, get?_insert, get?_insertIfSome, Field.admits_text_iff,
        Field.admits_optionalText_iff, or_imp, forall_and]
  | profileUpdated name phoneNumber =>
      simp [eventType, EventType.ownFields, EventType.timeField, userIdField, Fact.toRecord,
        intoRecord, texts, address?, get?_insert, get?_insertIfSome, Field.admits_text_iff,
        Field.admits_optionalText_iff]
  | addressAdded address | addressUpdated address =>
      simp [eventType, EventType.ownFields, EventType.timeField, Fact.toRecord, intoRecord, texts,
        address?, get?_insert, Field.admits_record_iff, Address.fits_toRecord_iff, and_comm]
  | addressDeleted addressId =>
      simp [eventType, EventType.ownFields, EventType.timeField, Fact.toRecord, intoRecord, texts,
        address?, get?_insert, Field.admits_text_iff, Value.uuid]
  | deleted | passwordChanged | withdrawn | deactivated | activated =>
      simp [eventType, EventType.ownFields, texts, address?]

/-- The facts within limits are exactly those whose records fit their layouts. -/
theorem Fact.fits_toRecord_iff {limits : Limits} {fact : Fact} :
    fact.toRecord.CoveredBy fact.change.eventType.layout ∧
        fact.toRecord.Fits limits fact.change.eventType.layout 0 ↔
      fact.Within limits := by
  have hascending := fact.change.eventType.layout_sound.ascending
  rw [coveredBy_and_fits_iff_admits hascending, within_iff,
    and_iff_right (Nat.zero_le _), and_iff_right fact.declared_toRecord]
  simp only [EventType.layout, List.cons_append, List.forall_mem_cons, List.forall_mem_append,
    Change.admits_iff, fact.get?_userId, fact.get?_time, Field.admits_timestamp_iff, Value.uuid,
    Field.admits_text_iff, texts, List.not_mem_nil, false_imp_iff, implies_true, and_true]
  constructor
  · rintro ⟨huser, ⟨htexts, hdepth⟩, hexact⟩
    exact ⟨⟨huser, htexts⟩, hexact, hdepth⟩
  · rintro ⟨⟨huser, htexts⟩, hexact, hdepth⟩
    exact ⟨huser, ⟨htexts, hdepth⟩, hexact⟩

/-! ## Facts read from admitted records -/

section Admitted

variable {limits : Limits} {depth : Nat} {record : Record}

theorem optionalText_within
    {id : UInt32} {s : Option String} (hadmitted : record.Admitted limits depth)
    (hget : record.get? id = s.map .text) :
    ∀ t ∈ s, (Text.toUtf8 t).length ≤ limits.maxFieldBytes.toNat := by
  rintro t rfl
  exact hadmitted.within hget

theorem uuid_within (hids : 36 ≤ limits.maxFieldBytes.toNat) (identifier : Uuid) :
    (Text.toUtf8 identifier.toText).length ≤ limits.maxFieldBytes.toNat := by
  rwa [identifier.length_toUtf8_toText]

theorem Address.StandsIn.texts_within
    {address : Address} (hstands : address.StandsIn record)
    (hadmitted : record.Admitted limits depth) (hids : 36 ≤ limits.maxFieldBytes.toNat) :
    ∀ s ∈ address.texts, (Text.toUtf8 s).length ≤ limits.maxFieldBytes.toNat := by
  simp only [texts, List.forall_mem_append, List.forall_mem_cons, Option.mem_toList]
  exact ⟨uuid_within hids address.addressId, hadmitted.within hstands.streetAddress,
    optionalText_within hadmitted hstands.detailAddress, hadmitted.within hstands.zipCode,
    optionalText_within hadmitted hstands.name, optionalText_within hadmitted hstands.city,
    optionalText_within hadmitted hstands.state, optionalText_within hadmitted hstands.country⟩

theorem Change.StandsIn.within
    {change : Change} (hstands : change.StandsIn record) (hadmitted : record.Admitted limits depth)
    (hids : 36 ≤ limits.maxFieldBytes.toNat) :
    (∀ s ∈ change.texts, (Text.toUtf8 s).length ≤ limits.maxFieldBytes.toNat) ∧
      (change.address?.isSome = true → 1 ≤ limits.maxDepth.toNat) := by
  cases change with
  | created registration =>
      refine ⟨?_, nofun⟩
      simp only [texts, List.forall_mem_append, List.forall_mem_cons, Option.mem_toList]
      exact ⟨hadmitted.within hstands.username, hadmitted.within hstands.email,
        hadmitted.within hstands.name, optionalText_within hadmitted hstands.phoneNumber,
        hadmitted.within hstands.userType, nofun⟩
  | profileUpdated name phoneNumber =>
      refine ⟨?_, nofun⟩
      simp only [texts, List.forall_mem_cons, Option.mem_toList]
      exact ⟨hadmitted.within hstands.1, optionalText_within hadmitted hstands.2⟩
  | addressAdded address | addressUpdated address =>
      obtain ⟨inner, hget, hinner⟩ := hstands
      have hadmitted' := hadmitted.inner hget
      refine ⟨hinner.texts_within hadmitted' hids, fun _ => ?_⟩
      exact Nat.le_trans (Nat.le_add_left 1 depth) hadmitted'.depth_le
  | addressDeleted addressId =>
      simp [texts, address?, uuid_within hids]
  | deleted | passwordChanged | withdrawn | deactivated | activated =>
      simp [texts, address?]

/-- A fact that stands in a record within the limits is within them, however long the texts of its
identifiers were there. -/
theorem Fact.StandsIn.within
    {fact : Fact} (hstands : fact.StandsIn record) (hadmitted : record.Admitted limits depth)
    (hids : 36 ≤ limits.maxFieldBytes.toNat) : fact.Within limits := by
  obtain ⟨htexts, hdepth⟩ := hstands.change.within hadmitted hids
  refine ⟨?_, hadmitted.within hstands.time, hdepth⟩
  rw [texts, List.forall_mem_cons]
  exact ⟨uuid_within hids fact.userId, htexts⟩

end Admitted

end User
end EventCourier
