import EventCourier.Proofs.Payload.Refusal
import EventCourier.Proofs.User.Payload

/-!
# Which facts are encoded

The record of a fact always has the fields of its event type, whatever the fact and the limits.  So
a fact is refused only for its content: for a text or for the payload that is too long, for an
instant that is not a whole millisecond, or for an address where no depth is allowed.
-/

namespace EventCourier
namespace User

open Record

/-- How many octets the payload of a fact takes. -/
def Fact.encodedLen (fact : Fact) : Nat :=
  Payload.encodedLen fact.change.eventType.schema fact.toRecord

/-! ## The fields of the record of a fact -/

theorem Address.coveredBy_and_suits_toRecord (address : Address) :
    address.toRecord.CoveredBy layout ∧ address.toRecord.Suits layout := by
  apply coveredBy_and_suits_of_expects ascending_layout address.declared_toRecord
  simp [layout, toRecord, get?_insert, get?_insertIfSome, Field.expects_iff_of_ne_record,
    Field.expects_optionalText, Value.uuid, Value.kind]

theorem Change.expects
    {userId : Uuid} {change : Change} {time : Instant} :
    ∀ field ∈ change.eventType.ownFields,
      field.Expects ((Fact.toRecord { userId, change, time }).get? field.id) := by
  cases change with
  | created registration =>
      simp [eventType, EventType.ownFields, EventType.timeField, userIdField, Fact.toRecord,
        intoRecord, get?_insert, get?_insertIfSome, Field.expects_iff_of_ne_record,
        Field.expects_optionalText, Value.kind]
  | profileUpdated name phoneNumber =>
      simp [eventType, EventType.ownFields, EventType.timeField, userIdField, Fact.toRecord,
        intoRecord, get?_insert, get?_insertIfSome, Field.expects_iff_of_ne_record,
        Field.expects_optionalText, Value.kind]
  | addressAdded address | addressUpdated address =>
      simp [eventType, EventType.ownFields, EventType.timeField, Fact.toRecord, intoRecord,
        get?_insert, Field.Expects, Value.kind, address.coveredBy_and_suits_toRecord]
  | addressDeleted addressId =>
      simp [eventType, EventType.ownFields, EventType.timeField, Fact.toRecord, intoRecord,
        get?_insert, Field.expects_iff_of_ne_record, Value.kind, Value.uuid]
  | deleted | passwordChanged | withdrawn | deactivated | activated =>
      simp [eventType, EventType.ownFields]

/-- Every fact has a record with the fields of its event type, and of the right kinds. -/
theorem Fact.coveredBy_and_suits_toRecord (fact : Fact) :
    fact.toRecord.CoveredBy fact.change.eventType.layout ∧
      fact.toRecord.Suits fact.change.eventType.layout := by
  have hascending := fact.change.eventType.layout_sound.ascending
  apply coveredBy_and_suits_of_expects hascending fact.declared_toRecord
  simp only [EventType.layout, List.cons_append, List.forall_mem_cons, List.forall_mem_append,
    fact.get?_userId, fact.get?_time]
  refine ⟨?_, Change.expects, ?_, List.forall_mem_nil _⟩
  · simp [Field.expects_iff_of_ne_record, Value.uuid, Value.kind]
  · simp [Field.expects_iff_of_ne_record, Value.kind]

/-! ## Encoding -/

section Encoding

variable {limits : Limits} {eventCodec : Codec Fact} {fact : Fact}

theorem exists_encodePayload_iff (hcodec : codec limits = .ok eventCodec) :
    (∃ payload, eventCodec.encodePayload fact = .ok payload) ↔
      fact.Within limits ∧ fact.encodedLen ≤ limits.maxPayloadBytes.toNat := by
  rw [encodePayload_eq hcodec, Payload.exists_encode_eq_ok_iff, ← Fact.fits_toRecord_iff]
  rfl

theorem exists_ofContent_of_encodePayload_error
    {error : CodecError} (hcodec : codec limits = .ok eventCodec)
    (hrefused : eventCodec.encodePayload fact = .error error) :
    ∃ cause, error = .encoding cause ∧ cause.OfContent := by
  rcases fact.coveredBy_and_suits_toRecord with ⟨hcovered, hsuits⟩
  rw [encodePayload_eq hcodec] at hrefused
  exact Payload.exists_ofContent_of_encode_error hcovered hsuits hrefused

theorem length_of_encodePayload
    {payload : Bytes} (hcodec : codec limits = .ok eventCodec)
    (hwritten : eventCodec.encodePayload fact = .ok payload) :
    payload.length = fact.encodedLen := by
  rw [encodePayload_eq hcodec] at hwritten
  exact Payload.length_of_encode hwritten

theorem decodePayload_of_encodePayload
    {payload : Bytes} (hcodec : codec limits = .ok eventCodec)
    (hwritten : eventCodec.encodePayload fact = .ok payload) :
    eventCodec.decodePayload fact.eventType payload = .ok fact := by
  rcases codec_eq_ok hcodec with ⟨hfamily, _, _⟩
  have hround := @Codec.decodePayload_of_encodePayload _ eventCodec fact payload
  rw [hfamily] at hround
  exact hround fact.ofRecord_toRecord hwritten

end Encoding

/-- The payload types and their schemas agree.  A fact is encoded exactly when it is within the
limits and its payload is no longer than they allow, and decoding gives it back.  When it is refused
the cause is never that a field is unknown, missing or of another kind. -/
theorem codec_encodes_facts :
    (∀ identifier : Uuid, (Text.toUtf8 identifier.toText).length = 36) ∧
      ∀ limits, ∃ eventCodec, codec limits = .ok eventCodec ∧ ∀ fact : Fact,
        ((∃ payload, eventCodec.encodePayload fact = .ok payload) ↔
          fact.time.WholeMilli ∧
            (∀ s ∈ fact.texts, (Text.toUtf8 s).length ≤ limits.maxFieldBytes.toNat) ∧
            (fact.change.address?.isSome = true → 1 ≤ limits.maxDepth.toNat) ∧
            fact.encodedLen ≤ limits.maxPayloadBytes.toNat) ∧
        (∀ error, eventCodec.encodePayload fact = .error error →
          ∃ cause, error = .encoding cause ∧ cause.OfContent) ∧
        ∀ payload, eventCodec.encodePayload fact = .ok payload →
          payload.length = fact.encodedLen ∧
            eventCodec.decodePayload fact.eventType payload = .ok fact ∧
            ∀ other : Fact, other.eventType = fact.eventType →
              eventCodec.encodePayload other = .ok payload → other = fact := by
  refine ⟨Uuid.length_toUtf8_toText, fun limits => ?_⟩
  rcases exists_codec limits with ⟨eventCodec, hcodec⟩
  refine ⟨eventCodec, hcodec, fun fact => ⟨?_, ?_, ?_⟩⟩
  · rw [exists_encodePayload_iff hcodec, fact.within_iff, Instant.exists_exactMillis_iff]
    constructor
    · intro h
      rcases h with ⟨⟨htexts, hwhole, hdepth⟩, hlength⟩
      exact ⟨hwhole, htexts, hdepth, hlength⟩
    · intro h
      rcases h with ⟨hwhole, htexts, hdepth, hlength⟩
      exact ⟨⟨htexts, hwhole, hdepth⟩, hlength⟩
  · intro error hrefused
    exact exists_ofContent_of_encodePayload_error hcodec hrefused
  · intro payload hwritten
    refine ⟨length_of_encodePayload hcodec hwritten, ?_, ?_⟩
    · exact decodePayload_of_encodePayload hcodec hwritten
    · intro other htype hother
      exact fact_eq_of_encodePayload hcodec hcodec htype hother hwritten

end User
end EventCourier
