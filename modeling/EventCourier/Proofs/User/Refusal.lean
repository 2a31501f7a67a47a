import EventCourier.Proofs.User.Inbound
import EventCourier.Proofs.User.Schemas

/-!
# Why an event is refused

A consumer goes by the kind of a refusal: what cannot be decoded is set aside, and what is of an
event type without a schema waits until there is one.  The kind follows from the order in which an
envelope is looked at.  The event type comes after the envelope, its aggregate type and its ids, and
before the payload, so that nothing in a payload makes an event type unknown.
-/

namespace EventCourier

/-- The error is about what was to be decoded. -/
def CodecError.OfDecoding (error : CodecError) : Prop :=
  ∃ cause, error = .decoding cause

namespace Codec

theorem ofDecoding_of_decodeRecord
    {σ : Type} {codec : Codec σ} {schema : Schema} {eventType : String} {payload : Bytes}
    {error : CodecError} (hrefused : codec.decodeRecord schema eventType payload = .error error) :
    error.OfDecoding := by
  unfold decodeRecord at hrefused
  split at hrefused
  · split at hrefused
    · cases hrefused
      exact ⟨_, rfl⟩
    · cases hrefused
  · rw [map_eq_error_iff] at hrefused
    exact Payload.exists_decoding_of_decode_error hrefused

end Codec

namespace User

theorem ofDecoding_of_envelopeId
    {name s : String} {error : CodecError} (hrefused : envelopeId name s = .error error) :
    error.OfDecoding := by
  unfold envelopeId at hrefused
  split at hrefused
  · cases hrefused
  · cases hrefused
    exact ⟨_, rfl⟩

/-- A record of a known event type is never refused for its event type. -/
theorem Fact.ofDecoding_of_ofRecord
    {eventType : EventType} {record : Record} {error : CodecError}
    (hrefused : ofRecord eventType.name record = .error error) : error.OfDecoding := by
  rw [ofRecord, EventType.ofName?_name] at hrefused
  dsimp only at hrefused
  split at hrefused
  · cases hrefused
  · cases hrefused
    exact ⟨_, rfl⟩

section Refusal

variable {limits : Limits} {eventCodec : Codec Fact}

/-- The event type decides before anything of the payload is looked at. -/
theorem decodePayload_of_unknown
    {name : String} (hcodec : codec limits = .ok eventCodec)
    (hunknown : ∀ eventType : EventType, eventType.name ≠ name) (payload : Bytes) :
    eventCodec.decodePayload name payload = .error (.unknownEventType name) := by
  obtain ⟨_, _, hfind⟩ := codec_eq_ok hcodec
  have hnone : eventCodec.registry.find? name = none := by
    rw [hfind, Option.map_eq_none_iff, EventType.ofName?, List.find?_eq_none]
    intro eventType _ hname
    exact hunknown eventType (beq_iff_eq.mp hname)
  simp [Codec.decodePayload, Registry.lookup, hnone, bind, Except.bind]

theorem ofDecoding_of_decodePayload
    {eventType : EventType} {payload : Bytes} {error : CodecError}
    (hcodec : codec limits = .ok eventCodec)
    (hrefused : eventCodec.decodePayload eventType.name payload = .error error) :
    error.OfDecoding := by
  obtain ⟨hfamily, _, hfind⟩ := codec_eq_ok hcodec
  have hlookup : eventCodec.registry.lookup eventType.name = .ok eventType.schema := by
    rw [Registry.lookup_eq_ok_iff, hfind, EventType.ofName?_name]
    rfl
  simp only [Codec.decodePayload, bind_eq_error_iff, hlookup, reduceCtorEq, false_or,
    Except.ok.injEq, exists_eq_left'] at hrefused
  rcases hrefused with hrecord | ⟨record, _, hfact⟩
  · exact Codec.ofDecoding_of_decodeRecord hrecord
  · rw [hfamily] at hfact
    exact Fact.ofDecoding_of_ofRecord hfact

/-- An envelope about a user, with identifiers where there must be some. -/
structure Addressed (envelope : Envelope) : Prop where
  aggregateType_eq : envelope.aggregateType = aggregateType
  eventId : ∃ id, Uuid.ofText envelope.eventId = .ok id
  aggregateId : ∃ id, Uuid.ofText envelope.aggregateId = .ok id

theorem decodeEvent_of_unknown
    {bytes : Bytes} {envelope : Envelope} (hcodec : codec limits = .ok eventCodec)
    (hread : Envelope.decode bytes limits = .ok envelope) (haddressed : Addressed envelope)
    (hunknown : ∀ eventType : EventType, eventType.name ≠ envelope.eventType) :
    decodeEvent eventCodec bytes = .error (.unknownEventType envelope.eventType) := by
  obtain ⟨_, hlimits, _⟩ := codec_eq_ok hcodec
  obtain ⟨haggregate, ⟨eventId, heventId⟩, ⟨aggregateId, haggregateId⟩⟩ := haddressed
  rw [← envelopeId_eq_ok_iff] at heventId haggregateId
  have hpayload := decodePayload_of_unknown hcodec hunknown envelope.payload
  simp only [decodeEvent, Codec.decodeEnvelope, hlimits, bind_eq_error_iff, guard_eq_error_iff]
  refine .inr ⟨envelope, hread, .inr ⟨not_not.mpr haggregate, .inr ?_⟩⟩
  exact ⟨eventId, heventId, .inr ⟨aggregateId, haggregateId, .inl hpayload⟩⟩

/-- Whatever octets are refused, the refusal is about decoding them, or else they are an envelope
about a user of an event type that no user event has. -/
theorem refusal_of_decodeEvent
    {bytes : Bytes} {error : CodecError} (hcodec : codec limits = .ok eventCodec)
    (hrefused : decodeEvent eventCodec bytes = .error error) :
    error.OfDecoding ∨
      ∃ envelope, Envelope.decode bytes limits = .ok envelope ∧ Addressed envelope ∧
        (∀ eventType : EventType, eventType.name ≠ envelope.eventType) ∧
        error = .unknownEventType envelope.eventType := by
  obtain ⟨_, hlimits, _⟩ := codec_eq_ok hcodec
  simp only [decodeEvent, Codec.decodeEnvelope, hlimits, bind_eq_error_iff, guard_eq_error_iff,
    pure_ne_error, and_false, or_false] at hrefused
  rcases hrefused with henvelope | ⟨envelope, hread, ⟨_, rfl⟩ | ⟨haggregate, hrefused⟩⟩
  · exact .inl (Envelope.exists_decoding_of_decode_error henvelope)
  · exact .inl ⟨_, rfl⟩
  rcases hrefused with heventId | ⟨eventId, heventId, hrefused⟩
  · exact .inl (ofDecoding_of_envelopeId heventId)
  rcases hrefused with haggregateId | ⟨aggregateId, haggregateId, hrefused⟩
  · exact .inl (ofDecoding_of_envelopeId haggregateId)
  rw [envelopeId_eq_ok_iff] at heventId haggregateId
  rcases hrefused with hpayload | ⟨fact, _, _, rfl⟩
  · by_cases hknown : ∃ eventType : EventType, eventType.name = envelope.eventType
    · obtain ⟨eventType, hname⟩ := hknown
      rw [← hname] at hpayload
      exact .inl (ofDecoding_of_decodePayload hcodec hpayload)
    · have hunknown := not_exists.mp hknown
      rw [decodePayload_of_unknown hcodec hunknown] at hpayload
      exact .inr ⟨envelope, hread, ⟨not_not.mp haggregate, ⟨_, heventId⟩, ⟨_, haggregateId⟩⟩,
        hunknown, (Except.error.inj hpayload).symm⟩
  · exact .inl ⟨_, rfl⟩

end Refusal

/-- Whatever octets a consumer is given, it gets an event or is told that they cannot be decoded or
that the event type is unknown.  It is told the last exactly of an envelope about a user, with ids
that are identifiers, whose event type is none of the known ones, and whatever the payload.  The
event that it gets is what the payload says, of the user that the envelope names. -/
theorem decodeEvent_outcomes (limits : Limits) :
    ∃ eventCodec, codec limits = .ok eventCodec ∧ ∀ bytes,
      ((∃ event, decodeEvent eventCodec bytes = .ok event) ∨
        (∃ cause, decodeEvent eventCodec bytes = .error (.decoding cause)) ∨
        ∃ name, decodeEvent eventCodec bytes = .error (.unknownEventType name)) ∧
      (∀ name, decodeEvent eventCodec bytes = .error (.unknownEventType name) ↔
        ∃ envelope, Envelope.decode bytes limits = .ok envelope ∧ Addressed envelope ∧
          envelope.eventType = name ∧ ∀ eventType : EventType, eventType.name ≠ name) ∧
      ∀ event, decodeEvent eventCodec bytes = .ok event →
        ∃ envelope, Envelope.decode bytes limits = .ok envelope ∧
          eventCodec.decodePayload envelope.eventType envelope.payload = .ok event.fact ∧
          Uuid.ofText envelope.aggregateId = .ok event.fact.userId := by
  obtain ⟨eventCodec, hcodec⟩ := exists_codec limits
  obtain ⟨_, hlimits, _⟩ := codec_eq_ok hcodec
  refine ⟨eventCodec, hcodec, fun bytes => ⟨?_, fun name => ⟨?_, ?_⟩, ?_⟩⟩
  · cases hread : decodeEvent eventCodec bytes with
    | ok event => exact .inl ⟨event, rfl⟩
    | error error =>
        rcases refusal_of_decodeEvent hcodec hread with ⟨cause, rfl⟩ | ⟨_, _, _, _, rfl⟩
        · exact .inr (.inl ⟨cause, rfl⟩)
        · exact .inr (.inr ⟨_, rfl⟩)
  · intro hrefused
    rcases refusal_of_decodeEvent hcodec hrefused with
      ⟨_, hcause⟩ | ⟨envelope, hread, haddressed, hunknown, hname⟩
    · cases hcause
    · cases hname
      exact ⟨envelope, hread, haddressed, rfl, hunknown⟩
  · rintro ⟨envelope, hread, haddressed, rfl, hunknown⟩
    exact decodeEvent_of_unknown hcodec hread haddressed hunknown
  · intro event hread
    obtain ⟨envelope, henvelope, _, _, haggregateId, hpayload, huser, _⟩ :=
      decodeEvent_eq_ok_iff.mp hread
    rw [hlimits] at henvelope
    rw [← huser] at haggregateId
    exact ⟨envelope, henvelope, hpayload, haggregateId⟩

end User
end EventCourier
