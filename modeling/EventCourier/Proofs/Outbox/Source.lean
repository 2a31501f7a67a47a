import EventCourier.Proofs.Outbox.Message
import EventCourier.Proofs.Payload.Refusal

/-!
# Messages refused for want of a source

The source of a message is not the event's but the configuration's, so an empty one is refused with
every event alike.  It is refused when everything about the event is right that comes before it, and
for no other reason does a refusal name the source as empty.
-/

namespace EventCourier
namespace Envelope

theorem textFault?_eq_empty_iff {limits : Limits} {name other s : String} :
    textFault? limits name s = some (.envelopeFieldEmpty other) ↔ s = "" ∧ name = other := by
  unfold textFault?
  by_cases hempty : s = ""
  · simp [hempty, Text.toUtf8_eq_nil_iff]
  · simp [hempty, Text.toUtf8_eq_nil_iff]

/-- The source comes after the event id and before the other texts. -/
theorem findSome?_textFault?_eq_source_iff {limits : Limits} {envelope : Envelope} :
    (envelope.texts.findSome? fun (name, s) => textFault? limits name s) =
        some (.envelopeFieldEmpty "source") ↔
      textFault? limits "event_id" envelope.eventId = none ∧ envelope.source = "" := by
  constructor
  · intro hfirst
    constructor
    · cases hid : textFault? limits "event_id" envelope.eventId with
      | none => rfl
      | some cause =>
          simp only [texts, List.findSome?_cons, hid, Option.some.injEq] at hfirst
          subst hfirst
          exact absurd (textFault?_eq_empty_iff.mp hid).2 (by decide)
    · rcases List.exists_of_findSome?_eq_some hfirst with ⟨⟨name, s⟩, hmem, hfault⟩
      rcases textFault?_eq_empty_iff.mp hfault with ⟨rfl, rfl⟩
      simpa [texts] using hmem
  · intro h
    rcases h with ⟨hid, hsource⟩
    have hfault := (@textFault?_eq_empty_iff limits "source" "source" _).mpr ⟨hsource, rfl⟩
    simp only [texts, List.findSome?_cons, hid, hfault]

theorem encode_eq_source_empty_iff {envelope : Envelope} {limits : Limits} :
    envelope.encode limits = .error (.encoding (.envelopeFieldEmpty "source")) ↔
      textFault? limits "event_id" envelope.eventId = none ∧ envelope.source = "" := by
  rw [← findSome?_textFault?_eq_source_iff]
  unfold encode
  split
  next cause hcause =>
    rw [hcause, Except.error.injEq, CodecError.encoding.injEq, Option.some.injEq]
  next hnone =>
    rw [hnone]
    split
    · simp
    · split <;> simp

end Envelope

namespace Codec

variable {σ : Type} {codec : Codec σ}

theorem encodePayload_ne_ofEnvelope
    {snapshot : σ} {cause : EncodingError}
    (hrefused : codec.encodePayload snapshot = .error (.encoding cause)) : ¬ cause.OfEnvelope := by
  rw [encodePayload, bind_eq_error_iff] at hrefused
  rcases hrefused with hunknown | ⟨schema, _, hencode⟩
  · cases Registry.eq_unknown_of_lookup hunknown
  · exact Payload.not_ofEnvelope_of_encode hencode

theorem source_eq_empty_of_encodeEnvelope
    {envelope : Envelope} (hrefused : codec.encodeEnvelope envelope =
      .error (.encoding (.envelopeFieldEmpty "source"))) : envelope.source = "" := by
  rw [encodeEnvelope, bind_eq_error_iff] at hrefused
  rcases hrefused with hunknown | ⟨schema, _, hencode⟩
  · cases Registry.eq_unknown_of_lookup hunknown
  · rw [guard_eq_error_iff] at hencode
    rcases hencode with ⟨_, hempty⟩ | ⟨_, hencode⟩
    · cases hempty
    · exact (Envelope.encode_eq_source_empty_iff.mp hencode).2

/-- An envelope that could be encoded but for its source is refused for its source. -/
theorem encodeEnvelope_source_empty
    {envelope : Envelope} {bytes : Bytes} (hencoded : codec.encodeEnvelope envelope = .ok bytes) :
    codec.encodeEnvelope { envelope with source := "" } =
      .error (.encoding (.envelopeFieldEmpty "source")) := by
  rcases encodeEnvelope_eq_ok_iff.mp hencoded with ⟨⟨schema, hschema, hpayload⟩, hfits, _⟩
  have hid : Envelope.textFault? codec.limits "event_id" envelope.eventId = none :=
    Envelope.textFault?_eq_none_iff.mpr
      (hfits.texts ("event_id", envelope.eventId) List.mem_cons_self)
  rw [encodeEnvelope, bind_eq_error_iff]
  refine .inr ⟨schema, Registry.lookup_eq_ok_iff.mpr hschema, ?_⟩
  rw [guard_eq_error_iff]
  refine .inr ⟨?_, Envelope.encode_eq_source_empty_iff.mpr ⟨hid, rfl⟩⟩
  simpa using hpayload

end Codec

namespace Outbox
namespace Factory

variable {factory : Factory} {event : User.Event} {correlationId : Uuid}

/-- The factory with another source in its configuration. -/
def withSource (factory : Factory) (source : String) : Factory :=
  { factory with config := { factory.config with source } }

theorem source_eq_empty_of_createMessage
    (hrefused : factory.createMessage event correlationId =
      .error (.encoding (.envelopeFieldEmpty "source"))) : factory.config.source = "" := by
  unfold createMessage at hrefused
  cases hcontradiction : contradiction? event with
  | some cause =>
      rw [hcontradiction] at hrefused
      cases hrefused
      unfold contradiction? at hcontradiction
      split at hcontradiction
      · cases hcontradiction
      · split at hcontradiction <;> cases hcontradiction
  | none =>
      simp only [hcontradiction, bind_eq_error_iff, pure_ne_error, and_false, exists_false,
        or_false] at hrefused
      rcases hrefused with hunknown | ⟨schema, _, hpayload | ⟨encoded, _, henvelope⟩⟩
      · cases Registry.eq_unknown_of_lookup hunknown
      · exact absurd trivial (Codec.encodePayload_ne_ofEnvelope hpayload)
      · exact Codec.source_eq_empty_of_encodeEnvelope henvelope

/-- What some source makes a message of is refused without one. -/
theorem createMessage_withSource_empty
    {message : Message} (hcreated : factory.createMessage event correlationId = .ok message) :
    (factory.withSource "").createMessage event correlationId =
      .error (.encoding (.envelopeFieldEmpty "source")) := by
  rcases createMessage_eq_ok_iff.mp hcreated with
    ⟨hnone, schema, hschema, encoded, hencoded, payload, hpayload, _⟩
  have hlookup := Registry.lookup_eq_ok_iff.mpr hschema
  have henvelope := Codec.encodeEnvelope_source_empty hpayload
  unfold createMessage
  rw [hnone]
  simp only [bind_eq_error_iff]
  exact .inr ⟨schema, hlookup, .inr ⟨encoded, hencoded, .inl henvelope⟩⟩

end Factory
end Outbox
end EventCourier
