import EventCourier.Proofs.Codec.Wrapping
import EventCourier.Proofs.Outbox.RoundTrip

/-!
# Headers and what they repeat

A factory takes the headers of a message from the event and from its schema, before anything is
encoded.  A consumer compares them with what it reads from the payload: the envelope, the version
in front of what the envelope carries, and the schema that is registered for its event type.
-/

namespace EventCourier

theorem Codec.schemaVersion_of_encodePayload
    {σ : Type} {codec : Codec σ} {snapshot : σ} {payload : Bytes} {schema : Schema}
    (hschema : codec.registry.find? (codec.family.eventType snapshot) = some schema)
    (hwritten : codec.encodePayload snapshot = .ok payload) :
    Payload.schemaVersion payload = .ok schema.version := by
  obtain ⟨found, hfound, hencode⟩ := encodePayload_eq_ok_iff.mp hwritten
  obtain rfl := Option.some.inj (hschema.symm.trans hfound)
  exact Payload.schemaVersion_of_encode hencode

namespace Outbox
namespace Factory

/-- Whatever a message says beside its payload, a consumer finds in the payload, but for the
correlation identifier, which it has from the message alone. -/
theorem headers_of_createMessage
    {factory : Factory} {event : User.Event} {correlationId : Uuid} {message : Message}
    (hfamily : factory.codec.family = User.Fact.family)
    (hcreated : factory.createMessage event correlationId = .ok message) :
    ∃ envelope schema version,
      factory.codec.decodeEnvelope message.payload = .ok envelope ∧
        factory.codec.registry.lookup envelope.eventType = .ok schema ∧
        Payload.schemaVersion envelope.payload = .ok version ∧
        envelope.source = factory.config.source ∧
        message.eventType = envelope.eventType ∧
        message.aggregateType = envelope.aggregateType ∧
        message.aggregateId = envelope.aggregateId ∧
        message.headers =
          [("aggregate_id", envelope.aggregateId),
            ("aggregate_type", envelope.aggregateType),
            ("correlation_id", correlationId.toText),
            ("dedup_key", (Sha256.digest message.payload).hex),
            ("event_id", envelope.eventId),
            ("event_type", envelope.eventType),
            ("schema_fingerprint", schema.fingerprint.hex),
            ("schema_version", toString version.toNat),
            ("timestamp", envelope.timestamp.toMillisText)] := by
  obtain ⟨_, schema, hschema, encoded, hencoded, _, henvelope, rfl⟩ :=
    createMessage_eq_ok_iff.mp hcreated
  obtain ⟨_, hfits, rfl⟩ := Codec.encodeEnvelope_eq_ok_iff.mp henvelope
  have hread : factory.codec.decodeEnvelope
      (event.envelope factory.config.source encoded).written =
        .ok (event.envelope factory.config.source encoded) := by
    have hdecode := (Envelope.decode_written_eq_ok_iff [] hfits.exact).mpr ⟨hfits, rfl⟩
    rwa [List.append_nil] at hdecode
  have hversion : Payload.schemaVersion encoded = .ok schema.version := by
    have hwritten := @Codec.schemaVersion_of_encodePayload _ factory.codec event.fact encoded schema
    rw [hfamily] at hwritten
    exact hwritten hschema hencoded
  exact ⟨_, schema, schema.version, hread, Registry.lookup_eq_ok_iff.mpr hschema, hversion,
    rfl, rfl, rfl, rfl, rfl⟩

theorem headers_of_moving :
    ∃ eventCodec message envelope version, eventCodec.family = User.Fact.family ∧
      createMessage ⟨eventCodec, {}, ⟨7, 0, by decide⟩⟩ moving mover = .ok message ∧
      eventCodec.decodeEnvelope message.payload = .ok envelope ∧
      Payload.schemaVersion envelope.payload = .ok version ∧
      message.headers.map (·.1) =
        ["aggregate_id", "aggregate_type", "correlation_id", "dedup_key", "event_id",
          "event_type", "schema_fingerprint", "schema_version", "timestamp"] ∧
      message.header? "schema_version" = some (toString version.toNat) ∧
      message.header? "timestamp" = some envelope.timestamp.toMillisText := by
  obtain ⟨eventCodec, hcodec⟩ := User.exists_codec {}
  obtain ⟨hfamily, _⟩ := User.codec_eq_ok hcodec
  have hmessage : ∃ message,
      createMessage ⟨eventCodec, {}, ⟨7, 0, by decide⟩⟩ moving mover = .ok message :=
    exists_message hcodec within_moving (by decide) ⟨1, rfl⟩ (by decide) mover _ mover
  obtain ⟨message, hcreated⟩ := hmessage
  obtain ⟨envelope, _, version, hread, _, hversion, _, _, _, _, hheaders⟩ :=
    headers_of_createMessage hfamily hcreated
  refine ⟨eventCodec, message, envelope, version, hfamily, hcreated, hread, hversion, ?_, ?_, ?_⟩
  · rw [hheaders]
    rfl
  · rw [Message.header?, hheaders]
    rfl
  · rw [Message.header?, hheaders]
    rfl

end Factory
end Outbox
end EventCourier
