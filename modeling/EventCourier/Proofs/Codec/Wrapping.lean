import EventCourier.Proofs.User.Payload

/-!
# Wrapping and unwrapping

A snapshot can be wrapped in an envelope of its event type exactly when its payload can be encoded
and the envelope can then be written.  What was wrapped can always be unwrapped: a payload is never
empty, and the limits that it kept as a payload are those that it has to keep in an envelope.
-/

namespace EventCourier

/-- The snapshots are rebuilt from the records that they become. -/
def SnapshotFamily.Faithful {σ : Type} (family : SnapshotFamily σ) : Prop :=
  ∀ snapshot,
    family.fromRecord (family.eventType snapshot) (family.toRecord snapshot) = .ok snapshot

theorem User.Fact.faithful_family : family.Faithful :=
  ofRecord_toRecord

/-- A payload begins with the version that it was written at. -/
theorem Payload.schemaVersion_of_encode
    {schema : Schema} {record : Record} {limits : Limits} {payload : Bytes}
    (hwritten : encode schema record limits = .ok payload) :
    schemaVersion payload = .ok schema.version := by
  obtain ⟨_, rfl, _⟩ := encode_eq_ok_iff.mp hwritten
  have hrun : version.run (Varint.encode schema.version.toNat ++ record.written) =
      .ok schema.version := by
    rw [accepts_version.run_eq_ok_iff]
    exact ⟨_, _, rfl, schema.version_ne_zero, Varint.spells_encode_toUInt64 schema.version⟩
  rw [schemaVersion, hrun]

namespace Codec

section Wrapping

variable {σ : Type} {codec : Codec σ} {snapshot : σ} {envelope : Envelope} {bytes : Bytes}

theorem wrap_eq_ok_iff :
    codec.wrap snapshot envelope = .ok bytes ↔
      envelope.eventType = codec.family.eventType snapshot ∧
        ∃ payload, codec.encodePayload snapshot = .ok payload ∧
          codec.encodeEnvelope { envelope with payload } = .ok bytes := by
  simp only [wrap, guard_eq_ok_iff, bind_eq_ok_iff, ne_eq, Decidable.not_not]

theorem unwrap_eq_ok_iff :
    codec.unwrap bytes = .ok (envelope, snapshot) ↔
      Envelope.decode bytes codec.limits = .ok envelope ∧
        codec.decodePayload envelope.eventType envelope.payload = .ok snapshot := by
  simp only [unwrap, decodeEnvelope, bind_eq_ok_iff, pure_eq_ok_iff, Prod.mk.injEq]
  constructor
  · rintro ⟨_, hdecode, _, hsnapshot, rfl, rfl⟩
    exact ⟨hdecode, hsnapshot⟩
  · rintro ⟨hdecode, hsnapshot⟩
    exact ⟨_, hdecode, _, hsnapshot, rfl, rfl⟩

/-- With an encoded payload an envelope of the same event type has a schema and is not empty, so
only the limits can keep it from being written. -/
theorem encodeEnvelope_eq_encode
    {payload : Bytes} (hpayload : codec.encodePayload snapshot = .ok payload)
    (htype : envelope.eventType = codec.family.eventType snapshot) :
    codec.encodeEnvelope { envelope with payload } =
      ({ envelope with payload } : Envelope).encode codec.limits := by
  obtain ⟨schema, hschema, hencode⟩ := encodePayload_eq_ok_iff.mp hpayload
  have hnonempty := Payload.ne_nil_of_encode hencode
  have hlookup : codec.registry.lookup envelope.eventType = .ok schema := by
    rw [htype]
    exact Registry.lookup_eq_ok_iff.mpr hschema
  simp [encodeEnvelope, hlookup, hnonempty, bind, Except.bind]

end Wrapping

/-- What is wrapped is unwrapped as it was, around the payload of the snapshot, whatever payload
the envelope came with.  Wrapping fails only where encoding the payload or writing the envelope
does, or where the envelope is of another event type. -/
theorem unwrap_wrap
    {σ : Type} {codec : Codec σ} (hfamily : codec.family.Faithful) (snapshot : σ)
    (envelope : Envelope) :
    (∀ bytes, codec.wrap snapshot envelope = .ok bytes ↔
      envelope.eventType = codec.family.eventType snapshot ∧
        ∃ payload, codec.encodePayload snapshot = .ok payload ∧
          ({ envelope with payload } : Envelope).encode codec.limits = .ok bytes) ∧
      (∀ payload, codec.wrap snapshot { envelope with payload } = codec.wrap snapshot envelope) ∧
      ∀ bytes, codec.wrap snapshot envelope = .ok bytes →
        ∃ payload schema, codec.encodePayload snapshot = .ok payload ∧
          codec.registry.lookup (codec.family.eventType snapshot) = .ok schema ∧
          codec.unwrap bytes = .ok ({ envelope with payload }, snapshot) ∧
          codec.peekEventType bytes = .ok (codec.family.eventType snapshot) ∧
          payload ≠ [] ∧ Payload.schemaVersion payload = .ok schema.version := by
  have hwrap : ∀ bytes, codec.wrap snapshot envelope = .ok bytes ↔
      envelope.eventType = codec.family.eventType snapshot ∧
        ∃ payload, codec.encodePayload snapshot = .ok payload ∧
          ({ envelope with payload } : Envelope).encode codec.limits = .ok bytes := by
    intro bytes
    rw [wrap_eq_ok_iff]
    refine and_congr_right fun htype => exists_congr fun payload => ?_
    refine and_congr_right fun hpayload => ?_
    rw [encodeEnvelope_eq_encode hpayload htype]
  refine ⟨hwrap, fun payload => rfl, fun bytes hbytes => ?_⟩
  obtain ⟨htype, payload, hpayload, hencode⟩ := (hwrap bytes).mp hbytes
  obtain ⟨schema, hschema, hwritten⟩ := encodePayload_eq_ok_iff.mp hpayload
  obtain ⟨hfits, rfl⟩ := Envelope.encode_eq_ok_iff.mp hencode
  have hdecode : Envelope.decode ({ envelope with payload } : Envelope).written codec.limits =
      .ok { envelope with payload } := by
    have hread := (Envelope.decode_written_eq_ok_iff [] hfits.exact).mpr ⟨hfits, rfl⟩
    rwa [List.append_nil] at hread
  have hsnapshot : codec.decodePayload envelope.eventType payload = .ok snapshot := by
    rw [htype]
    exact decodePayload_of_encodePayload (hfamily snapshot) hpayload
  have hpeek : codec.peekEventType ({ envelope with payload } : Envelope).written =
      .ok (codec.family.eventType snapshot) := by
    rw [peekEventType, Envelope.peekEventType, hdecode, ← htype]
    rfl
  exact ⟨payload, schema, hpayload, Registry.lookup_eq_ok_iff.mpr hschema,
    unwrap_eq_ok_iff.mpr ⟨hdecode, hsnapshot⟩, hpeek, Payload.ne_nil_of_encode hwritten,
    Payload.schemaVersion_of_encode hwritten⟩

/-- An account deleted two milliseconds before 1970. -/
def deletion : User.Fact :=
  ⟨⟨List.replicate 16 0x5c, rfl⟩, .deleted, ⟨-1, 998000000, by decide⟩⟩

/-- An envelope for it that carries something else. -/
def usedEnvelope : Envelope where
  eventId := "9"
  timestamp := ⟨0, 4000000, by decide⟩
  source := "audit"
  aggregateType := "User"
  aggregateId := "Zoë"
  eventType := "UserDeleted"
  payload := [9, 9]

theorem unwrap_wrap_deletion :
    ∃ (eventCodec : Codec User.Fact) (payload bytes : Bytes), eventCodec.family.Faithful ∧
      eventCodec.wrap deletion usedEnvelope = .ok bytes ∧
      eventCodec.unwrap bytes = .ok ({ usedEnvelope with payload }, deletion) ∧
      eventCodec.peekEventType bytes = .ok "UserDeleted" ∧ payload ≠ [] := by
  obtain ⟨eventCodec, hcodec⟩ := User.exists_codec {}
  obtain ⟨hfamily, hlimits, _⟩ := User.codec_eq_ok hcodec
  have hfaithful : eventCodec.family.Faithful := hfamily ▸ User.Fact.faithful_family
  have hwithin : deletion.Within {} := by
    rw [User.Fact.within_iff]
    exact ⟨by decide, ⟨-2, rfl⟩, by decide⟩
  obtain ⟨payload, hpayload⟩ := User.exists_encodePayload hcodec hwithin (by decide)
  obtain ⟨_, _, hlength⟩ := (User.encodePayload_eq_ok_iff hcodec).mp hpayload
  have hused : usedEnvelope.Fits {} := ⟨by decide, by decide, 4, rfl⟩
  have hfits : ({ usedEnvelope with payload } : Envelope).Fits {} :=
    ⟨hused.texts, hlength, hused.exact⟩
  have hencode := Envelope.encode_eq_ok_iff.mpr ⟨hfits, rfl⟩
  have htype : usedEnvelope.eventType = eventCodec.family.eventType deletion := by
    rw [hfamily]
    rfl
  obtain ⟨hwrap, _, hunwrap⟩ := unwrap_wrap hfaithful deletion usedEnvelope
  have hwrapped := (hwrap _).mpr ⟨htype, payload, hpayload, hlimits.symm ▸ hencode⟩
  obtain ⟨found, _, hfound, _, hopened, hpeek, hnonempty, _⟩ := hunwrap _ hwrapped
  rw [← htype] at hpeek
  exact ⟨eventCodec, found, _, hfaithful, hwrapped, hopened, hpeek, hnonempty⟩

end Codec
end EventCourier
