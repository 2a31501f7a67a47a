import EventCourier.Proofs.Outbox.Message
import EventCourier.Proofs.User.Payload

/-!
# From the outbox to the consumer

A consumer with the codec of the outbox reads from every message the event that it was made of,
whatever follows the message.  And every event that the consumer accepts can be made into a message
again, if the limits leave room for identifiers and for the longest fact: re-encoded, identifiers
may be longer than they were, but nothing else is.
-/

namespace EventCourier

namespace User

theorem EventType.name_fits (eventType : EventType) :
    eventType.name ≠ "" ∧ (Text.toUtf8 eventType.name).length ≤ 36 := by
  cases eventType <;> decide

/-- An envelope for a fact within limits is within them too, if its source and payload are. -/
theorem Event.fits_envelope
    {limits : Limits} {event : Event} {source : String} {payload : Bytes}
    (hids : 36 ≤ limits.maxFieldBytes.toNat)
    (hsource : source ≠ "" ∧ (Text.toUtf8 source).length ≤ limits.maxFieldBytes.toNat)
    (hpayload : payload.length ≤ limits.maxPayloadBytes.toNat)
    (hexact : ∃ millis, event.metadata.occurredAt.exactMillis = .ok millis) :
    (event.envelope source payload).Fits limits := by
  have hidentifier : ∀ id : Uuid,
      id.toText ≠ "" ∧ (Text.toUtf8 id.toText).length ≤ limits.maxFieldBytes.toNat := fun id =>
    ⟨id.toText_ne_empty, uuid_within hids id⟩
  have hshort : ∀ s : String, s ≠ "" ∧ (Text.toUtf8 s).length ≤ 36 →
      s ≠ "" ∧ (Text.toUtf8 s).length ≤ limits.maxFieldBytes.toNat := fun s hs =>
    ⟨hs.1, Nat.le_trans hs.2 hids⟩
  have haggregateType := hshort aggregateType (by decide)
  have hname := hshort event.eventType event.fact.change.eventType.name_fits
  refine ⟨?_, hpayload, hexact⟩
  simp only [Envelope.texts, envelope, List.forall_mem_cons]
  exact ⟨hidentifier _, hsource, haggregateType, hidentifier _, hname, List.forall_mem_nil _⟩

end User

namespace Outbox
namespace Factory

variable {limits : Limits} {eventCodec : Codec User.Fact}

/-- A fact within limits that leave room for the longest one can be published. -/
theorem exists_message
    {fact : User.Fact} {occurredAt : Instant} {config : Config}
    (hcodec : User.codec limits = .ok eventCodec) (hfact : fact.Within limits)
    (hroom : 7 * limits.maxFieldBytes.toNat + 188 ≤ limits.maxPayloadBytes.toNat)
    (hexact : ∃ millis, occurredAt.exactMillis = .ok millis)
    (hsource : config.source ≠ "" ∧
      (Text.toUtf8 config.source).length ≤ limits.maxFieldBytes.toNat)
    (eventId : Uuid) (now : Instant) (correlationId : Uuid) :
    ∃ message, createMessage ⟨eventCodec, config, now⟩ (.ofFact eventId occurredAt fact)
      correlationId = .ok message := by
  obtain ⟨encoded, hencoded⟩ := User.exists_encodePayload hcodec hfact hroom
  obtain ⟨_, hpayload, hlength⟩ := (User.encodePayload_eq_ok_iff hcodec).mp hencoded
  have hnonempty : encoded ≠ [] := by
    have hversion := User.length_encode_version fact.change.eventType
    apply List.ne_nil_of_length_pos
    rw [hpayload, List.length_append]
    omega
  have hids : 36 ≤ limits.maxFieldBytes.toNat := by
    rw [← fact.userId.length_toUtf8_toText]
    exact hfact.texts _ List.mem_cons_self
  obtain ⟨_, hlimits, _⟩ := User.codec_eq_ok hcodec
  have hfits := @User.Event.fits_envelope limits (.ofFact eventId occurredAt fact) config.source
    encoded hids hsource hlength hexact
  have hfind := User.find?_eventType hcodec fact
  have henvelope := Codec.encodeEnvelope_eq_ok_iff.mpr
    ⟨⟨_, hfind, fun hempty => hnonempty hempty.1⟩, hlimits.symm ▸ hfits, rfl⟩
  exact ⟨_, createMessage_eq_ok_iff.mpr
    ⟨contradiction?_eq_none_iff.mpr rfl, _, hfind, encoded, hencoded, _, henvelope, rfl⟩⟩

/-! ## Consuming what was published -/

/-- What a consumer reads from a message, with anything behind it, is the event of the message. -/
theorem decodeEvent_createMessage
    {factory : Factory} {event : User.Event} {correlationId : Uuid} {message : Message}
    (hfamily : factory.codec.family = User.Fact.family)
    (hcreated : factory.createMessage event correlationId = .ok message) (rest : Bytes) :
    User.decodeEvent factory.codec (message.payload ++ rest) = .ok event := by
  obtain ⟨hnone, _, _, encoded, hencoded, _, henvelope, rfl⟩ := createMessage_eq_ok_iff.mp hcreated
  obtain ⟨_, hfits, rfl⟩ := Codec.encodeEnvelope_eq_ok_iff.mp henvelope
  have hevent := contradiction?_eq_none_iff.mp hnone
  have hrebuilds := event.fact.ofRecord_toRecord
  have hdecoded : factory.codec.decodePayload event.fact.eventType encoded = .ok event.fact := by
    have hround := @Codec.decodePayload_of_encodePayload _ factory.codec event.fact encoded
    rw [hfamily] at hround
    exact hround hrebuilds hencoded
  rw [User.decodeEvent_eq_ok_iff]
  refine ⟨event.envelope factory.config.source encoded, ?_, rfl, Uuid.ofText_toText _,
    Uuid.ofText_toText _, hdecoded, ?_, ?_, rfl⟩
  · exact (Envelope.decode_written_eq_ok_iff rest hfits.exact).mpr ⟨hfits, rfl⟩
  · rw [hevent]
    rfl
  · rw [hevent]
    rfl

def mover : Uuid :=
  ⟨[0x00, 0x11, 0x22, 0x33, 0x44, 0x55, 0x66, 0x77, 0x88, 0x99, 0xaa, 0xbb, 0xcc, 0xdd, 0xee, 0xff],
    rfl⟩

def newHome : User.Address where
  addressId := ⟨List.replicate 16 0x9f, rfl⟩
  streetAddress := "Rue de la Clé 7"
  detailAddress := some ""
  zipCode := "1000"
  isDefault := true
  name := none
  city := some "Bruxelles"
  state := none
  country := some "BE"

/-- An address with texts that are empty and texts that are absent, a millisecond before 1970. -/
def moving : User.Event :=
  .ofFact mover ⟨0, 1000000, by decide⟩ ⟨mover, .addressAdded newHome, ⟨-1, 999000000, by decide⟩⟩

theorem within_moving : moving.fact.Within {} := by
  rw [User.Fact.within_iff]
  exact ⟨by decide, ⟨-1, rfl⟩, fun _ => by decide⟩

theorem decodeEvent_moving :
    ∃ eventCodec message, eventCodec.family = User.Fact.family ∧
      createMessage ⟨eventCodec, {}, ⟨7, 0, by decide⟩⟩ moving mover = .ok message ∧
      User.decodeEvent eventCodec (message.payload ++ [7, 7]) = .ok moving := by
  obtain ⟨eventCodec, hcodec⟩ := User.exists_codec {}
  obtain ⟨hfamily, _⟩ := User.codec_eq_ok hcodec
  have hmessage : ∃ message,
      createMessage ⟨eventCodec, {}, ⟨7, 0, by decide⟩⟩ moving mover = .ok message :=
    exists_message hcodec within_moving (by decide) ⟨1, rfl⟩ (by decide) mover _ mover
  obtain ⟨message, hcreated⟩ := hmessage
  exact ⟨eventCodec, message, hfamily, hcreated, decodeEvent_createMessage hfamily hcreated [7, 7]⟩

/-! ## Publishing what was consumed -/

/-- An accepted event is that of its fact, and can be published again from any source that has a
name within the limits. -/
theorem createMessage_of_decodeEvent
    {bytes : Bytes} {event : User.Event} (hcodec : User.codec limits = .ok eventCodec)
    (hids : 36 ≤ limits.maxFieldBytes.toNat)
    (hroom : 8 * limits.maxFieldBytes.toNat + 256 ≤ limits.maxPayloadBytes.toNat)
    (hread : User.decodeEvent eventCodec bytes = .ok event) :
    event = .ofFact event.metadata.eventId event.metadata.occurredAt event.fact ∧
      ∀ config : Config, config.source ≠ "" →
        (Text.toUtf8 config.source).length ≤ limits.maxFieldBytes.toNat →
          ∀ now correlationId, ∃ message,
            createMessage ⟨eventCodec, config, now⟩ event correlationId = .ok message := by
  obtain ⟨hfamily, hlimits, _⟩ := User.codec_eq_ok hcodec
  have hevent := User.eq_ofFact_of_decodeEvent hfamily hread
  obtain ⟨envelope, henvelope, _, _, _, hpayload, _, _, htime⟩ :=
    User.decodeEvent_eq_ok_iff.mp hread
  obtain ⟨_, record, hadmitted, hstands⟩ := User.decodePayload_eq_ok hfamily hpayload
  rw [hlimits] at hadmitted henvelope
  have hfact := hstands.within hadmitted hids
  obtain ⟨_, _, _, hform⟩ := Envelope.decode_eq_ok_iff.mp henvelope
  have hexact : ∃ millis, event.metadata.occurredAt.exactMillis = .ok millis := by
    rw [← htime]
    exact hform.fits.exact
  refine ⟨hevent, fun config hnamed hshort now correlationId => ?_⟩
  rw [hevent]
  exact exists_message hcodec hfact (by omega) hexact ⟨hnamed, hshort⟩ _ now correlationId

/-- A payload of a later version, with the identifier as bare digits and a field that is not
known. -/
def leavingPayload : Bytes :=
  [3, 1, 2, 32] ++ Text.toUtf8 "00112233445566778899AABBCCDDEEFF" ++
    [2, 4, 0xff, 0xff, 0xff, 0xff, 0xff, 0xff, 0xff, 0xff, 9, 1, 5]

def leavingEnvelope : Envelope where
  eventId := "00112233-4455-6677-8899-AABBCCDDEEFF"
  timestamp := ⟨0, 1000000, by decide⟩
  source := "audit"
  aggregateType := "User"
  aggregateId := "urn:uuid:00112233-4455-6677-8899-aabbccddeeff"
  eventType := "UserDeleted"
  payload := leavingPayload

def leaving : User.Event :=
  .ofFact mover ⟨0, 1000000, by decide⟩ ⟨mover, .deleted, ⟨-1, 999000000, by decide⟩⟩

theorem decodeEvent_leaving
    {eventCodec : Codec User.Fact} (hcodec : User.codec {} = .ok eventCodec) :
    User.decodeEvent eventCodec (leavingEnvelope.written ++ [7, 7]) = .ok leaving := by
  obtain ⟨hfamily, hlimits, _⟩ := User.codec_eq_ok hcodec
  have hfits : leavingEnvelope.Fits {} := ⟨by decide, by decide, 1, rfl⟩
  have hread : ((Payload.decode User.EventType.deleted.schema leavingPayload {}).map (·.2) >>=
      User.Fact.ofRecord "UserDeleted") = .ok leaving.fact := by
    decide +kernel
  obtain ⟨record, hrecord, hfact⟩ := bind_eq_ok_iff.mp hread
  have hnonempty : leavingPayload ≠ [] := List.cons_ne_nil _ _
  have hpayload : eventCodec.decodePayload "UserDeleted" leavingPayload = .ok leaving.fact := by
    rw [Codec.decodePayload_eq_ok_iff, hfamily]
    refine ⟨_, User.find?_eventType hcodec leaving.fact, record, ?_, hfact⟩
    rw [Codec.decodeRecord_of_ne_nil hnonempty, hlimits]
    exact hrecord
  rw [User.decodeEvent_eq_ok_iff, hlimits]
  exact ⟨leavingEnvelope, (Envelope.decode_written_eq_ok_iff [7, 7] hfits.exact).mpr ⟨hfits, rfl⟩,
    rfl, by decide +kernel, by decide +kernel, hpayload, rfl, rfl, rfl⟩

theorem exists_message_leaving :
    ∃ eventCodec message, User.codec {} = .ok eventCodec ∧
      User.decodeEvent eventCodec (leavingEnvelope.written ++ [7, 7]) = .ok leaving ∧
      createMessage ⟨eventCodec, {}, ⟨7, 0, by decide⟩⟩ leaving mover = .ok message := by
  obtain ⟨eventCodec, hcodec⟩ := User.exists_codec {}
  have hread := decodeEvent_leaving hcodec
  obtain ⟨_, hpublish⟩ := createMessage_of_decodeEvent hcodec (by decide) (by decide) hread
  obtain ⟨message, hcreated⟩ := hpublish {} (by decide) (by decide) ⟨7, 0, by decide⟩ mover
  exact ⟨eventCodec, message, hcodec, hread, hcreated⟩

end Factory
end Outbox
end EventCourier
