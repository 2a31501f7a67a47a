import EventCourier.Proofs.Outbox.RoundTrip

/-!
# The identity of a message

The payload of a message is made of the event and of the name of its source, and of nothing else
that a factory has.  Both can be told from it.  So consumers that know a payload again by its key
take two events for one only where the digest takes two payloads for one.
-/

namespace EventCourier

theorem Bytes.hex_injective {bytes other : Bytes} (hhex : bytes.hex = other.hex) :
    bytes = other := by
  have hdigits := congrArg Uuid.pairDigits (congrArg (·.toList.filterMap Uuid.digitValue?) hhex)
  simpa only [hex, String.toList_ofList, Uuid.pairDigits_digits] using hdigits

namespace Outbox
namespace Factory

theorem header?_dedupKey
    {factory : Factory} {event : User.Event} {correlationId : Uuid} {message : Message}
    (hcreated : factory.createMessage event correlationId = .ok message) :
    message.header? "dedup_key" = some (dedupKey message.payload) := by
  obtain ⟨_, _, _, _, _, _, _, rfl⟩ := createMessage_eq_ok_iff.mp hcreated
  rfl

section Identity

variable {limits limits' : Limits} {factory factory' : Factory} {event event' : User.Event}
variable {correlationId correlationId' : Uuid} {message message' : Message}

theorem payload_eq_of_event_eq
    (hcodec : User.codec limits = .ok factory.codec)
    (hcodec' : User.codec limits' = .ok factory'.codec)
    (hcreated : factory.createMessage event correlationId = .ok message)
    (hcreated' : factory'.createMessage event correlationId' = .ok message')
    (hsource : factory.config.source = factory'.config.source) :
    message.payload = message'.payload := by
  obtain ⟨_, encoded, hencoded, _, hpayload⟩ := payload_of_createMessage hcreated
  obtain ⟨_, encoded', hencoded', _, hpayload'⟩ := payload_of_createMessage hcreated'
  rw [hpayload, hpayload', User.payload_eq_of_encodePayload hcodec hcodec' hencoded hencoded',
    hsource]

theorem event_eq_of_payload_eq
    (hcodec : User.codec limits = .ok factory.codec)
    (hcodec' : User.codec limits' = .ok factory'.codec)
    (hcreated : factory.createMessage event correlationId = .ok message)
    (hcreated' : factory'.createMessage event' correlationId' = .ok message')
    (hshared : message.payload = message'.payload) :
    event = event' ∧ factory.config.source = factory'.config.source := by
  obtain ⟨hevent, encoded, hencoded, hfits, hpayload⟩ := payload_of_createMessage hcreated
  obtain ⟨hevent', encoded', hencoded', hfits', hpayload'⟩ := payload_of_createMessage hcreated'
  rw [hpayload, hpayload'] at hshared
  have henvelope := Envelope.written_injective hfits hfits'.exact hshared
  simp only [User.Event.envelope, Envelope.mk.injEq] at henvelope
  obtain ⟨heventId, htime, hsource, _, _, htype, rfl⟩ := henvelope
  have hfact := User.fact_eq_of_encodePayload hcodec hcodec' htype hencoded hencoded'
  rw [hevent, hevent', Uuid.toText_injective heventId, htime, hfact]
  exact ⟨rfl, hsource⟩

/-- Messages have the same payload exactly when they are made of the same event for the same
source.  Limits, topics, environments, clocks and correlation identifiers have no part in it, nor in
the key that follows from the payload; and different events have the same key only where the digest
of different payloads is the same. -/
theorem payload_eq_iff_event_eq
    (hcodec : User.codec limits = .ok factory.codec)
    (hcodec' : User.codec limits' = .ok factory'.codec)
    (hcreated : factory.createMessage event correlationId = .ok message)
    (hcreated' : factory'.createMessage event' correlationId' = .ok message') :
    (message.payload = message'.payload ↔
      event = event' ∧ factory.config.source = factory'.config.source) ∧
      message.header? "dedup_key" = some (dedupKey message.payload) ∧
      message'.header? "dedup_key" = some (dedupKey message'.payload) ∧
      (event = event' → factory.config.source = factory'.config.source →
        message.header? "dedup_key" = message'.header? "dedup_key") ∧
      (event ≠ event' → message.header? "dedup_key" = message'.header? "dedup_key" →
        message.payload ≠ message'.payload ∧
          Sha256.digest message.payload = Sha256.digest message'.payload) := by
  have hkey := header?_dedupKey hcreated
  have hkey' := header?_dedupKey hcreated'
  have hiff : message.payload = message'.payload ↔
      event = event' ∧ factory.config.source = factory'.config.source := by
    constructor
    · exact event_eq_of_payload_eq hcodec hcodec' hcreated hcreated'
    · rintro ⟨rfl, hsource⟩
      exact payload_eq_of_event_eq hcodec hcodec' hcreated hcreated' hsource
  refine ⟨hiff, hkey, hkey', ?_, ?_⟩
  · intro hevent hsource
    rw [hkey, hkey', hiff.mpr ⟨hevent, hsource⟩]
  · intro hdistinct hshared
    rw [hkey, hkey', Option.some.injEq] at hshared
    exact ⟨fun hpayload => hdistinct (hiff.mp hpayload).1, Bytes.hex_injective hshared⟩

end Identity

/-- A factory with narrower limits that publishes elsewhere and later. -/
theorem payload_eq_moving :
    ∃ (wide narrow : Codec User.Fact) (message message' : Message),
      createMessage ⟨wide, {}, ⟨7, 0, by decide⟩⟩ moving mover = .ok message ∧
        createMessage ⟨narrow, { topicOverride := some "moves" }, ⟨9, 0, by decide⟩⟩ moving
          newHome.addressId = .ok message' ∧
        message.payload = message'.payload ∧
        message.header? "dedup_key" = message'.header? "dedup_key" := by
  obtain ⟨wide, hwide⟩ := User.exists_codec {}
  obtain ⟨narrow, hnarrow⟩ := User.exists_codec ⟨64, 1024, 1⟩
  have hwithin : moving.fact.Within ⟨64, 1024, 1⟩ := by
    rw [User.Fact.within_iff]
    exact ⟨by decide, ⟨-1, rfl⟩, fun _ => by decide⟩
  have hcreated : ∃ message,
      createMessage ⟨wide, {}, ⟨7, 0, by decide⟩⟩ moving mover = .ok message :=
    exists_message hwide within_moving (by decide) ⟨1, rfl⟩ (by decide) mover _ mover
  have hcreated' : ∃ message,
      createMessage ⟨narrow, { topicOverride := some "moves" }, ⟨9, 0, by decide⟩⟩ moving
        newHome.addressId = .ok message :=
    exists_message hnarrow hwithin (by decide) ⟨1, rfl⟩ (by decide) mover _ _
  obtain ⟨message, hmessage⟩ := hcreated
  obtain ⟨message', hmessage'⟩ := hcreated'
  obtain ⟨hiff, _, _, hkey, _⟩ := payload_eq_iff_event_eq hwide hnarrow hmessage hmessage'
  exact ⟨wide, narrow, message, message', hmessage, hmessage', hiff.mpr ⟨rfl, rfl⟩, hkey rfl rfl⟩

end Factory
end Outbox
end EventCourier
