import EventCourier.Proofs.Codec
import EventCourier.Proofs.User.Records
import EventCourier.User.Inbound

/-!
# Which events are accepted

An envelope is accepted exactly when it is about a user, its ids are spellings of identifiers, its
payload says a fact of its event type, and the fact is about the user of the envelope.  The event
has the identifiers and the instant of the envelope, and its metadata are those that follow from
its fact.
-/

namespace EventCourier
namespace User

theorem envelopeId_eq_ok_iff {name s : String} {id : Uuid} :
    envelopeId name s = .ok id ↔ Uuid.ofText s = .ok id := by
  unfold envelopeId
  cases Uuid.ofText s <;> simp

section Inbound

variable {codec : Codec Fact} {bytes : Bytes} {event : Event}

theorem decodeEvent_eq_ok_iff :
    decodeEvent codec bytes = .ok event ↔
      ∃ envelope, Envelope.decode bytes codec.limits = .ok envelope ∧
        envelope.aggregateType = aggregateType ∧
        Uuid.ofText envelope.eventId = .ok event.metadata.eventId ∧
        Uuid.ofText envelope.aggregateId = .ok event.metadata.aggregateId ∧
        codec.decodePayload envelope.eventType envelope.payload = .ok event.fact ∧
        event.fact.userId = event.metadata.aggregateId ∧
        envelope.eventType = event.metadata.eventType ∧
        envelope.timestamp = event.metadata.occurredAt := by
  simp only [decodeEvent, Codec.decodeEnvelope, bind_eq_ok_iff, guard_eq_ok_iff,
    envelopeId_eq_ok_iff, pure_eq_ok_iff, ne_eq, Decidable.not_not]
  refine exists_congr fun envelope => and_congr_right fun _ => and_congr_right fun _ => ?_
  constructor
  · rintro ⟨_, heventId, _, haggregateId, _, hfact, huser, rfl⟩
    exact ⟨heventId, haggregateId, hfact, huser, rfl, rfl⟩
  · rintro ⟨heventId, haggregateId, hfact, huser, htype, htime⟩
    refine ⟨_, heventId, _, haggregateId, _, hfact, huser, ?_⟩
    rw [htype, htime]

theorem decodePayload_eq_ok
    {name : String} {payload : Bytes} {fact : Fact} (hfamily : codec.family = Fact.family)
    (hread : codec.decodePayload name payload = .ok fact) :
    fact.eventType = name ∧ ∃ record, record.Admitted codec.limits 0 ∧ fact.StandsIn record := by
  obtain ⟨schema, _, record, hrecord, hfact⟩ := Codec.decodePayload_eq_ok_iff.mp hread
  rw [hfamily] at hfact
  obtain ⟨hname, hstands⟩ := Fact.ofRecord_eq_ok_iff.mp hfact
  exact ⟨hname, record, Codec.admitted_of_decodeRecord hrecord, hstands⟩

/-- The metadata of an accepted event are those that follow from its fact. -/
theorem eq_ofFact_of_decodeEvent
    (hfamily : codec.family = Fact.family) (hread : decodeEvent codec bytes = .ok event) :
    event = .ofFact event.metadata.eventId event.metadata.occurredAt event.fact := by
  obtain ⟨envelope, _, _, _, _, hpayload, huser, htype, _⟩ := decodeEvent_eq_ok_iff.mp hread
  obtain ⟨hname, _⟩ := decodePayload_eq_ok hfamily hpayload
  rcases event with ⟨⟨eventId, eventType, aggregateId, occurredAt⟩, fact⟩
  simp_all [Event.ofFact]

end Inbound

end User
end EventCourier
