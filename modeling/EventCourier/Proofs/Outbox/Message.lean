import EventCourier.Outbox.Message
import EventCourier.Proofs.Codec
import EventCourier.Proofs.User.Inbound

/-!
# Messages and their events

A message is made exactly of the events whose metadata follow from their facts and whose payloads
and envelopes the codec encodes.
-/

namespace EventCourier
namespace Outbox
namespace Factory

theorem contradiction?_eq_none_iff {event : User.Event} :
    contradiction? event = none ↔
      event = .ofFact event.metadata.eventId event.metadata.occurredAt event.fact := by
  rcases event with ⟨⟨eventId, eventType, aggregateId, occurredAt⟩, fact⟩
  by_cases htype : eventType = fact.eventType
  · by_cases haggregate : aggregateId = fact.userId
    · simp [contradiction?, User.Event.ofFact, User.Event.eventType, htype, haggregate]
    · simp [contradiction?, User.Event.ofFact, User.Event.eventType, htype, haggregate]
  · simp [contradiction?, User.Event.ofFact, User.Event.eventType, htype]

section Creation

variable {factory : Factory} {event : User.Event} {correlationId : Uuid} {message : Message}

theorem createMessage_eq_ok_iff :
    factory.createMessage event correlationId = .ok message ↔
      contradiction? event = none ∧
        ∃ schema, factory.codec.registry.find? event.eventType = some schema ∧
          ∃ encoded, factory.codec.encodePayload event.fact = .ok encoded ∧
            ∃ payload, factory.codec.encodeEnvelope
                (event.envelope factory.config.source encoded) = .ok payload ∧
              message = {
                payload
                topic := factory.config.topic
                headers := headers (event.envelope factory.config.source encoded) schema
                  correlationId payload
                aggregateType := User.aggregateType
                aggregateId := event.metadata.aggregateId.toText
                eventType := event.eventType
                createdAt := factory.now.truncated } := by
  unfold createMessage
  cases hcontradiction : contradiction? event with
  | some cause => simp [throw, throwThe, MonadExceptOf.throw, bind, Except.bind]
  | none =>
      simp only [bind_eq_ok_iff, Registry.lookup_eq_ok_iff, pure_eq_ok_iff, true_and,
        @eq_comm _ message]
      rfl

/-- A message carries the envelope of its event, which is within the limits of the factory. -/
theorem payload_of_createMessage
    (hcreated : factory.createMessage event correlationId = .ok message) :
    event = .ofFact event.metadata.eventId event.metadata.occurredAt event.fact ∧
      ∃ encoded, factory.codec.encodePayload event.fact = .ok encoded ∧
        (event.envelope factory.config.source encoded).Fits factory.codec.limits ∧
        message.payload = (event.envelope factory.config.source encoded).written := by
  obtain ⟨hnone, _, _, encoded, hencoded, _, henvelope, rfl⟩ := createMessage_eq_ok_iff.mp hcreated
  obtain ⟨_, hfits, rfl⟩ := Codec.encodeEnvelope_eq_ok_iff.mp henvelope
  exact ⟨contradiction?_eq_none_iff.mp hnone, encoded, hencoded, hfits, rfl⟩

end Creation

end Factory
end Outbox
end EventCourier
