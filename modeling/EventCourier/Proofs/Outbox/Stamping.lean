import EventCourier.Outbox.Staging
import EventCourier.Proofs.Instant.Truncation
import EventCourier.Proofs.Outbox.Message

/-!
# The time on a message

A message is stamped with the time that the clock shows when it is made, cut to whole milliseconds,
so that the stamp can be written like any other instant.  A clock that shows an inserted second
behind the last one that has a date is left alone: there its milliseconds have no date.
-/

namespace EventCourier
namespace Outbox
namespace Factory

theorem createdAt_of_createMessageAt
    {factory : Factory} {now : Instant} {event : User.Event} {correlationId : Uuid}
    {message : Message}
    (hcreated : factory.createMessageAt now event correlationId = .ok message) :
    message.createdAt = now.truncated := by
  rcases createMessage_eq_ok_iff.mp hcreated with ⟨_, _, _, _, _, _, _, rfl⟩
  rfl

/-- The time that a clock shows, cut to whole milliseconds, has exactly its milliseconds, and is
the same only if it had none to lose.  It is cut once for all, to the last millisecond before it,
and later times to later ones; and it is what a message made then is stamped with. -/
theorem stamp_encodable (t : Instant) :
    (¬ t.OutlastsCalendar →
        (∃ word, t.truncated.exactMillis = .ok word ∧ word.toInt = t.millis) ∧
          (t.truncated = t ↔ ∃ word, t.exactMillis = .ok word)) ∧
      t.truncated.truncated = t.truncated ∧
      (t.onLeapSecond = false →
        t.truncated ≤ t ∧
          t.nanosSinceEpoch < t.truncated.nanosSinceEpoch + nanosPerMilli ∧
          ∀ u : Instant, u.onLeapSecond = false → t ≤ u → t.truncated ≤ u.truncated) ∧
      ∀ (factory : Factory) event correlationId message,
        factory.createMessageAt t event correlationId = .ok message →
          message.createdAt = t.truncated := by
  refine ⟨?_, t.truncated_truncated, ?_, ?_⟩
  · intro hdated
    have hword := Instant.exactMillis_truncated hdated
    exact ⟨⟨_, hword, t.toInt_ofInt_millis⟩, Instant.truncated_eq_self_iff hdated⟩
  · intro ht
    have hdated := Instant.not_outlastsCalendar_of_onLeapSecond_eq_false ht
    refine ⟨Instant.truncated_le ht, Instant.nanosSinceEpoch_lt hdated, ?_⟩
    intro u hu hle
    exact Instant.truncated_mono ht hu hle
  · intro factory event correlationId message hcreated
    exact createdAt_of_createMessageAt hcreated

/-- The end of a second inserted before 1970 within a minute is stamped as the end of the second
after it. -/
def lateInserted : Instant := ⟨-62, 1999999999, by decide⟩

theorem stamp_lateInserted :
    ¬ lateInserted.OutlastsCalendar ∧ lateInserted.truncated = ⟨-61, 999000000, by decide⟩ ∧
      ∃ word, lateInserted.truncated.exactMillis = .ok word ∧ word.toInt = -60001 := by
  have hdated : ¬ lateInserted.OutlastsCalendar := by
    intro hbehind
    exact absurd hbehind.1 (by decide)
  exact ⟨hdated, by decide, ((stamp_encodable lateInserted).1 hdated).1⟩

/-- The middle of the inserted second behind the last one that has a date. -/
def lastInserted : Instant := ⟨latestSecond, 1500000000, by decide⟩

/-- Its milliseconds are those of no instant, so it could not have been cut to one of them. -/
theorem stamp_lastInserted_inexact :
    lastInserted.OutlastsCalendar ∧ lastInserted.truncated = lastInserted ∧
      (¬ ∃ word, lastInserted.truncated.exactMillis = .ok word) ∧
      (∀ r : Instant, r.exactMillis ≠ .ok (Int64.ofInt lastInserted.millis)) ∧
      ¬ (lastInserted.truncated = lastInserted ↔ ∃ word, lastInserted.exactMillis = .ok word) := by
  have hbehind : lastInserted.OutlastsCalendar := ⟨rfl, rfl⟩
  have hsame := Instant.truncated_of_outlastsCalendar hbehind
  have hrefused : lastInserted.exactMillis = .error .leapSecond := by decide
  have hinexact : ¬ ∃ word, lastInserted.exactMillis = .ok word := by
    rw [hrefused]
    nofun
  rw [hsame]
  exact ⟨hbehind, rfl, hinexact, Instant.exactMillis_ne_of_outlastsCalendar hbehind,
    fun hiff => hinexact (hiff.mp rfl)⟩

end Factory
end Outbox
end EventCourier
