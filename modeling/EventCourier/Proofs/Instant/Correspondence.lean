import EventCourier.Proofs.Envelope.Instants
import EventCourier.Proofs.Payload.Instants

/-!
# Milliseconds and the instants that are read

A number of milliseconds whose second has a date stands for one instant, and that instant has
exactly these milliseconds.  The instants that payloads and envelopes give are those, and no others.
Where a payload or an envelope states milliseconds without a date, it is refused.
-/

namespace EventCourier
namespace Instant

/-- An instant has exactly the milliseconds that stand for it, so no two instants share them.  The
instants that have any are those that payloads give, and those that envelopes give.  Milliseconds
in a second with a date stand for an instant and are got back from it; all others are refused where
a payload or an envelope states them. -/
theorem exactMillis_corresponds (millis : Int64) :
    (∀ t, exactMillis t = .ok millis ↔ ofMillis? millis.toInt = some t) ∧
      (∀ t u, exactMillis t = .ok millis → exactMillis u = .ok millis → t = u) ∧
      (∀ t : Instant, ((∃ word, t.exactMillis = .ok word) ↔ Payload.Gives t) ∧
        ((∃ word, t.exactMillis = .ok word) ↔ Envelope.Gives t)) ∧
      (Dated millis → ∃ t, ofMillis? millis.toInt = some t ∧ exactMillis t = .ok millis) ∧
      (¬ Dated millis →
        (∀ schema payload limits there,
          Payload.StatesMillis limits schema payload millis there →
            Payload.decode schema payload limits =
              .error (.decoding (.millisOutOfRange there millis))) ∧
        ∀ bytes limits, Envelope.StatesMillis limits bytes millis →
          Envelope.decode bytes limits = .error (.decoding (.envelopeTimestamp millis))) := by
  refine ⟨fun _ => exactMillis_eq_ok_iff_ofMillis?, ?_, ?_, ?_, ?_⟩
  · intro t u ht hu
    rw [exactMillis_eq_ok_iff_ofMillis?] at ht hu
    rw [ht] at hu
    exact Option.some.inj hu
  · intro t
    exact ⟨Payload.gives_iff.symm, Envelope.gives_iff.symm⟩
  · intro hdated
    rcases exists_ofMillis?_iff.mpr hdated with ⟨t, hmillis⟩
    exact ⟨t, hmillis, exactMillis_eq_ok_iff_ofMillis?.mpr hmillis⟩
  · intro hundated
    constructor
    · intro schema payload limits there hstates
      exact hstates.decode_eq hundated
    · intro bytes limits hstates
      exact hstates.decode_eq hundated

/-- An instant before 1970, a millisecond behind its second. -/
def earlyInstant : Instant := ⟨-2, 1000000, by decide⟩

/-- An instant in a second inserted within a minute, at its beginning. -/
def insertedInstant : Instant := ⟨30, 1000000000, by decide⟩

/-- The first is got back from its milliseconds, and the second is never read; milliseconds behind
the last second with a date are refused by both readers. -/
theorem exactMillis_earlyInstant :
    Dated (-1999) ∧ ofMillis? (-1999) = some earlyInstant ∧ earlyInstant.exactMillis = .ok (-1999) ∧
      Payload.Gives earlyInstant ∧ Envelope.Gives earlyInstant ∧
      ¬ Payload.Gives insertedInstant ∧ ¬ Envelope.Gives insertedInstant ∧
      ¬ Dated firstUndated ∧
      Payload.decode Payload.meters ([1] ++ Payload.undatedMeter) Payload.meterLimits =
        .error (.decoding (.millisOutOfRange "Meter.cell.at" firstUndated)) ∧
      Envelope.decode Envelope.undatedOctets {} =
        .error (.decoding (.envelopeTimestamp firstUndated)) := by
  have hmillis : ofMillis? (-1999) = some earlyInstant := by decide
  have hinserted : ¬ ∃ word, insertedInstant.exactMillis = .ok word := by
    rw [exists_exactMillis_iff]
    exact fun hwhole => absurd hwhole.1 (by decide)
  rcases exactMillis_corresponds (-1999) with ⟨hiff, _, hgives, _⟩
  have hexact := (hiff earlyInstant).mpr hmillis
  rcases exactMillis_corresponds firstUndated with ⟨_, _, _, _, hrefused⟩
  rcases hrefused not_dated_firstUndated with ⟨hpayload, henvelope⟩
  exact ⟨exists_ofMillis?_iff.mp ⟨_, hmillis⟩, hmillis, hexact, (hgives _).1.mp ⟨_, hexact⟩,
    (hgives _).2.mp ⟨_, hexact⟩, (hgives insertedInstant).1.not.mp hinserted,
    (hgives insertedInstant).2.not.mp hinserted, not_dated_firstUndated,
    hpayload _ _ _ _ Payload.statesMillis_undatedMeter,
    henvelope _ _ Envelope.statesMillis_undatedOctets⟩

end Instant
end EventCourier
