import EventCourier.Instant
import Mathlib

/-!
# Instants and their milliseconds

The instants that have exact milliseconds are the whole milliseconds outside inserted seconds.  They
are also the ones that some number of milliseconds stands for, and the two correspond one to one.
-/

namespace EventCourier
namespace Instant

theorem ofParts?_eq_some_iff {secs : Int} {nanos : Nat} {t : Instant} :
    ofParts? secs nanos = some t ↔
      (nanosPerSecond ≤ nanos → secs % 60 = 59) ∧ t.secs = secs ∧ t.nanos = nanos := by
  unfold ofParts?
  split
  next hwithin =>
    simp [hwithin.1, hwithin.2]
  next hminute =>
    have hmayInsert : nanosPerSecond ≤ nanos → secs % 60 = 59 := fun hlong =>
      Decidable.byContradiction fun hother => hminute ⟨hlong, hother⟩
    rw [and_iff_right hmayInsert]
    constructor
    · intro hparts
      split at hparts
      · cases hparts
        exact ⟨rfl, rfl⟩
      · cases hparts
    · intro h
      rcases h with ⟨rfl, rfl⟩
      rw [dif_pos t.named]

theorem ofMillis?_eq_some_iff {millis : Int} {t : Instant} :
    ofMillis? millis = some t ↔
      t.secs = millis / 1000 ∧ t.nanos = (millis % 1000).toNat * nanosPerMilli := by
  have hshort : (millis % 1000).toNat * nanosPerMilli < nanosPerSecond := by
    unfold nanosPerSecond nanosPerMilli
    omega
  rw [ofMillis?, ofParts?_eq_some_iff, and_iff_right]
  intro hlong
  exact absurd hshort (Nat.not_lt.mpr hlong)

theorem exists_ofMillis?_of_names
    {millis : Int}
    (hnames : NamesInstant (millis / 1000) ((millis % 1000).toNat * nanosPerMilli)) :
    ∃ t, ofMillis? millis = some t :=
  ⟨⟨_, _, hnames⟩, ofMillis?_eq_some_iff.mpr ⟨rfl, rfl⟩⟩

theorem toInt_ofInt_millis (t : Instant) : (Int64.ofInt t.millis).toInt = t.millis := by
  rcases t.named with ⟨⟨hearliest, hlatest⟩, hnanos⟩
  unfold earliestSecond at hearliest
  unfold latestSecond at hlatest
  unfold nanosPerSecond at hnanos
  apply Int64.toInt_ofInt_of_le <;> unfold millis nanosPerMilli <;> omega

theorem exactMillis_eq_ok_iff {t : Instant} {word : Int64} :
    t.exactMillis = .ok word ↔
      t.nanos < nanosPerSecond ∧ t.nanos % nanosPerMilli = 0 ∧ word = Int64.ofInt t.millis := by
  have hleap : t.onLeapSecond = true ↔ nanosPerSecond ≤ t.nanos := decide_eq_true_iff
  unfold exactMillis
  split
  next honLeap =>
    have hge := hleap.mp honLeap
    simp [Nat.not_lt.mpr hge]
  next hnotLeap =>
    have hlt : t.nanos < nanosPerSecond := Nat.not_le.mp fun hge => hnotLeap (hleap.mpr hge)
    split
    next hpartial =>
      simp [hpartial]
    next hwhole =>
      have hzero : t.nanos % nanosPerMilli = 0 := Decidable.not_not.mp hwhole
      simp [hlt, hzero, eq_comm]

theorem exactMillis_eq_ok_iff_ofMillis? {t : Instant} {word : Int64} :
    t.exactMillis = .ok word ↔ ofMillis? word.toInt = some t := by
  rw [exactMillis_eq_ok_iff, ofMillis?_eq_some_iff]
  constructor
  · intro h
    rcases h with ⟨hnotLeap, hwhole, rfl⟩
    unfold nanosPerSecond at hnotLeap
    unfold nanosPerMilli at hwhole
    rw [toInt_ofInt_millis]
    unfold millis nanosPerMilli
    omega
  · intro h
    rcases h with ⟨hsecs, hnanos⟩
    unfold nanosPerMilli at hnanos
    have hmillis : t.millis = word.toInt := by
      unfold millis nanosPerMilli
      omega
    refine ⟨?_, ?_, ?_⟩
    · unfold nanosPerSecond
      omega
    · unfold nanosPerMilli
      omega
    · rw [hmillis, Int64.ofInt_toInt]

/-- The instant is a whole millisecond, and not in an inserted second. -/
def WholeMilli (t : Instant) : Prop :=
  t.nanos < nanosPerSecond ∧ t.nanos % nanosPerMilli = 0

theorem exists_exactMillis_iff {t : Instant} :
    (∃ millis, t.exactMillis = .ok millis) ↔ t.WholeMilli := by
  simp only [exactMillis_eq_ok_iff, WholeMilli, exists_and_left, exists_eq, and_true]

/-- An instant that has exact milliseconds is the one that they stand for. -/
theorem ofMillis?_millis {t : Instant} (hexact : ∃ millis, t.exactMillis = .ok millis) :
    ofMillis? (Int64.ofInt t.millis).toInt = some t := by
  rcases hexact with ⟨word, hword⟩
  have hmillis := (exactMillis_eq_ok_iff.mp hword).2.2
  rw [← hmillis]
  exact exactMillis_eq_ok_iff_ofMillis?.mp hword

/-! ## Milliseconds that have a date -/

/-- The milliseconds lie in a second that has a date. -/
def Dated (millis : Int64) : Prop :=
  earliestSecond * 1000 ≤ millis.toInt ∧ millis.toInt < (latestSecond + 1) * 1000

theorem exists_ofMillis?_iff {millis : Int64} :
    (∃ t, ofMillis? millis.toInt = some t) ↔ Dated millis := by
  have hnames : Dated millis ↔
      NamesInstant (millis.toInt / 1000) ((millis.toInt % 1000).toNat * nanosPerMilli) := by
    unfold Dated NamesInstant earliestSecond latestSecond nanosPerSecond nanosPerMilli
    omega
  rw [hnames]
  constructor
  · intro hgiven
    rcases hgiven with ⟨t, hmillis⟩
    rcases ofMillis?_eq_some_iff.mp hmillis with ⟨hsecs, hnanos⟩
    rw [← hsecs, ← hnanos]
    exact t.named
  · exact exists_ofMillis?_of_names

theorem ofMillis?_eq_none_iff {millis : Int64} :
    ofMillis? millis.toInt = none ↔ ¬ Dated millis := by
  rw [← exists_ofMillis?_iff, Option.eq_none_iff_forall_ne_some, not_exists]

/-- The first milliseconds behind the last second that has a date. -/
def firstUndated : Int64 := 8210266876800000

theorem not_dated_firstUndated : ¬ Dated firstUndated := by
  intro hdated
  exact absurd hdated.2 (by decide)

end Instant
end EventCourier
