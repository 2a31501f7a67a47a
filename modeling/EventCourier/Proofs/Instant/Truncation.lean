import EventCourier.Proofs.Instant

/-!
# Instants cut to whole milliseconds

Truncating rounds the nanoseconds since the epoch down to whole milliseconds, and an instant in an
inserted second becomes the one of the same count in the second after it.  Behind the last second
that has a date there is no such second, so what was inserted there has no milliseconds.
-/

namespace EventCourier
namespace Instant

/-- Instants are in the order of their seconds, and within a second of their nanoseconds.  An
inserted second lies before the one after it. -/
instance : LE Instant :=
  ⟨fun t u => t.secs < u.secs ∨ t.secs = u.secs ∧ t.nanos ≤ u.nanos⟩

theorem le_iff {t u : Instant} :
    t ≤ u ↔ t.secs < u.secs ∨ t.secs = u.secs ∧ t.nanos ≤ u.nanos := Iff.rfl

/-- Nanoseconds since the epoch; an inserted second counts as the one after it. -/
def nanosSinceEpoch (t : Instant) : Int :=
  t.secs * nanosPerSecond + t.nanos

/-- It lies in a second inserted behind the last one that has a date. -/
def OutlastsCalendar (t : Instant) : Prop :=
  t.secs = latestSecond ∧ t.onLeapSecond = true

variable {t u : Instant}

theorem onLeapSecond_iff : t.onLeapSecond = true ↔ nanosPerSecond ≤ t.nanos :=
  decide_eq_true_iff

theorem onLeapSecond_eq_false_iff : t.onLeapSecond = false ↔ t.nanos < nanosPerSecond := by
  rw [← Bool.not_eq_true, onLeapSecond_iff, Nat.not_le]

theorem millis_eq (t : Instant) : t.millis = t.nanosSinceEpoch / nanosPerMilli := by
  unfold millis nanosSinceEpoch nanosPerSecond nanosPerMilli
  omega

theorem le_iff_nanosSinceEpoch_le (ht : t.onLeapSecond = false) (hu : u.onLeapSecond = false) :
    t ≤ u ↔ t.nanosSinceEpoch ≤ u.nanosSinceEpoch := by
  rw [onLeapSecond_eq_false_iff] at ht hu
  rw [le_iff]
  unfold nanosSinceEpoch
  unfold nanosPerSecond at *
  omega

/-! ## What truncating gives -/

/-- The milliseconds of an instant have a date unless it lies behind all dates. -/
theorem ofMillis?_eq_some_truncated (hdated : ¬ t.OutlastsCalendar) :
    ofMillis? t.millis = some t.truncated := by
  have hnames : NamesInstant (t.millis / 1000) ((t.millis % 1000).toNat * nanosPerMilli) := by
    rcases t.named with ⟨⟨hearliest, hlatest⟩, hnanos⟩
    rw [OutlastsCalendar, onLeapSecond_iff] at hdated
    unfold NamesInstant millis
    unfold earliestSecond latestSecond nanosPerSecond nanosPerMilli at *
    omega
  rcases exists_ofMillis?_of_names hnames with ⟨found, hmillis⟩
  rw [truncated, hmillis]
  rfl

theorem exactMillis_truncated (hdated : ¬ t.OutlastsCalendar) :
    t.truncated.exactMillis = .ok (Int64.ofInt t.millis) := by
  rw [exactMillis_eq_ok_iff_ofMillis?, toInt_ofInt_millis]
  exact ofMillis?_eq_some_truncated hdated

/-- Instants that have exact milliseconds are left alone. -/
theorem truncated_of_exactMillis {word : Int64} (hexact : t.exactMillis = .ok word) :
    t.truncated = t := by
  have hmillis := ofMillis?_millis ⟨word, hexact⟩
  rw [toInt_ofInt_millis] at hmillis
  rw [truncated, hmillis]
  rfl

/-- Behind all dates the milliseconds are those of no instant. -/
theorem ofMillis?_of_outlastsCalendar (hbehind : t.OutlastsCalendar) :
    ofMillis? t.millis = none := by
  rw [Option.eq_none_iff_forall_ne_some]
  intro found hmillis
  have hlatest := found.named.1.2
  have hnanos := onLeapSecond_iff.mp hbehind.2
  rw [(ofMillis?_eq_some_iff.mp hmillis).1] at hlatest
  unfold millis at hlatest
  rw [hbehind.1] at hlatest
  unfold latestSecond nanosPerSecond nanosPerMilli at *
  omega

theorem truncated_of_outlastsCalendar (hbehind : t.OutlastsCalendar) : t.truncated = t := by
  rw [truncated, ofMillis?_of_outlastsCalendar hbehind]
  rfl

/-- So no instant could stand in for one behind all dates. -/
theorem exactMillis_ne_of_outlastsCalendar (hbehind : t.OutlastsCalendar) (r : Instant) :
    r.exactMillis ≠ .ok (Int64.ofInt t.millis) := by
  intro hexact
  rw [exactMillis_eq_ok_iff_ofMillis?, toInt_ofInt_millis,
    ofMillis?_of_outlastsCalendar hbehind] at hexact
  cases hexact

theorem truncated_truncated (t : Instant) : t.truncated.truncated = t.truncated := by
  by_cases hbehind : t.OutlastsCalendar
  · rw [truncated_of_outlastsCalendar hbehind, truncated_of_outlastsCalendar hbehind]
  · exact truncated_of_exactMillis (exactMillis_truncated hbehind)

theorem truncated_eq_self_iff (hdated : ¬ t.OutlastsCalendar) :
    t.truncated = t ↔ ∃ word, t.exactMillis = .ok word := by
  constructor
  · intro hsame
    have hexact := exactMillis_truncated hdated
    rw [hsame] at hexact
    exact ⟨_, hexact⟩
  · intro hexact
    rcases hexact with ⟨word, hword⟩
    exact truncated_of_exactMillis hword

/-! ## Truncating and the order of instants -/

theorem not_outlastsCalendar_of_onLeapSecond_eq_false (ht : t.onLeapSecond = false) :
    ¬ t.OutlastsCalendar := by
  intro hbehind
  rw [hbehind.2] at ht
  cases ht

/-- Truncating rounds down to a whole number of milliseconds. -/
theorem nanosSinceEpoch_truncated (hdated : ¬ t.OutlastsCalendar) :
    t.truncated.nanosSinceEpoch = t.nanosSinceEpoch / nanosPerMilli * nanosPerMilli := by
  rcases ofMillis?_eq_some_iff.mp (ofMillis?_eq_some_truncated hdated) with ⟨hsecs, hnanos⟩
  rw [← millis_eq]
  unfold nanosSinceEpoch nanosPerSecond
  unfold nanosPerMilli at *
  omega

theorem onLeapSecond_truncated (hdated : ¬ t.OutlastsCalendar) :
    t.truncated.onLeapSecond = false := by
  rw [onLeapSecond_eq_false_iff]
  exact (exactMillis_eq_ok_iff.mp (exactMillis_truncated hdated)).1

theorem truncated_le (ht : t.onLeapSecond = false) : t.truncated ≤ t := by
  have hdated := not_outlastsCalendar_of_onLeapSecond_eq_false ht
  rw [le_iff_nanosSinceEpoch_le (onLeapSecond_truncated hdated) ht,
    nanosSinceEpoch_truncated hdated]
  exact Int.ediv_mul_le _ (by decide)

theorem nanosSinceEpoch_lt (hdated : ¬ t.OutlastsCalendar) :
    t.nanosSinceEpoch < t.truncated.nanosSinceEpoch + nanosPerMilli := by
  rw [nanosSinceEpoch_truncated hdated, ← add_one_mul]
  exact Int.lt_ediv_add_one_mul_self _ (by decide)

theorem truncated_mono
    (ht : t.onLeapSecond = false) (hu : u.onLeapSecond = false) (hle : t ≤ u) :
    t.truncated ≤ u.truncated := by
  have htdated := not_outlastsCalendar_of_onLeapSecond_eq_false ht
  have hudated := not_outlastsCalendar_of_onLeapSecond_eq_false hu
  rw [le_iff_nanosSinceEpoch_le ht hu] at hle
  rw [le_iff_nanosSinceEpoch_le (onLeapSecond_truncated htdated) (onLeapSecond_truncated hudated),
    nanosSinceEpoch_truncated htdated, nanosSinceEpoch_truncated hudated]
  have hquotient := Int.ediv_le_ediv (by decide : (0 : Int) < nanosPerMilli) hle
  exact Int.mul_le_mul_of_nonneg_right hquotient (by decide)

end Instant
end EventCourier
