import Mathlib.Data.List.Forall2

/-!
# When a result is a success

A chain of steps succeeds when each of them does.  Where a step is known to have one result if it
succeeds at all, so has whatever is made of it.  A step made for every element of a list succeeds
when it does for each of them, and fails as it does for the first for which it fails.
-/

namespace EventCourier

variable {ε ε' α β : Type}

@[simp] theorem pure_eq_ok_iff {a b : α} : (pure a : Except ε α) = .ok b ↔ a = b := by
  simp [pure, Except.pure]

@[simp] theorem pure_ne_error {a : α} {cause : ε} : (pure a : Except ε α) ≠ .error cause := by
  simp [pure, Except.pure]

theorem bind_eq_ok_iff {result : Except ε α} {next : α → Except ε β} {b : β} :
    (result >>= next) = .ok b ↔ ∃ a, result = .ok a ∧ next a = .ok b := by
  cases result <;> simp [bind, Except.bind]

theorem guard_eq_ok_iff
    {P : Prop} [Decidable P] {cause : ε} {next : α → Except ε β} {rest : Except ε β} {b : β} :
    (if P then throw cause >>= next else rest) = .ok b ↔ ¬ P ∧ rest = .ok b := by
  by_cases hP : P <;> simp [hP, throw, throwThe, MonadExceptOf.throw, bind, Except.bind]

theorem bind_eq_error_iff {result : Except ε α} {next : α → Except ε β} {cause : ε} :
    (result >>= next) = .error cause ↔
      result = .error cause ∨ ∃ a, result = .ok a ∧ next a = .error cause := by
  cases result <;> simp [bind, Except.bind]

theorem guard_eq_error_iff
    {P : Prop} [Decidable P] {refusal cause : ε} {next : α → Except ε β} {rest : Except ε β} :
    (if P then throw refusal >>= next else rest) = .error cause ↔
      P ∧ refusal = cause ∨ ¬ P ∧ rest = .error cause := by
  by_cases hP : P <;> simp [hP, throw, throwThe, MonadExceptOf.throw, bind, Except.bind]

theorem mapError_eq_ok_iff {result : Except ε α} {f : ε → ε'} {a : α} :
    result.mapError f = .ok a ↔ result = .ok a := by
  cases result <;> simp [Except.mapError]

theorem mapError_eq_error_iff {result : Except ε α} {f : ε → ε'} {cause : ε'} :
    result.mapError f = .error cause ↔ ∃ fault, result = .error fault ∧ f fault = cause := by
  cases result <;> simp [Except.mapError]

theorem map_eq_error_iff {result : Except ε α} {f : α → β} {cause : ε} :
    result.map f = .error cause ↔ result = .error cause := by
  cases result <;> simp [Except.map]

section Known

variable {result : Except ε α} {P : Prop} {value : α}

theorem not_of_eq_error
    {cause : ε} (hok : ∀ a, result = .ok a ↔ P ∧ a = value) (herror : result = .error cause) :
    ¬ P := by
  intro hP
  have hvalue := (hok value).mpr ⟨hP, rfl⟩
  rw [herror] at hvalue
  cases hvalue

theorem map_eq_ok_iff
    {f : α → β} {b : β} (hok : ∀ a, result = .ok a ↔ P ∧ a = value) :
    result.map f = .ok b ↔ P ∧ b = f value := by
  cases hresult : result with
  | error cause => simp [Except.map, not_of_eq_error hok hresult]
  | ok a =>
      have hvalue := (hok a).mp hresult
      simp [Except.map, hvalue, eq_comm]

end Known

/-! ## A step for every element -/

/-- The cause of a failure. -/
def error? : Except ε α → Option ε
  | .error cause => some cause
  | .ok _ => none

section Elements

variable {f : α → Except ε β} {elements : List α}

theorem mapM_eq_ok_iff {results : List β} :
    elements.mapM f = .ok results ↔ List.Forall₂ (fun a b => f a = .ok b) elements results := by
  induction elements generalizing results with
  | nil =>
      rw [List.mapM_nil, pure_eq_ok_iff, List.forall₂_nil_left_iff, eq_comm]
  | cons a rest ih =>
      simp only [List.mapM_cons, bind_eq_ok_iff, pure_eq_ok_iff, ih, List.forall₂_cons_left_iff]
      constructor
      · rintro ⟨b, hb, bs, hbs, rfl⟩
        exact ⟨b, bs, hb, hbs, rfl⟩
      · rintro ⟨b, bs, hb, hbs, rfl⟩
        exact ⟨b, hb, bs, hbs, rfl⟩

theorem error?_mapM : error? (elements.mapM f) = elements.findSome? fun a => error? (f a) := by
  induction elements with
  | nil => rfl
  | cons a rest ih =>
      rw [List.mapM_cons, List.findSome?_cons, ← ih]
      cases f a with
      | error cause => rfl
      | ok b => cases rest.mapM f <;> rfl

end Elements

end EventCourier
