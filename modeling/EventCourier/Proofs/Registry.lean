import EventCourier.Proofs.Result
import EventCourier.Registry
import Mathlib

/-!
# Tables that are complete

Registering puts a schema under its event type and changes nothing under others.  A list of schemas
makes a table exactly when no two of them are for the same event type and their event types are
those of the family, and then the table has the schemas of the list.
-/

namespace EventCourier
namespace Registry

theorem find?_cons_schema (schema : Schema) (rest : List Schema) (eventType : String) :
    (schema :: rest).find? (·.eventType == eventType) =
      if schema.eventType = eventType then some schema
      else rest.find? (·.eventType == eventType) := by
  by_cases hsame : schema.eventType = eventType <;> simp [hsame]

theorem find?_insertSchema (schema : Schema) (schemas : List Schema) (eventType : String) :
    (insertSchema schema schemas).2.find? (·.eventType == eventType) =
      if schema.eventType = eventType then some schema
      else schemas.find? (·.eventType == eventType) := by
  induction schemas with
  | nil => exact find?_cons_schema schema [] eventType
  | cons other rest ih =>
      unfold insertSchema
      split
      · exact find?_cons_schema schema (other :: rest) eventType
      · split
        next hsame =>
          rw [find?_cons_schema, find?_cons_schema, ← hsame]
          split <;> rfl
        next hdifferent =>
          rw [find?_cons_schema, find?_cons_schema, ih]
          by_cases hother : other.eventType = eventType
          · have hnot : schema.eventType ≠ eventType := fun hsame =>
              hdifferent (hsame.trans hother.symm)
            simp [hother, hnot]
          · simp [hother]

/-- What a schema replaces is what was found under its event type. -/
theorem replaced_insertSchema
    (schema : Schema) {schemas : List Schema}
    (hascending : schemas.Pairwise fun a b => a.eventType < b.eventType) :
    (insertSchema schema schemas).1 = schemas.find? (·.eventType == schema.eventType) := by
  induction schemas with
  | nil => rfl
  | cons other rest ih =>
      obtain ⟨hother, hrest⟩ := List.pairwise_cons.mp hascending
      unfold insertSchema
      split
      next hbefore =>
        -- All that follow are behind the place of the schema too.
        have hbehind : ∀ later ∈ other :: rest, schema.eventType < later.eventType := by
          rw [List.forall_mem_cons]
          exact ⟨hbefore, fun later hlater => String.lt_trans hbefore (hother later hlater)⟩
        symm
        rw [List.find?_eq_none]
        intro later hlater hsame
        have hlt := hbehind later hlater
        rw [beq_iff_eq.mp hsame] at hlt
        exact String.lt_irrefl _ hlt
      next =>
        split
        next hsame =>
          rw [find?_cons_schema, if_pos hsame.symm]
        next hdifferent =>
          rw [find?_cons_schema, if_neg (Ne.symm hdifferent)]
          exact ih hrest

theorem replaced_insert (registry : Registry) (schema : Schema) :
    (registry.insert schema).1 = registry.find? schema.eventType :=
  replaced_insertSchema schema registry.ascending

/-- The table with a schema under its event type. -/
def having (registry : Registry) (schema : Schema) : Registry :=
  (registry.insert schema).2

theorem find?_having (registry : Registry) (schema : Schema) (eventType : String) :
    (registry.having schema).find? eventType =
      if schema.eventType = eventType then some schema else registry.find? eventType :=
  find?_insertSchema schema registry.schemas eventType

theorem contains_having_iff {registry : Registry} {schema : Schema} {eventType : String} :
    (registry.having schema).contains eventType = true ↔
      schema.eventType = eventType ∨ registry.contains eventType = true := by
  rw [contains, contains, find?_having]
  split
  next hsame =>
    simp [hsame]
  next hdifferent =>
    simp [hdifferent]

theorem lookup_eq_ok_iff {registry : Registry} {eventType : String} {schema : Schema} :
    registry.lookup eventType = .ok schema ↔ registry.find? eventType = some schema := by
  unfold lookup
  cases registry.find? eventType <;> simp

theorem eq_unknown_of_lookup
    {registry : Registry} {eventType : String} {error : CodecError}
    (hrefused : registry.lookup eventType = .error error) :
    error = .unknownEventType eventType := by
  unfold lookup at hrefused
  split at hrefused
  · cases hrefused
  · cases hrefused
    rfl

/-! ## Registering -/

theorem Builder.register_eq_ok_iff {builder next : Builder} {schema : Schema} :
    builder.register schema = .ok next ↔
      schema.eventType ∈ builder.family ∧
        builder.registered.contains schema.eventType = false ∧
        next = { builder with registered := builder.registered.having schema } := by
  unfold register
  split
  next hforeign =>
    simp [hforeign]
  next hnotForeign =>
    have hfamily := Decidable.not_not.mp hnotForeign
    dsimp only
    rw [replaced_insert, contains]
    split
    next hrepeated =>
      simp [hrepeated]
    next hfirst =>
      simp [hfamily, hfirst, having, eq_comm]

/-- A run of registrations succeeds when each schema is for an event type of the family that
neither the table nor the run has had before. -/
theorem Builder.foldlM_register_eq_ok_iff
    {builder filled : Builder} {schemas : List Schema} :
    schemas.foldlM register builder = .ok filled ↔
      (∀ schema ∈ schemas, schema.eventType ∈ builder.family ∧
        builder.registered.contains schema.eventType = false) ∧
      schemas.Pairwise (fun a b => a.eventType ≠ b.eventType) ∧
      filled = { builder with registered := schemas.foldl having builder.registered } := by
  induction schemas generalizing builder with
  | nil =>
      simp only [List.foldlM_nil, pure_eq_ok_iff, List.foldl_nil, List.Pairwise.nil]
      simpa using eq_comm
  | cons schema rest ih =>
      have hlater : ∀ other : Schema,
          (builder.registered.having schema).contains other.eventType = false ↔
            schema.eventType ≠ other.eventType ∧
              builder.registered.contains other.eventType = false := by
        intro other
        rw [← Bool.not_eq_true, ← Bool.not_eq_true, contains_having_iff, not_or]
      simp only [List.foldlM_cons, bind_eq_ok_iff, register_eq_ok_iff, ih]
      rw [List.forall_mem_cons, List.pairwise_cons, List.foldl_cons]
      constructor
      · rintro ⟨_, ⟨hfamily, hfirst, rfl⟩, hrest, hdistinct, rfl⟩
        simp only [hlater] at hrest
        have hearlier : ∀ other ∈ rest, other.eventType ∈ builder.family ∧
            builder.registered.contains other.eventType = false := fun other hother =>
          ⟨(hrest other hother).1, (hrest other hother).2.2⟩
        have hapart : ∀ other ∈ rest, schema.eventType ≠ other.eventType := fun other hother =>
          (hrest other hother).2.1
        exact ⟨⟨⟨hfamily, hfirst⟩, hearlier⟩, ⟨hapart, hdistinct⟩, rfl⟩
      · rintro ⟨⟨⟨hfamily, hfirst⟩, hrest⟩, ⟨hapart, hdistinct⟩, rfl⟩
        refine ⟨_, ⟨hfamily, hfirst, rfl⟩, fun other hother => ?_, hdistinct, rfl⟩
        rw [hlater]
        exact ⟨(hrest other hother).1, hapart other hother, (hrest other hother).2⟩

/-- After a run the table has the schemas of the run, and elsewhere what it had before. -/
theorem find?_foldl_having
    {schemas : List Schema} (hdistinct : schemas.Pairwise fun a b => a.eventType ≠ b.eventType)
    (registry : Registry) (eventType : String) :
    (schemas.foldl having registry).find? eventType =
      (schemas.find? (·.eventType == eventType)).or (registry.find? eventType) := by
  induction schemas generalizing registry with
  | nil => rfl
  | cons schema rest ih =>
      obtain ⟨hapart, hrest⟩ := List.pairwise_cons.mp hdistinct
      rw [List.foldl_cons, ih hrest, find?_having, find?_cons_schema]
      split
      next hsame =>
        have hnone : rest.find? (·.eventType == eventType) = none := by
          rw [List.find?_eq_none]
          intro other hother hfound
          exact hapart other hother (hsame.trans (beq_iff_eq.mp hfound).symm)
        simp [hnone]
      next =>
        rfl

theorem Builder.build_eq_ok_iff {builder : Builder} {registry : Registry} :
    builder.build = .ok registry ↔
      (∀ eventType ∈ builder.family, builder.registered.contains eventType = true) ∧
        registry = builder.registered := by
  have hcomplete : (builder.family.find? fun eventType =>
      !builder.registered.contains eventType) = none ↔
        ∀ eventType ∈ builder.family, builder.registered.contains eventType = true := by
    simp [List.find?_eq_none]
  unfold build
  split
  next missing hmissing =>
    simp [← hcomplete, hmissing]
  next hnone =>
    have hall := hcomplete.mp hnone
    constructor
    · intro hbuilt
      cases hbuilt
      exact ⟨hall, rfl⟩
    · rintro ⟨_, rfl⟩
      rfl

theorem contains_foldl_having_iff
    {schemas : List Schema} (hdistinct : schemas.Pairwise fun a b => a.eventType ≠ b.eventType)
    {eventType : String} :
    (schemas.foldl having empty).contains eventType = true ↔
      ∃ schema ∈ schemas, schema.eventType = eventType := by
  have hempty : empty.find? eventType = none := rfl
  rw [contains, find?_foldl_having hdistinct, hempty]
  simp

/-- A list of schemas makes a table exactly when it has one schema for every event type of the
family and none for any other. -/
theorem ofSchemas_eq_ok_iff
    {family : List String} {schemas : List Schema} {registry : Registry} :
    ofSchemas family schemas = .ok registry ↔
      (∀ schema ∈ schemas, schema.eventType ∈ family) ∧
        (schemas.Pairwise fun a b => a.eventType ≠ b.eventType) ∧
        (∀ eventType ∈ family, ∃ schema ∈ schemas, schema.eventType = eventType) ∧
        registry = schemas.foldl having empty := by
  have hbare : ∀ eventType, empty.contains eventType = false := fun _ => rfl
  simp only [ofSchemas, builder, bind_eq_ok_iff, Builder.foldlM_register_eq_ok_iff,
    Builder.build_eq_ok_iff, hbare, and_true]
  constructor
  · rintro ⟨_, ⟨hfamily, hdistinct, rfl⟩, hcomplete, rfl⟩
    simp only [contains_foldl_having_iff hdistinct] at hcomplete
    exact ⟨hfamily, hdistinct, hcomplete, rfl⟩
  · rintro ⟨hfamily, hdistinct, hcomplete, rfl⟩
    refine ⟨_, ⟨hfamily, hdistinct, rfl⟩, ?_, rfl⟩
    simpa only [contains_foldl_having_iff hdistinct] using hcomplete

theorem find?_of_ofSchemas
    {family : List String} {schemas : List Schema} {registry : Registry}
    (hregistry : ofSchemas family schemas = .ok registry) (eventType : String) :
    registry.find? eventType = schemas.find? (·.eventType == eventType) := by
  obtain ⟨_, hdistinct, _, rfl⟩ := ofSchemas_eq_ok_iff.mp hregistry
  rw [find?_foldl_having hdistinct]
  exact Option.or_none

end Registry
end EventCourier
