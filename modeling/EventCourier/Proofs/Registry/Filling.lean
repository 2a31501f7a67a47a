import EventCourier.Proofs.Registry

/-!
# How a table is filled

Schemas are registered one after the other, and then the table is built.  A list of schemas is
admitted as long as each schema is for an event type of the family and no two are for the same one.
The first schema that is not admitted is refused when it is registered, and the first event type
that is left without a schema when the table is built.  What a table holds does not depend on the
order in which it was filled.
-/

namespace EventCourier
namespace Registry

/-! ## Single registrations -/

theorem Builder.register_of_foreign
    {builder : Builder} {schema : Schema} (hforeign : schema.eventType ∉ builder.family) :
    builder.register schema = .error (.encoding (.foreignSchema schema.eventType)) := by
  rw [register, if_pos hforeign]

theorem Builder.register_of_contains
    {builder : Builder} {schema : Schema} (hfamily : schema.eventType ∈ builder.family)
    (hrepeated : builder.registered.contains schema.eventType = true) :
    builder.register schema = .error (.encoding (.repeatedSchema schema.eventType)) := by
  rw [contains, ← replaced_insert] at hrepeated
  rw [register, if_neg (not_not.mpr hfamily)]
  exact if_pos hrepeated

theorem Builder.build_of_missing
    {builder : Builder} {missing : String}
    (hmissing : (builder.family.find? fun name => !builder.registered.contains name) =
      some missing) :
    builder.build = .error (.unknownEventType missing) := by
  rw [build, hmissing]

/-! ## Runs of registrations -/

/-- Why a schema is refused: it is for an event type that the family does not have, or else for one
that had its schema before. -/
def refusal (family : List String) (schema : Schema) : EncodingError :=
  if schema.eventType ∈ family then .repeatedSchema schema.eventType
  else .foreignSchema schema.eventType

/-- Every schema is for an event type of the family, and no two are for the same. -/
structure Admitted (family : List String) (schemas : List Schema) : Prop where
  known : ∀ schema ∈ schemas, schema.eventType ∈ family
  distinct : schemas.Pairwise fun a b => a.eventType ≠ b.eventType

section Filling

variable {family : List String} {schemas : List Schema}

theorem Admitted.foldlM_register (hadmitted : Admitted family schemas) :
    schemas.foldlM Builder.register (builder family) =
      .ok ⟨family, schemas.foldl having empty⟩ := by
  rw [Builder.foldlM_register_eq_ok_iff]
  exact ⟨fun schema hmem => ⟨hadmitted.known schema hmem, rfl⟩, hadmitted.distinct, rfl⟩

theorem Admitted.contains_iff (hadmitted : Admitted family schemas) {name : String} :
    (schemas.foldl having empty).contains name = true ↔ name ∈ schemas.map (·.eventType) := by
  rw [contains_foldl_having_iff hadmitted.distinct, List.mem_map]

/-- The first schema that is not admitted is refused when its turn comes, and what is behind it is
not looked at. -/
theorem Admitted.exists_refusal
    {schema : Schema} {before after : List Schema} (hbefore : Admitted family before)
    (hrefused : schema.eventType ∉ family ∨ schema.eventType ∈ before.map (·.eventType)) :
    ∃ filled, before.foldlM Builder.register (builder family) = .ok filled ∧
      filled.register schema = .error (.encoding (refusal family schema)) ∧
      ofSchemas family (before ++ schema :: after) =
        .error (.encoding (refusal family schema)) := by
  have hfilled := hbefore.foldlM_register
  have hregister : Builder.register ⟨family, before.foldl having empty⟩ schema =
      .error (.encoding (refusal family schema)) := by
    by_cases hfamily : schema.eventType ∈ family
    · have hrepeated := hbefore.contains_iff.mpr (hrefused.resolve_left (not_not.mpr hfamily))
      rw [refusal, if_pos hfamily, Builder.register_of_contains hfamily hrepeated]
    · rw [refusal, if_neg hfamily, Builder.register_of_foreign hfamily]
  refine ⟨_, hfilled, hregister, ?_⟩
  simp [ofSchemas, List.foldlM_append, hfilled, hregister, bind, Except.bind]

/-- Where all schemas are admitted, the first event type of the family without one is named when
the table is built. -/
theorem Admitted.exists_build_of_missing
    (hadmitted : Admitted family schemas) {missing : String}
    (hmissing : family.find? (· ∉ schemas.map (·.eventType)) = some missing) :
    ∃ filled, schemas.foldlM Builder.register (builder family) = .ok filled ∧
      filled.build = .error (.unknownEventType missing) ∧
      ofSchemas family schemas = .error (.unknownEventType missing) := by
  have hfilled := hadmitted.foldlM_register
  have hfirst : (family.find? fun name => !(schemas.foldl having empty).contains name) =
      some missing := by
    rw [← hmissing]
    congr 1
    funext name
    rw [Bool.eq_iff_iff]
    simp [← hadmitted.contains_iff]
  have hbuild : Builder.build ⟨family, schemas.foldl having empty⟩ =
      .error (.unknownEventType missing) := Builder.build_of_missing hfirst
  refine ⟨_, hfilled, hbuild, ?_⟩
  simp [ofSchemas, hfilled, hbuild, bind, Except.bind]

theorem ofSchemas_eq_ok_iff_admitted {registry : Registry} :
    ofSchemas family schemas = .ok registry ↔
      Admitted family schemas ∧ (∀ name ∈ family, name ∈ schemas.map (·.eventType)) ∧
        registry = schemas.foldl having empty := by
  rw [ofSchemas_eq_ok_iff]
  constructor
  · rintro ⟨hknown, hdistinct, hcomplete, hregistry⟩
    exact ⟨⟨hknown, hdistinct⟩, fun name hname => List.mem_map.mpr (hcomplete name hname),
      hregistry⟩
  · rintro ⟨⟨hknown, hdistinct⟩, hcomplete, hregistry⟩
    exact ⟨hknown, hdistinct, fun name hname => List.mem_map.mp (hcomplete name hname), hregistry⟩

end Filling

/-! ## What a table holds -/

/-- A table has the schemas of a list and no others, in ascending order of their event types. -/
structure Holds (schemas : List Schema) (registry : Registry) : Prop where
  lookup_given : ∀ schema ∈ schemas, registry.lookup schema.eventType = .ok schema
  lookup_other : ∀ name, name ∉ schemas.map (·.eventType) →
    registry.lookup name = .error (.unknownEventType name)
  contains_iff : ∀ name, registry.contains name = true ↔
    ∃ schema, registry.lookup name = .ok schema
  eventTypes_ascending : registry.eventTypes.Pairwise (· < ·)
  listed : ∃ ordered : List Schema, ordered.Perm schemas ∧
    registry.eventTypes = ordered.map (·.eventType) ∧
    registry.describe = .array (ordered.map Schema.descriptor)

theorem find?_of_mem
    {schema : Schema} {schemas : List Schema}
    (hdistinct : schemas.Pairwise fun a b => a.eventType ≠ b.eventType) (hmem : schema ∈ schemas) :
    schemas.find? (·.eventType == schema.eventType) = some schema := by
  induction schemas with
  | nil => cases hmem
  | cons other rest ih =>
      obtain ⟨hapart, hrest⟩ := List.pairwise_cons.mp hdistinct
      rw [find?_cons_schema]
      rcases List.mem_cons.mp hmem with rfl | hlater
      · rw [if_pos rfl]
      · rw [if_neg (hapart schema hlater), ih hrest hlater]

theorem perm_insertSchema
    {schema : Schema} {schemas : List Schema}
    (hfirst : ∀ other ∈ schemas, schema.eventType ≠ other.eventType) :
    (insertSchema schema schemas).2.Perm (schema :: schemas) := by
  induction schemas with
  | nil => exact .refl _
  | cons other rest ih =>
      obtain ⟨hother, hrest⟩ := List.forall_mem_cons.mp hfirst
      unfold insertSchema
      rw [if_neg hother]
      split
      · exact .refl _
      · exact ((ih hrest).cons other).trans (.swap schema other rest)

theorem perm_foldl_having
    {schemas : List Schema} (hdistinct : schemas.Pairwise fun a b => a.eventType ≠ b.eventType)
    {registry : Registry}
    (hapart : ∀ schema ∈ schemas, ∀ other ∈ registry.schemas, schema.eventType ≠ other.eventType) :
    (schemas.foldl having registry).schemas.Perm (schemas ++ registry.schemas) := by
  induction schemas generalizing registry with
  | nil => exact .refl _
  | cons schema rest ih =>
      obtain ⟨hfirst, hrest⟩ := List.pairwise_cons.mp hdistinct
      obtain ⟨hschema, hlater⟩ := List.forall_mem_cons.mp hapart
      have hinserted : (registry.having schema).schemas.Perm (schema :: registry.schemas) :=
        perm_insertSchema hschema
      refine (ih hrest fun other hother held hheld => ?_).trans ?_
      · rcases mem_insertSchema hheld with rfl | hheld
        · exact (hfirst other hother).symm
        · exact hlater other hother held hheld
      · exact (hinserted.append_left rest).trans List.perm_middle

theorem eq_of_perm {registry other : Registry} (hperm : registry.schemas.Perm other.schemas) :
    registry = other := by
  rcases registry with ⟨schemas, hascending⟩
  rcases other with ⟨schemas', hascending'⟩
  have heq := List.Perm.eq_of_pairwise
    (fun a b _ _ hab hba => absurd hba (String.lt_asymm hab)) hascending hascending' hperm
  subst heq
  rfl

section Held

variable {family : List String} {schemas : List Schema} {registry : Registry}

theorem perm_of_ofSchemas (hregistry : ofSchemas family schemas = .ok registry) :
    registry.schemas.Perm schemas := by
  obtain ⟨hadmitted, _, rfl⟩ := ofSchemas_eq_ok_iff_admitted.mp hregistry
  have hperm : (schemas.foldl having empty).schemas.Perm (schemas ++ empty.schemas) :=
    perm_foldl_having hadmitted.distinct (by simp [empty])
  rwa [empty, List.append_nil] at hperm

theorem holds_of_ofSchemas (hregistry : ofSchemas family schemas = .ok registry) :
    registry.Holds schemas := by
  have hfind := find?_of_ofSchemas hregistry
  constructor
  · intro schema hmem
    obtain ⟨⟨_, hdistinct⟩, _⟩ := ofSchemas_eq_ok_iff_admitted.mp hregistry
    rw [lookup_eq_ok_iff, hfind, find?_of_mem hdistinct hmem]
  · intro name hother
    have hnone : registry.find? name = none := by
      rw [hfind, List.find?_eq_none]
      intro schema hmem hname
      exact hother (List.mem_map.mpr ⟨schema, hmem, beq_iff_eq.mp hname⟩)
    rw [lookup, hnone]
  · intro name
    simp only [lookup_eq_ok_iff, contains, Option.isSome_iff_exists]
  · exact List.pairwise_map.mpr registry.ascending
  · exact ⟨registry.schemas, perm_of_ofSchemas hregistry, rfl, rfl⟩

theorem ofSchemas_of_perm
    {other : List Schema} (hregistry : ofSchemas family schemas = .ok registry)
    (hperm : other.Perm schemas) : ofSchemas family other = .ok registry := by
  obtain ⟨⟨hknown, hdistinct⟩, hcomplete, _⟩ := ofSchemas_eq_ok_iff_admitted.mp hregistry
  have hadmitted : Admitted family other :=
    ⟨fun schema hmem => hknown schema (hperm.mem_iff.mp hmem),
      (hperm.pairwise_iff fun h => h.symm).mpr hdistinct⟩
  have hother : ofSchemas family other = .ok (other.foldl having empty) :=
    ofSchemas_eq_ok_iff_admitted.mpr ⟨hadmitted,
      fun name hname => (hperm.map _).mem_iff.mpr (hcomplete name hname), rfl⟩
  rw [hother, eq_of_perm (((perm_of_ofSchemas hother).trans hperm).trans
    (perm_of_ofSchemas hregistry).symm)]

end Held

/-- A table is built of exactly those lists that have one schema for every event type of the family
and none for any other.  The first schema of another event type, or of one that came before, is
refused when it is registered; where there is none, the first event type without a schema is
refused when the table is built.  A table that is built holds the schemas of the list, in whatever
order they are given. -/
theorem ofSchemas_outcomes (family : List String) (schemas : List Schema) :
    ((∃ registry, ofSchemas family schemas = .ok registry) ↔
      (schemas.Pairwise fun a b => a.eventType ≠ b.eventType) ∧
        ∀ name, name ∈ schemas.map (·.eventType) ↔ name ∈ family) ∧
      (∀ before schema after, schemas = before ++ schema :: after → Admitted family before →
        schema.eventType ∉ family ∨ schema.eventType ∈ before.map (·.eventType) →
        ∃ filled, before.foldlM Builder.register (builder family) = .ok filled ∧
          filled.register schema = .error (.encoding (refusal family schema)) ∧
          ofSchemas family schemas = .error (.encoding (refusal family schema))) ∧
      (∀ missing, Admitted family schemas →
        family.find? (· ∉ schemas.map (·.eventType)) = some missing →
        ∃ filled, schemas.foldlM Builder.register (builder family) = .ok filled ∧
          filled.build = .error (.unknownEventType missing) ∧
          ofSchemas family schemas = .error (.unknownEventType missing)) ∧
      ∀ registry, ofSchemas family schemas = .ok registry →
        registry.Holds schemas ∧
          ∀ other : List Schema, other.Perm schemas → ofSchemas family other = .ok registry := by
  refine ⟨⟨?_, ?_⟩, ?_, ?_, ?_⟩
  · rintro ⟨registry, hregistry⟩
    obtain ⟨⟨hknown, hdistinct⟩, hcomplete, _⟩ := ofSchemas_eq_ok_iff_admitted.mp hregistry
    refine ⟨hdistinct, fun name => ⟨fun hname => ?_, hcomplete name⟩⟩
    obtain ⟨schema, hmem, rfl⟩ := List.mem_map.mp hname
    exact hknown schema hmem
  · rintro ⟨hdistinct, hnames⟩
    have hknown : ∀ schema ∈ schemas, schema.eventType ∈ family := fun schema hmem =>
      (hnames _).mp (List.mem_map_of_mem hmem)
    exact ⟨_, ofSchemas_eq_ok_iff_admitted.mpr
      ⟨⟨hknown, hdistinct⟩, fun name => (hnames name).mpr, rfl⟩⟩
  · rintro before schema after rfl hbefore hrefused
    exact hbefore.exists_refusal hrefused
  · intro missing hadmitted hmissing
    exact hadmitted.exists_build_of_missing hmissing
  · intro registry hregistry
    exact ⟨holds_of_ofSchemas hregistry, fun other hperm => ofSchemas_of_perm hregistry hperm⟩

end Registry
end EventCourier
