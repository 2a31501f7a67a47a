import EventCourier.Proofs.Layout.Arranging
import EventCourier.Proofs.Result

/-!
# What can be declared

A declaration is accepted exactly when its event type has a name, its version is a version and the
rules are kept at every level, in whatever order it lists fields and retired ids.  At every level of
an accepted layout the ids ascend, each declared field is found under its id, and nothing is found
under any other.
-/

namespace EventCourier

/-- At a level of a declaration, the arranged fields are the declared ones in ascending order, and a
look-up finds exactly those. -/
structure Layout.LooksUp (layout : Layout) : Prop where
  ascending : layout.arranged.fields.Pairwise fun a b => a.id < b.id
  fields_perm : layout.arranged.fields.Perm (layout.fields.map arrangedField)
  field?_declared : ∀ field ∈ layout.fields,
    layout.arranged.field? field.id = some (arrangedField field)
  field?_other : ∀ id, (∀ field ∈ layout.fields, field.id ≠ id) →
    layout.arranged.field? id = none
  field?_retired : ∀ id ∈ layout.retired, layout.arranged.field? id = none

theorem Layout.KeepsRules.looksUp
    {version : UInt32} {layout : Layout} (hkeeps : layout.KeepsRules version) : layout.LooksUp := by
  obtain ⟨hdistinct, hrules⟩ := hkeeps
  have hascending := ascending_arranged hdistinct
  have hother : ∀ id, (∀ field ∈ layout.fields, field.id ≠ id) →
      layout.arranged.field? id = none := by
    intro id hnone
    apply field?_eq_none_of_forall
    intro field hfield
    obtain ⟨declared, hmem, rfl⟩ := mem_fields_arranged_iff.mp hfield
    rw [id_arrangedField]
    exact hnone declared hmem
  refine ⟨hascending, layout.perm_fields_arranged, fun field hfield => ?_, hother, ?_⟩
  · rw [field?_eq_some_iff hascending]
    exact ⟨mem_fields_arranged_iff.mpr ⟨field, hfield, rfl⟩, id_arrangedField field⟩
  · intro id hretired
    exact hother id fun field hfield hid => (hrules field hfield).not_retired (hid ▸ hretired)

namespace Schema

theorem declare_eq_ok_iff
    {eventType : String} {version : UInt32} {declared : Layout} {schema : Schema} :
    declare eventType version declared = .ok schema ↔
      schema.eventType = eventType ∧ schema.version = version ∧
        schema.layout = declared.arranged := by
  unfold declare
  constructor
  · intro hdeclared
    split at hdeclared
    · cases hdeclared
    · cases hdeclared
      exact ⟨rfl, rfl, rfl⟩
  · rintro ⟨rfl, rfl, hlayout⟩
    split
    next fault hfault =>
      rw [← hlayout, schema.sound] at hfault
      cases hfault
    next =>
      cases schema
      simp_all

section Declaration

variable {eventType : String} {version : UInt32} {declared : Layout}

theorem exists_declare_iff :
    (∃ schema, declare eventType version declared = .ok schema) ↔
      eventType ≠ "" ∧ version ≠ 0 ∧ declared.Throughout (Layout.KeepsRules version) := by
  have hrules := Layout.throughout_arranged_iff (Layout.keepsRules_arranged_iff version) declared
  rw [← hrules, ← checkSchema_eq_ok_iff]
  constructor
  · rintro ⟨schema, hdeclared⟩
    obtain ⟨rfl, rfl, hlayout⟩ := declare_eq_ok_iff.mp hdeclared
    rw [← hlayout, schema.sound]
  · intro hcheck
    exact ⟨⟨eventType, version, declared.arranged, ⟨declared, rfl⟩, hcheck⟩,
      declare_eq_ok_iff.mpr ⟨rfl, rfl, rfl⟩⟩

theorem throughout_keepsRules_of_declare
    {schema : Schema} (hdeclared : declare eventType version declared = .ok schema) :
    declared.Throughout (Layout.KeepsRules version) :=
  (exists_declare_iff.mp ⟨schema, hdeclared⟩).2.2

end Declaration

section Reporting

variable {eventType : String} {version : UInt32} {declared : Layout}

theorem report_eq_ok_iff {schema : Schema} :
    report eventType version declared = .ok schema ↔
      declare eventType version declared = .ok schema :=
  mapError_eq_ok_iff

theorem exists_encoding_of_report_error
    {error : CodecError} (hrefused : report eventType version declared = .error error) :
    ∃ cause, error = .encoding cause := by
  obtain ⟨fault, _, rfl⟩ := mapError_eq_error_iff.mp hrefused
  exact ⟨.schema fault, rfl⟩

end Reporting

/-- A declaration makes a schema exactly when it keeps the rules at every level, and is reported as
an encoding error otherwise.  The schema has what was declared, in order, and its look-ups find
exactly the declared fields. -/
theorem report_outcomes (eventType : String) (version : UInt32) (declared : Layout) :
    ((∃ schema, report eventType version declared = .ok schema) ↔
      eventType ≠ "" ∧ 1 ≤ version ∧ declared.Throughout (Layout.KeepsRules version)) ∧
      (∀ error, report eventType version declared = .error error →
        ∃ cause, error = .encoding cause) ∧
      ∀ schema, report eventType version declared = .ok schema →
        schema.eventType = eventType ∧ schema.version = version ∧
          schema.layout = declared.arranged ∧ declared.Throughout Layout.LooksUp := by
  refine ⟨?_, fun error => exists_encoding_of_report_error, fun schema hreport => ?_⟩
  · simp only [report_eq_ok_iff]
    rw [exists_declare_iff, Layout.one_le_iff_ne_zero]
  · rw [report_eq_ok_iff] at hreport
    have hkeeps := throughout_keepsRules_of_declare hreport
    obtain ⟨heventType, hversion, hlayout⟩ := declare_eq_ok_iff.mp hreport
    exact ⟨heventType, hversion, hlayout, hkeeps.imp fun _ hlevel => hlevel.looksUp⟩

end Schema
end EventCourier
