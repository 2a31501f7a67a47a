import EventCourier.Proofs.Record.Access
import EventCourier.Proofs.Record.Fitting

/-!
# Records field by field

Whether a layout covers a record that fits it can be seen field by field, from what the
record has under the id of each.  Conversely, whatever such a record has under an id is within the
limits, and the records in it are again covered and fitting.
-/

namespace EventCourier

/-- The field of a record that lies `depth` records deep may have this under its id. -/
def Field.Admits (limits : Limits) (depth : Nat) (field : Field) : Option Value → Prop
  | none => field.required = false
  | some value => field.Covers value ∧ field.Takes limits depth value

namespace Field

variable {limits : Limits} {depth : Nat} {field : Field}

theorem admits_iff_of_ne_record
    {value : Value} (hscalar : ∀ inner, value ≠ .record inner) :
    field.Admits limits depth (some value) ↔ value.kind = field.kind ∧ value.Within limits := by
  rw [Admits, takes_iff_of_ne_record hscalar, and_iff_right (covers_of_ne_record hscalar)]

theorem admits_text_iff {s : String} (hkind : field.kind = .text) :
    field.Admits limits depth (some (.text s)) ↔
      (Text.toUtf8 s).length ≤ limits.maxFieldBytes.toNat := by
  rw [admits_iff_of_ne_record (by simp)]
  simp [Value.kind, Value.Within, hkind]

theorem admits_optionalText_iff
    {s : Option String} (hkind : field.kind = .text) (hoptional : field.required = false) :
    field.Admits limits depth (s.map .text) ↔
      ∀ t ∈ s, (Text.toUtf8 t).length ≤ limits.maxFieldBytes.toNat := by
  cases s with
  | none => simp [Admits, hoptional]
  | some t => simp [admits_text_iff hkind]

theorem admits_bool {b : Bool} (hkind : field.kind = .bool) :
    field.Admits limits depth (some (.bool b)) := by
  rw [admits_iff_of_ne_record (by simp)]
  simp [Value.kind, Value.Within, hkind]

theorem admits_timestamp_iff {t : Instant} (hkind : field.kind = .timestamp) :
    field.Admits limits depth (some (.timestamp t)) ↔ ∃ millis, t.exactMillis = .ok millis := by
  rw [admits_iff_of_ne_record (by simp)]
  simp [Value.kind, Value.Within, hkind]

theorem admits_record_iff
    {id : UInt32} {name : String} {required : Bool} {since : UInt32} {nested : Layout}
    {inner : Record} :
    (Field.mk id name .record required since (some nested)).Admits limits depth
        (some (.record inner)) ↔
      inner.CoveredBy nested ∧ inner.Fits limits nested (depth + 1) := by
  rw [Admits, covers_record_iff rfl, takes_record_iff rfl rfl]

/-! ### What a field has by its kind -/

theorem Admits.exists_value
    {value : Option Value} (hadmits : field.Admits limits depth value)
    (hrequired : field.required = true) : ∃ held, value = some held ∧ held.kind = field.kind := by
  cases value with
  | none => exact absurd (hrequired.symm.trans hadmits) (by decide)
  | some held => exact ⟨held, rfl, hadmits.2.kind_eq⟩

theorem Admits.exists_text
    {value : Option Value} (hadmits : field.Admits limits depth value) (hkind : field.kind = .text)
    (hrequired : field.required = true) : ∃ s, value = some (.text s) := by
  obtain ⟨held, rfl, hheld⟩ := hadmits.exists_value hrequired
  rw [hkind] at hheld
  cases held <;> simp_all [Value.kind]

theorem Admits.exists_optionalText
    {value : Option Value} (hadmits : field.Admits limits depth value)
    (hkind : field.kind = .text) : ∃ s : Option String, value = s.map .text := by
  cases value with
  | none => exact ⟨none, rfl⟩
  | some held =>
      have hheld := hadmits.2.kind_eq
      rw [hkind] at hheld
      cases held with
      | text s => exact ⟨some s, rfl⟩
      | _ => cases hheld

theorem Admits.exists_bool
    {value : Option Value} (hadmits : field.Admits limits depth value) (hkind : field.kind = .bool)
    (hrequired : field.required = true) : ∃ b, value = some (.bool b) := by
  obtain ⟨held, rfl, hheld⟩ := hadmits.exists_value hrequired
  rw [hkind] at hheld
  cases held <;> simp_all [Value.kind]

theorem Admits.exists_timestamp
    {value : Option Value} (hadmits : field.Admits limits depth value)
    (hkind : field.kind = .timestamp) (hrequired : field.required = true) :
    ∃ t, value = some (.timestamp t) := by
  obtain ⟨held, rfl, hheld⟩ := hadmits.exists_value hrequired
  rw [hkind] at hheld
  cases held <;> simp_all [Value.kind]

theorem Admits.exists_record
    {value : Option Value} {nested : Layout} (hadmits : field.Admits limits depth value)
    (hkind : field.kind = .record) (hrequired : field.required = true)
    (hnested : field.layout = some nested) :
    ∃ inner, value = some (.record inner) ∧ inner.CoveredBy nested ∧
      inner.Fits limits nested (depth + 1) := by
  obtain ⟨held, rfl, hheld⟩ := hadmits.exists_value hrequired
  rw [hkind] at hheld
  cases held with
  | record inner =>
      exact ⟨inner, rfl, hadmits.1 inner nested rfl hnested,
        hadmits.2.nests inner nested rfl hnested⟩
  | _ => cases hheld

/-- The field may have this under its id, going by the kinds of values and the fields of records
alone. -/
def Expects (field : Field) : Option Value → Prop
  | none => field.required = false
  | some value => value.kind = field.kind ∧ ∀ inner nested, value = .record inner →
      field.layout = some nested → inner.CoveredBy nested ∧ inner.Suits nested

theorem expects_iff_of_ne_record
    {value : Value} (hscalar : ∀ inner, value ≠ .record inner) :
    field.Expects (some value) ↔ value.kind = field.kind := by
  simp [Expects, hscalar]

theorem expects_optionalText
    {s : Option String} (hkind : field.kind = .text) (hoptional : field.required = false) :
    field.Expects (s.map .text) := by
  cases s with
  | none => exact hoptional
  | some t => simp [expects_iff_of_ne_record, Value.kind, hkind]

end Field

namespace Record

/-- A layout covers a record, and the record suits it, if each field has what it expects. -/
theorem coveredBy_and_suits_of_expects
    {layout : Layout} {record : Record} (hascending : layout.Ascending)
    (hdeclared : record.Declared layout)
    (hexpects : ∀ field ∈ layout.fields, field.Expects (record.get? field.id)) :
    record.CoveredBy layout ∧ record.Suits layout := by
  have hholds : ∀ id value, (id, value) ∈ record.entries → ∀ field,
      layout.field? id = some field → field.Expects (some value) := by
    intro id value hmem field hfield
    rcases (Layout.field?_eq_some_iff hascending).mp hfield with ⟨hlisted, rfl⟩
    rw [← get?_eq_some_iff.mpr hmem]
    exact hexpects field hlisted
  have hrequired : record.HasRequired layout := by
    intro field hlisted hfield
    have hexpected := hexpects field hlisted
    cases hget : record.get? field.id with
    | none =>
        rw [hget] at hexpected
        exact absurd (hfield.symm.trans hexpected) (by decide)
    | some value => exact ⟨value, get?_eq_some_iff.mp hget⟩
  constructor
  · apply Throughout.intro hdeclared
    intro id inner hmem field nested hfield hnested
    exact ((hholds id _ hmem field hfield).2 inner nested rfl hnested).1
  · apply Throughout.intro
    · exact ⟨fun entry hmem field hfield => (hholds entry.1 entry.2 hmem field hfield).1, hrequired⟩
    · intro id inner hmem field nested hfield hnested
      exact ((hholds id _ hmem field hfield).2 inner nested rfl hnested).2

theorem supplies_iff_admits
    {limits : Limits} {depth : Nat} {field : Field} {record : Record} :
    record.Supplies limits depth field ↔ field.Admits limits depth (record.get? field.id) := by
  rw [Supplies]
  simp only [← get?_eq_some_iff]
  cases record.get? field.id <;> simp [Field.Admits]

theorem coveredBy_and_fits_iff_admits
    {limits : Limits} {layout : Layout} {depth : Nat} {record : Record}
    (hascending : layout.Ascending) :
    record.CoveredBy layout ∧ record.Fits limits layout depth ↔
      depth ≤ limits.maxDepth.toNat ∧ record.Declared layout ∧
        ∀ field ∈ layout.fields, field.Admits limits depth (record.get? field.id) := by
  simp only [coveredBy_and_fits_iff_supplies hascending, supplies_iff_admits]

theorem declared_iff_get?
    {layout : Layout} {record : Record} (hascending : layout.Ascending) :
    record.Declared layout ↔
      ∀ id, (∀ field ∈ layout.fields, id ≠ field.id) → record.get? id = none := by
  have hunknown : ∀ id, layout.field? id = none ↔ ∀ field ∈ layout.fields, id ≠ field.id := by
    intro id
    rw [Layout.field?_eq_none_iff hascending]
    exact forall₂_congr fun _ _ => ne_comm
  constructor
  · intro hdeclared id hnot
    cases hget : record.get? id with
    | none => rfl
    | some value => exact absurd ((hunknown id).mpr hnot) (hdeclared _ (get?_eq_some_iff.mp hget))
  · rintro hnone ⟨id, value⟩ hmem hnot
    have hsome := get?_eq_some_iff.mpr hmem
    rw [hnone id ((hunknown id).mp hnot)] at hsome
    cases hsome

/-! ## Admitted records -/

/-- Some layout that keeps the rules covers the record, which fits it. -/
def Admitted (limits : Limits) (depth : Nat) (record : Record) : Prop :=
  ∃ version layout, layout.Sound version ∧ record.CoveredBy layout ∧
    record.Fits limits layout depth

section Admitted

variable {limits : Limits} {depth : Nat} {record : Record} {id : UInt32}

theorem Admitted.depth_le (hadmitted : record.Admitted limits depth) :
    depth ≤ limits.maxDepth.toNat := by
  rcases hadmitted with ⟨_, _, _, _, hfits⟩
  exact (fits_iff.mp hfits).1

theorem Admitted.within
    {value : Value} (hadmitted : record.Admitted limits depth)
    (hget : record.get? id = some value) : value.Within limits := by
  rcases hadmitted with ⟨_, _, _, hcovered, hfits⟩
  obtain ⟨_, _, hfields⟩ := coveredBy_and_fits_iff.mp ⟨hcovered, hfits⟩
  obtain ⟨_, _, _, htakes⟩ := hfields _ (get?_eq_some_iff.mp hget)
  exact htakes.within

theorem Admitted.inner
    {inner : Record} (hadmitted : record.Admitted limits depth)
    (hget : record.get? id = some (.record inner)) : inner.Admitted limits (depth + 1) := by
  rcases hadmitted with ⟨version, _, hsound, hcovered, hfits⟩
  obtain ⟨_, _, hfields⟩ := coveredBy_and_fits_iff.mp ⟨hcovered, hfits⟩
  obtain ⟨field, hfield, hcovers, htakes⟩ := hfields _ (get?_eq_some_iff.mp hget)
  obtain ⟨nested, hnested, hnestedSound⟩ := exists_layout_of_kind hsound hfield htakes.kind_eq
  exact ⟨version, nested, hnestedSound, hcovers inner nested rfl hnested,
    htakes.nests inner nested rfl hnested⟩

end Admitted

end Record
end EventCourier
