import EventCourier.Schema
import Mathlib

/-!
# What a schema's layout keeps

A property of layouts holds throughout a layout when it holds of the layout and of every layout
that lies in its fields, however deep.  Checking a declaration accepts exactly the layouts that
keep the rules throughout.  Arranging puts the fields in order throughout, so in the layout of a
schema the ids ascend at every level.  Where they do, binary search for an id ends at the one field
that has it.
-/

namespace EventCourier

/-- The rules for a field of a layout with some retired ids, in a schema at some version. -/
structure Field.Keeps (version : UInt32) (retired : List UInt32) (field : Field) : Prop where
  id_ne_zero : field.id ≠ 0
  not_retired : field.id ∉ retired
  since_ne_zero : field.since ≠ 0
  since_le : field.since ≤ version
  not_late : ¬ (1 < field.since ∧ field.required = true)
  nests_iff : field.layout.isSome = true ↔ field.kind = .record

namespace Layout

theorem induction {motive : Layout → Prop}
    (hstep : ∀ layout,
      (∀ field ∈ layout.fields, ∀ nested, field.layout = some nested → motive nested) →
        motive layout)
    (layout : Layout) : motive layout := by
  apply hstep
  intro field hfield nested hnested
  have hshorter : sizeOf nested < sizeOf layout := by
    rcases layout with ⟨fields, retired⟩
    rcases field with ⟨id, name, kind, required, since, inner⟩
    have hmem := List.sizeOf_lt_of_mem hfield
    dsimp only at hnested hmem
    subst hnested
    simp only [Layout.mk.sizeOf_spec, Field.mk.sizeOf_spec, Option.some.sizeOf_spec] at hmem ⊢
    omega
  exact induction hstep nested
termination_by sizeOf layout

/-- The property holds of a layout and of every layout in it. -/
inductive Throughout (P : Layout → Prop) : Layout → Prop
  | intro {layout : Layout} (here : P layout)
      (within : ∀ field ∈ layout.fields, ∀ nested, field.layout = some nested →
        Throughout P nested) :
      Throughout P layout

theorem Throughout.here {P : Layout → Prop} {layout : Layout} (h : layout.Throughout P) :
    P layout := by
  cases h
  assumption

theorem Throughout.within
    {P : Layout → Prop} {layout nested : Layout} {field : Field}
    (h : layout.Throughout P) (hfield : field ∈ layout.fields)
    (hnested : field.layout = some nested) : nested.Throughout P := by
  cases h with
  | intro _ within => exact within field hfield nested hnested

theorem Throughout.imp
    {P Q : Layout → Prop} {layout : Layout} (hP : layout.Throughout P)
    (himp : ∀ layout, P layout → Q layout) : layout.Throughout Q := by
  induction hP with
  | intro here _ ih => exact .intro (himp _ here) ih

theorem Throughout.and
    {P Q R : Layout → Prop} {layout : Layout}
    (hP : layout.Throughout P) (hQ : layout.Throughout Q)
    (hboth : ∀ layout, P layout → Q layout → R layout) : layout.Throughout R := by
  induction hP with
  | intro here _ ih =>
      refine .intro (hboth _ here hQ.here) ?_
      intro field hfield nested hnested
      exact ih field hfield nested hnested (hQ.within hfield hnested)

def KeepsRules (version : UInt32) (layout : Layout) : Prop :=
  layout.fields.Pairwise (fun a b => a.id ≠ b.id) ∧
    ∀ field ∈ layout.fields, field.Keeps version layout.retired

/-- The ids of the fields ascend. -/
def Ascending (layout : Layout) : Prop :=
  layout.fields.Pairwise fun a b => a.id < b.id

/-- The ids ascend and the fields keep the rules, at every level. -/
def Sound (version : UInt32) (layout : Layout) : Prop :=
  layout.Throughout fun layout =>
    layout.Ascending ∧ ∀ field ∈ layout.fields, field.Keeps version layout.retired

/-! ## The check -/

theorem checkField_eq_ok_iff
    {version : UInt32} {path : String} {retired seen : List UInt32} {field : Field}
    (hnested : ∀ nested, field.layout = some nested → ∀ path,
      check version path nested = .ok () ↔ nested.Throughout (KeepsRules version)) :
    checkField version path retired seen field = .ok () ↔
      field.id ∉ seen ∧ field.Keeps version retired ∧
        ∀ nested, field.layout = some nested → nested.Throughout (KeepsRules version) := by
  rcases field with ⟨id, name, kind, required, since, layout⟩
  unfold checkField
  constructor
  · intro hcheck
    split at hcheck
    · cases hcheck
    rename_i hid
    split at hcheck
    · cases hcheck
    rename_i hseen
    split at hcheck
    · cases hcheck
    rename_i hretired
    split at hcheck
    · cases hcheck
    rename_i hsince
    obtain ⟨hsinceZero, hsinceLate⟩ := not_or.mp hsince
    split at hcheck
    · cases hcheck
    rename_i hlate
    cases layout with
    | none =>
        have hkind : kind ≠ .record := fun h => by simp [h] at hcheck
        exact ⟨hseen, ⟨hid, hretired, hsinceZero, UInt32.not_lt.mp hsinceLate, hlate,
          by simp [hkind]⟩, fun _ hnone => by cases hnone⟩
    | some nested =>
        have hkind : kind = .record := Decidable.byContradiction fun h => by simp [h] at hcheck
        dsimp only at hcheck
        rw [if_pos hkind] at hcheck
        have hkeeps := (hnested nested rfl _).mp hcheck
        exact ⟨hseen, ⟨hid, hretired, hsinceZero, UInt32.not_lt.mp hsinceLate, hlate,
          by simp [hkind]⟩, fun _ hsome => by cases hsome; exact hkeeps⟩
  · intro h
    rcases h with ⟨hseen, hkeeps, hwithin⟩
    have hsince : ¬ (since = 0 ∨ version < since) := fun hor =>
      hor.elim hkeeps.since_ne_zero (UInt32.not_lt.mpr hkeeps.since_le)
    rw [if_neg hkeeps.id_ne_zero, if_neg hseen, if_neg hkeeps.not_retired, if_neg hsince,
      if_neg hkeeps.not_late]
    have hnests := hkeeps.nests_iff
    cases layout with
    | none =>
        have hkind : kind ≠ .record := fun h => by simpa using hnests.mpr h
        simp [hkind]
    | some nested =>
        have hkind : kind = .record := hnests.mp rfl
        simpa [hkind] using (hnested nested rfl _).mpr (hwithin nested rfl)

theorem checkFields_eq_ok_iff
    {version : UInt32} {path : String} {retired seen : List UInt32} {fields : List Field}
    (hnested : ∀ field ∈ fields, ∀ nested, field.layout = some nested → ∀ path,
      check version path nested = .ok () ↔ nested.Throughout (KeepsRules version)) :
    checkFields version path retired seen fields = .ok () ↔
      fields.Pairwise (fun a b => a.id ≠ b.id) ∧
        ∀ field ∈ fields, field.id ∉ seen ∧ field.Keeps version retired ∧
          ∀ nested, field.layout = some nested → nested.Throughout (KeepsRules version) := by
  induction fields generalizing seen with
  | nil => simp [checkFields]
  | cons field rest ih =>
      have hfield := @checkField_eq_ok_iff version path retired seen field
        (hnested field List.mem_cons_self)
      have hrest := @ih (field.id :: seen) fun other hother =>
        hnested other (List.mem_cons_of_mem _ hother)
      unfold checkFields
      cases hcheck : checkField version path retired seen field with
      | error fault =>
          simp only [reduceCtorEq, false_iff]
          intro ⟨_, hall⟩
          have hok := hfield.mpr (hall field List.mem_cons_self)
          rw [hcheck] at hok
          cases hok
      | ok _ =>
          have hkeeps := hfield.mp hcheck
          simp only [hrest, List.pairwise_cons, List.mem_cons, not_or]
          constructor
          · intro h
            rcases h with ⟨hdistinct, hall⟩
            refine ⟨⟨fun other hother => Ne.symm (hall other hother).1.1, hdistinct⟩, ?_⟩
            rintro other (rfl | hother)
            · exact hkeeps
            · exact ⟨(hall other hother).1.2, (hall other hother).2⟩
          · intro h
            rcases h with ⟨⟨hapart, hdistinct⟩, hall⟩
            refine ⟨hdistinct, fun other hother => ?_⟩
            have hkept := hall other (.inr hother)
            exact ⟨⟨Ne.symm (hapart other hother), hkept.1⟩, hkept.2⟩

/-- Checking accepts exactly the layouts that keep the rules at every level. -/
theorem check_eq_ok_iff {version : UInt32} {path : String} {layout : Layout} :
    check version path layout = .ok () ↔ layout.Throughout (KeepsRules version) := by
  induction layout using Layout.induction generalizing path with
  | hstep layout ih =>
      rcases layout with ⟨fields, retired⟩
      rw [check, checkFields_eq_ok_iff fun field hfield nested hnested _ =>
        ih field hfield nested hnested]
      constructor
      · intro h
        rcases h with ⟨hdistinct, hall⟩
        exact .intro ⟨hdistinct, fun field hfield => (hall field hfield).2.1⟩
          fun field hfield => (hall field hfield).2.2
      · intro hkeeps
        refine ⟨hkeeps.here.1, fun field hfield => ⟨List.not_mem_nil, ?_, ?_⟩⟩
        · exact hkeeps.here.2 field hfield
        · exact fun nested hnested => hkeeps.within hfield hnested

/-! ## Arranging -/

theorem arrangedFields_eq_map (fields : List Field) :
    arrangedFields fields = fields.map arrangedField := by
  induction fields with
  | nil => rfl
  | cons field rest ih =>
      rw [arrangedFields, ih, List.map_cons]

theorem fields_arranged (layout : Layout) :
    layout.arranged.fields =
      (layout.fields.map arrangedField).mergeSort (fun a b => a.id ≤ b.id) := by
  rcases layout with ⟨fields, retired⟩
  rw [← arrangedFields_eq_map, arranged]

theorem layout_arrangedField (field : Field) :
    (arrangedField field).layout = field.layout.map arranged := by
  rcases field with ⟨id, name, kind, required, since, layout⟩
  cases layout <;> rfl

theorem throughout_arranged (layout : Layout) :
    layout.arranged.Throughout fun layout => layout.fields.Pairwise fun a b => a.id ≤ b.id := by
  induction layout using Layout.induction with
  | hstep layout ih =>
      constructor
      · rw [fields_arranged]
        have htrans : ∀ a b c : Field, decide (a.id ≤ b.id) = true → decide (b.id ≤ c.id) = true →
            decide (a.id ≤ c.id) = true := by
          intro a b c hab hbc
          exact decide_eq_true (UInt32.le_trans (of_decide_eq_true hab) (of_decide_eq_true hbc))
        have htotal : ∀ a b : Field, (decide (a.id ≤ b.id) || decide (b.id ≤ a.id)) = true := by
          intro a b
          simpa using UInt32.le_total a.id b.id
        have hsorted := List.pairwise_mergeSort htrans htotal (layout.fields.map arrangedField)
        exact hsorted.imp of_decide_eq_true
      · intro field hfield nested hnested
        rw [fields_arranged, List.mem_mergeSort] at hfield
        obtain ⟨declared, hdeclared, rfl⟩ := List.mem_map.mp hfield
        rw [layout_arrangedField, Option.map_eq_some_iff] at hnested
        rcases hnested with ⟨inner, hinner, rfl⟩
        exact ih declared hdeclared inner hinner

/-! ## The field under an id -/

theorem mem_of_field? {layout : Layout} {id : UInt32} {field : Field}
    (hfield : layout.field? id = some field) : field ∈ layout.fields :=
  List.mem_of_getElem? (Option.filter_eq_some_iff.mp hfield).1

theorem id_of_field? {layout : Layout} {id : UInt32} {field : Field}
    (hfield : layout.field? id = some field) : field.id = id :=
  beq_iff_eq.mp (Option.filter_eq_some_iff.mp hfield).2

/-- Where ids ascend, places and ids are in the same order. -/
theorem lt_iff_id_lt
    {fields : List Field} (hascending : fields.Pairwise fun a b => a.id < b.id) {i j : Nat}
    {a b : Field} (ha : fields[i]? = some a) (hb : fields[j]? = some b) :
    i < j ↔ a.id < b.id := by
  rcases List.getElem?_eq_some_iff.mp ha with ⟨hi, rfl⟩
  rcases List.getElem?_eq_some_iff.mp hb with ⟨hj, rfl⟩
  have hbefore := List.pairwise_iff_getElem.mp hascending
  constructor
  · exact hbefore i j hi hj
  · intro hlt
    rcases Nat.lt_trichotomy i j with hij | rfl | hji
    · exact hij
    · exact absurd hlt (UInt32.lt_irrefl _)
    · exact absurd hlt (UInt32.lt_asymm (hbefore j i hj hi hji))

/-- A field that lies in the window stays in it, so binary search for its id ends at that field. -/
theorem searchFrom_eq
    {fields : List Field} (hascending : fields.Pairwise fun a b => a.id < b.id)
    {place base size : Nat} {field : Field} (hfield : fields[place]? = some field)
    (hwindow : base + size ≤ fields.length) (hfrom : base ≤ place) (hto : place < base + size) :
    searchFrom fields field.id base size = place := by
  have hmiddle : ∀ middle < fields.length,
      (fields[middle]?.any fun other => field.id < other.id) = true ↔ place < middle := by
    intro middle hlt
    have hread : fields[middle]? = some fields[middle] := List.getElem?_eq_getElem hlt
    rw [lt_iff_id_lt hascending hfield hread, hread, Option.any_some, decide_eq_true_iff]
  fun_induction searchFrom fields field.id base size with
  | case1 base size hone => omega
  | case2 base size hmore middle hhigh ih =>
      have hbefore := (hmiddle middle (by omega)).mp hhigh
      exact ih (by omega) hfrom (by omega)
  | case3 base size hmore middle hlow ih =>
      have hbehind := (hmiddle middle (by omega)).not.mp hlow
      exact ih (by omega) (Nat.not_lt.mp hbehind) (by omega)

theorem field?_eq_some_iff
    {layout : Layout} (hascending : layout.Ascending) {id : UInt32} {field : Field} :
    layout.field? id = some field ↔ field ∈ layout.fields ∧ field.id = id := by
  constructor
  · intro hfield
    exact ⟨mem_of_field? hfield, id_of_field? hfield⟩
  · intro h
    rcases h with ⟨hmem, rfl⟩
    rcases List.mem_iff_getElem?.mp hmem with ⟨place, hplace⟩
    rcases List.getElem?_eq_some_iff.mp hplace with ⟨hlt, _⟩
    have hends := searchFrom_eq hascending hplace (Nat.le_of_eq (Nat.zero_add _)) (Nat.zero_le _)
      (by omega)
    rw [field?, hends, hplace, Option.filter_some, if_pos (beq_self_eq_true _)]

theorem field?_eq_none_of_forall
    {layout : Layout} {id : UInt32} (hother : ∀ field ∈ layout.fields, field.id ≠ id) :
    layout.field? id = none := by
  rw [Option.eq_none_iff_forall_ne_some]
  intro field hfield
  exact hother field (mem_of_field? hfield) (id_of_field? hfield)

theorem field?_eq_none_iff
    {layout : Layout} (hascending : layout.Ascending) {id : UInt32} :
    layout.field? id = none ↔ ∀ field ∈ layout.fields, field.id ≠ id := by
  constructor
  · intro hnone field hmem hid
    rw [(field?_eq_some_iff hascending).mpr ⟨hmem, hid⟩] at hnone
    cases hnone
  · exact field?_eq_none_of_forall

theorem one_le_iff_ne_zero {version : UInt32} : 1 ≤ version ↔ version ≠ 0 := by
  rw [UInt32.le_iff_toNat_le, ne_eq, ← UInt32.toNat_inj]
  exact Nat.one_le_iff_ne_zero

/-! ## Sound layouts -/

section Sound

variable {current version : UInt32} {layout : Layout}

theorem Sound.ascending (hsound : layout.Sound version) : layout.Ascending :=
  hsound.here.1

theorem Sound.keeps
    {field : Field} (hsound : layout.Sound version) (hmem : field ∈ layout.fields) :
    field.Keeps version layout.retired :=
  hsound.here.2 field hmem

theorem Sound.within
    {field : Field} {nested : Layout} (hsound : layout.Sound version)
    (hmem : field ∈ layout.fields) (hnested : field.layout = some nested) : nested.Sound version :=
  Throughout.within hsound hmem hnested

/-- In a sound layout the field under an id is the one with that id. -/
theorem Sound.field?_eq_some_iff
    (hsound : layout.Sound version) {id : UInt32} {field : Field} :
    layout.field? id = some field ↔ field ∈ layout.fields ∧ field.id = id :=
  Layout.field?_eq_some_iff hsound.ascending

/-- What a sound layout requires has been there since the first version. -/
theorem Sound.since_le_of_required
    {field : Field} (hsound : layout.Sound current) (hmem : field ∈ layout.fields)
    (hrequired : field.required = true) (hversion : version ≠ 0) : field.since ≤ version := by
  have hnotLate := (hsound.keeps hmem).not_late
  have hsince : field.since ≤ 1 := UInt32.not_lt.mp fun hlate => hnotLate ⟨hlate, hrequired⟩
  exact UInt32.le_trans hsince (one_le_iff_ne_zero.mpr hversion)

end Sound

end Layout

theorem checkSchema_eq_ok_iff
    {eventType : String} {version : UInt32} {layout : Layout} :
    checkSchema eventType version layout = .ok () ↔
      eventType ≠ "" ∧ version ≠ 0 ∧ layout.Throughout (Layout.KeepsRules version) := by
  unfold checkSchema
  split
  next hempty =>
    simp [hempty]
  next hnamed =>
    split
    next hzero =>
      simp [hzero]
    next hversion =>
      rw [Layout.check_eq_ok_iff]
      simp [hnamed, hversion]

namespace Schema

theorem version_ne_zero (schema : Schema) : schema.version ≠ 0 :=
  (checkSchema_eq_ok_iff.mp schema.sound).2.1

/-- The ids ascend and the rules are kept at every level of a schema's layout. -/
theorem layout_sound (schema : Schema) : schema.layout.Sound schema.version := by
  rcases schema.ordered with ⟨declared, harranged⟩
  have hkeeps := (checkSchema_eq_ok_iff.mp schema.sound).2.2
  have hsorted := Layout.throughout_arranged declared
  rw [← harranged] at hsorted
  refine hkeeps.and hsorted fun layout hrules hle => ⟨?_, hrules.2⟩
  exact (hrules.1.and hle).imp fun h => UInt32.lt_of_le_of_ne h.2 h.1

end Schema
end EventCourier
