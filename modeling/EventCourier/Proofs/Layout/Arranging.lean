import EventCourier.Proofs.Layout

/-!
# Layouts in order

Two declarations are the same up to order when one becomes the other by listing fields and retired
ids in another order, at any level.  Arranging a layout keeps it the same up to order, and the rules
of a schema do not depend on the order.  As ids are distinct in a layout that keeps them, layouts
that are the same up to order are the same once they are arranged.
-/

namespace EventCourier
namespace Layout

/-! ## The fields of an arranged layout -/

theorem perm_fields_arranged (layout : Layout) :
    layout.arranged.fields.Perm (layout.fields.map arrangedField) := by
  rw [fields_arranged]
  exact List.mergeSort_perm _ _

theorem mem_fields_arranged_iff {layout : Layout} {field : Field} :
    field ∈ layout.arranged.fields ↔
      ∃ declared ∈ layout.fields, arrangedField declared = field := by
  rw [layout.perm_fields_arranged.mem_iff, List.mem_map]

theorem retired_arranged (layout : Layout) :
    layout.arranged.retired = layout.retired.mergeSort (fun a b => a ≤ b) := by
  rcases layout with ⟨fields, retired⟩
  rw [arranged]

theorem mem_retired_arranged_iff {layout : Layout} {id : UInt32} :
    id ∈ layout.arranged.retired ↔ id ∈ layout.retired := by
  rw [retired_arranged, List.mem_mergeSort]

@[simp] theorem id_arrangedField (field : Field) : (arrangedField field).id = field.id := by
  rcases field with ⟨id, name, kind, required, since, layout⟩
  rfl

/-- A property of the arranged levels is one of the levels as they were declared. -/
theorem throughout_arranged_iff
    {P Q : Layout → Prop} (hlevel : ∀ layout, P layout.arranged ↔ Q layout) (layout : Layout) :
    layout.arranged.Throughout P ↔ layout.Throughout Q := by
  induction layout using Layout.induction with
  | hstep layout ih =>
      constructor
      · intro harranged
        refine .intro ((hlevel layout).mp harranged.here) ?_
        intro field hfield nested hnested
        have hmem := mem_fields_arranged_iff.mpr ⟨field, hfield, rfl⟩
        have hinner : (arrangedField field).layout = some nested.arranged := by
          rw [layout_arrangedField, hnested, Option.map_some]
        exact (ih field hfield nested hnested).mp (harranged.within hmem hinner)
      · intro hdeclared
        refine .intro ((hlevel layout).mpr hdeclared.here) ?_
        intro field hfield nested hnested
        obtain ⟨declared, hmem, rfl⟩ := mem_fields_arranged_iff.mp hfield
        rw [layout_arrangedField, Option.map_eq_some_iff] at hnested
        obtain ⟨inner, hinner, rfl⟩ := hnested
        exact (ih declared hmem inner hinner).mpr (hdeclared.within hmem hinner)

theorem keeps_arrangedField_iff
    {version : UInt32} {retired retired' : List UInt32} {field : Field}
    (hretired : ∀ id, id ∈ retired' ↔ id ∈ retired) :
    (arrangedField field).Keeps version retired' ↔ field.Keeps version retired := by
  have hlayout := layout_arrangedField field
  rcases field with ⟨id, name, kind, required, since, layout⟩
  constructor
  · rintro ⟨hid, hnot, hzero, hle, hlate, hnests⟩
    rw [hlayout, Option.isSome_map] at hnests
    exact ⟨hid, fun hmem => hnot ((hretired _).mpr hmem), hzero, hle, hlate, hnests⟩
  · rintro ⟨hid, hnot, hzero, hle, hlate, hnests⟩
    refine ⟨hid, fun hmem => hnot ((hretired _).mp hmem), hzero, hle, hlate, ?_⟩
    rw [hlayout, Option.isSome_map]
    exact hnests

theorem keepsRules_arranged_iff (version : UInt32) (layout : Layout) :
    KeepsRules version layout.arranged ↔ KeepsRules version layout := by
  unfold KeepsRules
  rw [layout.perm_fields_arranged.pairwise_iff fun h => h.symm, List.pairwise_map]
  simp only [id_arrangedField, mem_fields_arranged_iff, forall_exists_index, and_imp,
    forall_apply_eq_imp_iff₂, keeps_arrangedField_iff fun _ => mem_retired_arranged_iff]

/-! ## The same up to order -/

/-- One layout becomes the other by listing fields and retired ids in another order, in the layout
and in the layouts within. -/
inductive SameUpToOrder : Layout → Layout → Prop
  | listed {layout other : Layout} (hfields : layout.fields.Perm other.fields)
      (hretired : layout.retired.Perm other.retired) : SameUpToOrder layout other
  | within {before after : List Field} {retired : List UInt32} {nested nested' : Layout}
      (field : Field) (hnested : SameUpToOrder nested nested') :
      SameUpToOrder ⟨before ++ { field with layout := some nested } :: after, retired⟩
        ⟨before ++ { field with layout := some nested' } :: after, retired⟩
  | trans {layout between other : Layout} (hfirst : SameUpToOrder layout between)
      (hsecond : SameUpToOrder between other) : SameUpToOrder layout other

namespace SameUpToOrder

theorem refl (layout : Layout) : SameUpToOrder layout layout :=
  .listed (.refl _) (.refl _)

theorem symm {layout other : Layout} (hsame : SameUpToOrder layout other) :
    SameUpToOrder other layout := by
  induction hsame with
  | listed hfields hretired => exact .listed hfields.symm hretired.symm
  | within field _ ih => exact .within field ih
  | trans _ _ ihfirst ihsecond => exact ihsecond.trans ihfirst

end SameUpToOrder

theorem sameUpToOrder_arrangedFields
    (retired : List UInt32) (before : List Field) {fields : List Field}
    (hnested : ∀ field ∈ fields, ∀ nested, field.layout = some nested →
      SameUpToOrder nested nested.arranged) :
    SameUpToOrder ⟨before ++ fields, retired⟩ ⟨before ++ fields.map arrangedField, retired⟩ := by
  -- The fields in front have been arranged already.
  induction fields generalizing before with
  | nil => exact .refl _
  | cons field rest ih =>
      obtain ⟨hfield, hrest⟩ := List.forall_mem_cons.mp hnested
      have hhead : SameUpToOrder ⟨before ++ field :: rest, retired⟩
          ⟨before ++ arrangedField field :: rest, retired⟩ := by
        rcases field with ⟨id, name, kind, required, since, layout⟩
        cases layout with
        | none => exact .refl _
        | some nested =>
            exact .within ⟨id, name, kind, required, since, none⟩ (hfield nested rfl)
      have htail := ih (before ++ [arrangedField field]) hrest
      rw [List.append_assoc, List.append_assoc] at htail
      exact hhead.trans htail

theorem sameUpToOrder_arranged (layout : Layout) : SameUpToOrder layout layout.arranged := by
  induction layout using Layout.induction with
  | hstep layout ih =>
      have hinner := sameUpToOrder_arrangedFields layout.retired [] ih
      have hretired : layout.retired.Perm layout.arranged.retired := by
        rw [retired_arranged]
        exact (List.mergeSort_perm _ _).symm
      have hlisted : SameUpToOrder ⟨layout.fields.map arrangedField, layout.retired⟩
          layout.arranged := .listed layout.perm_fields_arranged.symm hretired
      rcases layout with ⟨fields, retired⟩
      exact hinner.trans hlisted

/-! ## Arranging what is the same up to order -/

/-- No two fields of a level have the same id. -/
def Distinct (layout : Layout) : Prop :=
  layout.Throughout fun layout => layout.fields.Pairwise fun a b => a.id ≠ b.id

theorem ascending_arranged
    {layout : Layout} (hdistinct : layout.fields.Pairwise fun a b => a.id ≠ b.id) :
    layout.arranged.Ascending := by
  have hapart : layout.arranged.fields.Pairwise fun a b => a.id ≠ b.id := by
    rw [layout.perm_fields_arranged.pairwise_iff fun h => h.symm, List.pairwise_map]
    simpa only [id_arrangedField] using hdistinct
  exact (layout.throughout_arranged.here.and hapart).imp fun h => UInt32.lt_of_le_of_ne h.1 h.2

theorem arranged_eq_of_perm
    {layout other : Layout} (hdistinct : layout.fields.Pairwise fun a b => a.id ≠ b.id)
    (hfields : (layout.fields.map arrangedField).Perm (other.fields.map arrangedField))
    (hretired : layout.retired.Perm other.retired) : layout.arranged = other.arranged := by
  have hperm := (layout.perm_fields_arranged.trans hfields).trans other.perm_fields_arranged.symm
  have hdistinct' : other.fields.Pairwise fun a b => a.id ≠ b.id := by
    have hapart := (hfields.map Field.id).pairwise_iff (R := (· ≠ ·)) Ne.symm
    simpa only [List.pairwise_map, id_arrangedField] using
      hapart.mp (by simpa only [List.pairwise_map, id_arrangedField] using hdistinct)
  have hfieldsEq : layout.arranged.fields = other.arranged.fields :=
    hperm.eq_of_pairwise (fun _ _ _ _ hab hba => absurd hba (UInt32.lt_asymm hab))
      (ascending_arranged hdistinct) (ascending_arranged hdistinct')
  have hretiredEq : layout.arranged.retired = other.arranged.retired := by
    rw [retired_arranged, retired_arranged]
    have hsorted (ids : List UInt32) := List.pairwise_mergeSort' (· ≤ ·) ids
    have hperm' := (List.mergeSort_perm layout.retired fun a b => a ≤ b).trans
      (hretired.trans (List.mergeSort_perm other.retired fun a b => a ≤ b).symm)
    exact hperm'.eq_of_pairwise' (hsorted layout.retired) (hsorted other.retired)
  cases hlayout : layout.arranged
  cases hother : other.arranged
  rw [hlayout, hother] at hfieldsEq hretiredEq
  exact congr (congrArg Layout.mk hfieldsEq) hretiredEq

theorem distinct_arranged_iff (layout : Layout) : layout.arranged.Distinct ↔ layout.Distinct := by
  apply throughout_arranged_iff
  intro level
  rw [level.perm_fields_arranged.pairwise_iff fun h => h.symm, List.pairwise_map]
  simp only [id_arrangedField]

theorem SameUpToOrder.arranged_eq
    {layout other : Layout} (hsame : SameUpToOrder layout other) (hdistinct : layout.Distinct) :
    layout.arranged = other.arranged := by
  induction hsame with
  | listed hfields hretired =>
      exact arranged_eq_of_perm hdistinct.here (hfields.map arrangedField) hretired
  | @within before after retired nested nested' field _ ih =>
      have hmem : { field with layout := some nested } ∈
          before ++ { field with layout := some nested } :: after := by
        simp
      have hfield : arrangedField { field with layout := some nested } =
          arrangedField { field with layout := some nested' } := by
        simp [arrangedField, ih (hdistinct.within hmem rfl)]
      refine arranged_eq_of_perm hdistinct.here ?_ (List.Perm.refl retired)
      simp only [List.map_append, List.map_cons, hfield]
      exact .refl _
  | @trans layout between other _ _ ihfirst ihsecond =>
      have hbetween : between.Distinct := by
        rw [← distinct_arranged_iff, ← ihfirst hdistinct, distinct_arranged_iff]
        exact hdistinct
      exact (ihfirst hdistinct).trans (ihsecond hbetween)

/-- Arranging leaves of a declaration what is the same up to order, and nothing else. -/
theorem arranged_eq_iff_sameUpToOrder
    {layout other : Layout} (hdistinct : layout.Distinct) :
    layout.arranged = other.arranged ↔ SameUpToOrder layout other := by
  constructor
  · intro harranged
    have hother := other.sameUpToOrder_arranged.symm
    rw [← harranged] at hother
    exact layout.sameUpToOrder_arranged.trans hother
  · intro hsame
    exact hsame.arranged_eq hdistinct

end Layout
end EventCourier
