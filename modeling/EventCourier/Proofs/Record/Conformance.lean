import EventCourier.Proofs.Layout
import EventCourier.Proofs.Record.Order

/-!
# Records and layouts

A record suits a layout when each of its fields that the layout has is of the kind that the layout
says, no required field is missing, and the same is true of the records in it that the layout has.
A layout covers a record that has no other fields.  Restricting a record to a layout drops those.
-/

namespace EventCourier
namespace Record

/-! ## Suiting a layout -/

/-- Each field that the layout has is of the kind that the layout says. -/
def KindsAgree (layout : Layout) (record : Record) : Prop :=
  ∀ entry ∈ record.entries, ∀ field, layout.field? entry.1 = some field →
    entry.2.kind = field.kind

/-- No field that the layout requires is missing. -/
def HasRequired (layout : Layout) (record : Record) : Prop :=
  ∀ field ∈ layout.fields, field.required = true → ∃ value, (field.id, value) ∈ record.entries

def Declared (layout : Layout) (record : Record) : Prop :=
  ∀ entry ∈ record.entries, layout.field? entry.1 ≠ none

/-- The property holds of a record under its layout, and of every record in a field that the
layout has under the layout of that field, however deep. -/
inductive Throughout (P : Layout → Record → Prop) : Layout → Record → Prop
  | intro {layout : Layout} {record : Record} (here : P layout record)
      (within : ∀ id inner, (id, Value.record inner) ∈ record.entries →
        ∀ field nested, layout.field? id = some field → field.layout = some nested →
          Throughout P nested inner) :
      Throughout P layout record

theorem Throughout.here
    {P : Layout → Record → Prop} {layout : Layout} {record : Record}
    (h : Throughout P layout record) : P layout record := by
  cases h
  assumption

theorem Throughout.within
    {P : Layout → Record → Prop} {layout nested : Layout} {record inner : Record}
    {id : UInt32} {field : Field} (h : Throughout P layout record)
    (hmem : (id, Value.record inner) ∈ record.entries) (hfield : layout.field? id = some field)
    (hnested : field.layout = some nested) : Throughout P nested inner := by
  cases h with
  | intro _ within => exact within id inner hmem field nested hfield hnested

/-- A reader with the layout can make sense of the record. -/
def Suits (layout : Layout) (record : Record) : Prop :=
  Throughout (fun layout record => record.KindsAgree layout ∧ record.HasRequired layout)
    layout record

/-- The record and those in it have no fields but the ones that the layout has. -/
def CoveredBy (layout : Layout) (record : Record) : Prop :=
  Throughout (fun layout record => record.Declared layout) layout record

end Record

def Field.Covers (field : Field) (value : Value) : Prop :=
  ∀ inner nested, value = .record inner → field.layout = some nested → inner.CoveredBy nested

theorem Record.coveredBy_iff {layout : Layout} {record : Record} :
    record.CoveredBy layout ↔
      ∀ entry ∈ record.entries, ∃ field, layout.field? entry.1 = some field ∧
        field.Covers entry.2 := by
  constructor
  · intro hcovered entry hmem
    obtain ⟨field, hfield⟩ := Option.ne_none_iff_exists'.mp (hcovered.here entry hmem)
    refine ⟨field, hfield, fun inner nested hinner hnested => ?_⟩
    rcases entry with ⟨id, value⟩
    subst hinner
    exact hcovered.within hmem hfield hnested
  · intro hfields
    refine .intro (fun entry hmem => ?_) fun id inner hmem field nested hfield hnested => ?_
    · obtain ⟨field, hfield, _⟩ := hfields entry hmem
      simp [hfield]
    · obtain ⟨known, hknown, hcovers⟩ := hfields _ hmem
      obtain rfl := Option.some.inj (hknown.symm.trans hfield)
      exact hcovers inner nested rfl hnested

/-! ## Restriction -/

/-- The same entries from an earlier place on. -/
def Entries.weaken {low low' : Nat} (hle : low' ≤ low) : Entries low → Entries low'
  | .nil => .nil
  | .cons id above value rest => .cons id (Nat.le_trans hle above) value rest

mutual

def Value.restrict : Option Layout → Value → Value
  | some nested, .record inner => .record (inner.restrict nested)
  | _, value => value

def Entries.restrict (layout : Layout) : {low : Nat} → Entries low → Entries low
  | _, .nil => .nil
  | _, .cons id above value rest =>
    match layout.field? id with
    | none => (rest.restrict layout).weaken (Nat.le_succ_of_le above)
    | some field => .cons id above (value.restrict field.layout) (rest.restrict layout)

/-- The fields of a record that the layout has, and of the records in them the fields that their
layouts have. -/
def Record.restrict (layout : Layout) : Record → Record
  | ⟨held⟩ => ⟨held.restrict layout⟩

end

theorem Value.kind_restrict (layout : Option Layout) (value : Value) :
    (value.restrict layout).kind = value.kind := by
  cases layout with
  | none => simp [Value.restrict]
  | some nested =>
      cases value with
      | record inner => rw [Value.restrict]; rfl
      | _ => simp [Value.restrict]

theorem Value.restrict_eq_self
    {layout : Option Layout} {value : Value}
    (hinner : ∀ inner nested, value = .record inner → layout = some nested →
      inner.restrict nested = inner) :
    value.restrict layout = value := by
  cases layout with
  | none => simp [Value.restrict]
  | some nested =>
      cases value with
      | record inner => rw [Value.restrict, hinner inner nested rfl rfl]
      | _ => simp [Value.restrict]

namespace Record

/-- What is left of entries of a record that is restricted to a layout. -/
def restrictEntries (layout : Layout) (entries : List (UInt32 × Value)) : List (UInt32 × Value) :=
  entries.filterMap fun entry =>
    (layout.field? entry.1).map fun field => (entry.1, entry.2.restrict field.layout)

theorem restrictEntries_unknown
    {layout : Layout} {id : UInt32} (hfield : layout.field? id = none) (value : Value)
    (rest : List (UInt32 × Value)) :
    restrictEntries layout ((id, value) :: rest) = restrictEntries layout rest := by
  simp [restrictEntries, hfield]

theorem restrictEntries_known
    {layout : Layout} {id : UInt32} {field : Field} (hfield : layout.field? id = some field)
    (value : Value) (rest : List (UInt32 × Value)) :
    restrictEntries layout ((id, value) :: rest) =
      (id, value.restrict field.layout) :: restrictEntries layout rest := by
  simp [restrictEntries, hfield]

theorem mem_restrictEntries_iff
    {layout : Layout} {entries : List (UInt32 × Value)} {id : UInt32} {value : Value} :
    (id, value) ∈ restrictEntries layout entries ↔
      ∃ field held, layout.field? id = some field ∧ (id, held) ∈ entries ∧
        value = held.restrict field.layout := by
  simp only [restrictEntries, List.mem_filterMap, Option.map_eq_some_iff, Prod.mk.injEq]
  constructor
  · rintro ⟨⟨_, held⟩, hmem, field, hfield, rfl, rfl⟩
    exact ⟨field, held, hfield, hmem, rfl⟩
  · rintro ⟨field, held, hfield, hmem, rfl⟩
    exact ⟨(id, held), hmem, field, hfield, rfl, rfl⟩

end Record

theorem Entries.toList_weaken
    {low low' : Nat} (entries : Entries low) (hle : low' ≤ low) :
    (entries.weaken hle).toList = entries.toList := by
  cases entries <;> rfl

theorem Entries.toList_restrict
    {low : Nat} (layout : Layout) (entries : Entries low) :
    (entries.restrict layout).toList = Record.restrictEntries layout entries.toList := by
  induction entries with
  | nil =>
      rw [Entries.restrict]
      rfl
  | cons id above value rest ih =>
      rw [Entries.restrict, Entries.toList]
      split
      next hfield =>
        rw [Entries.toList_weaken, ih, Record.restrictEntries_unknown hfield]
      next field hfield =>
        rw [Entries.toList, ih, Record.restrictEntries_known hfield]

namespace Record

theorem entries_restrict (layout : Layout) (record : Record) :
    (record.restrict layout).entries = restrictEntries layout record.entries := by
  rcases record with ⟨held⟩
  rw [restrict]
  exact held.toList_restrict layout

theorem hasRequired_restrict_iff
    {layout : Layout} {record : Record} (hascending : layout.Ascending) :
    (record.restrict layout).HasRequired layout ↔ record.HasRequired layout := by
  refine forall_congr' fun field => forall_congr' fun hmem => forall_congr' fun _ => ?_
  have hfound := (Layout.field?_eq_some_iff hascending).mpr ⟨hmem, rfl⟩
  simp only [entries_restrict, mem_restrictEntries_iff]
  constructor
  · intro h
    rcases h with ⟨_, _, held, _, hheld, _⟩
    exact ⟨held, hheld⟩
  · intro h
    rcases h with ⟨held, hheld⟩
    exact ⟨_, field, held, hfound, hheld, rfl⟩

theorem kindsAgree_restrict_iff {layout : Layout} {record : Record} :
    (record.restrict layout).KindsAgree layout ↔ record.KindsAgree layout := by
  constructor
  · rintro hagree ⟨id, held⟩ hmem field hfield
    have hrestricted := hagree (id, held.restrict field.layout) (by
      rw [entries_restrict, mem_restrictEntries_iff]
      exact ⟨field, held, hfield, hmem, rfl⟩) field hfield
    rwa [Value.kind_restrict] at hrestricted
  · rintro hagree ⟨id, value⟩ hmem field hfield
    rw [entries_restrict, mem_restrictEntries_iff] at hmem
    rcases hmem with ⟨known, held, hknown, hheld, rfl⟩
    rw [Value.kind_restrict]
    exact hagree (id, held) hheld field hfield

/-- Whether a record suits a layout depends only on the fields that the layout has. -/
theorem suits_restrict_iff
    {version : UInt32} {layout : Layout} {record : Record} (hsound : layout.Sound version) :
    (record.restrict layout).Suits layout ↔ record.Suits layout := by
  induction hsound generalizing record with
  | @intro layout here _ ih =>
      have hrequired := @hasRequired_restrict_iff layout record here.1
      constructor
      · intro hsuits
        refine .intro ⟨kindsAgree_restrict_iff.mp hsuits.here.1,
          hrequired.mp hsuits.here.2⟩
          fun id inner hmem field nested hfield hnested => ?_
        have hrestricted : (id, Value.record (inner.restrict nested)) ∈
            (record.restrict layout).entries := by
          rw [entries_restrict, mem_restrictEntries_iff]
          exact ⟨field, .record inner, hfield, hmem, by rw [hnested, Value.restrict]⟩
        exact (ih field (Layout.mem_of_field? hfield) nested hnested).mp
          (hsuits.within hrestricted hfield hnested)
      · intro hsuits
        refine .intro ⟨kindsAgree_restrict_iff.mpr hsuits.here.1,
          hrequired.mpr hsuits.here.2⟩
          fun id inner hmem field nested hfield hnested => ?_
        rw [entries_restrict, mem_restrictEntries_iff] at hmem
        rcases hmem with ⟨known, held, hknown, hheld, hinner⟩
        obtain rfl := Option.some.inj (hknown.symm.trans hfield)
        rw [hnested] at hinner
        cases held with
        | record whole =>
            rw [Value.restrict] at hinner
            cases hinner
            exact (ih known (Layout.mem_of_field? hfield) nested hnested).mpr
              (hsuits.within hheld hfield hnested)
        | _ => simp [Value.restrict] at hinner

theorem CoveredBy.restrict_eq {layout : Layout} {record : Record}
    (hcovered : record.CoveredBy layout) : record.restrict layout = record := by
  induction hcovered with
  | @intro layout record here _ ih =>
      have hentry : ∀ entry ∈ record.entries,
          (layout.field? entry.1).map (fun field => (entry.1, entry.2.restrict field.layout)) =
            some entry := by
        rintro ⟨id, value⟩ hmem
        obtain ⟨field, hfield⟩ := Option.ne_none_iff_exists'.mp (here (id, value) hmem)
        have hvalue : value.restrict field.layout = value := by
          apply Value.restrict_eq_self
          rintro inner nested rfl hnested
          exact ih id inner hmem field nested hfield hnested
        rw [hfield, Option.map_some, hvalue]
      apply eq_of_entries_eq
      rw [entries_restrict, restrictEntries, List.filterMap_congr hentry, List.filterMap_some]

end Record
end EventCourier
