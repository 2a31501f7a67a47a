import EventCourier.Limits
import EventCourier.Proofs.Instant
import EventCourier.Proofs.Record.Conformance
import EventCourier.Text.Utf8

/-!
# Records within limits

A record fits a layout and limits when it suits the layout, texts and byte strings in the fields
that the layout has are no longer than the limits allow, instants there are whole milliseconds, and
no record there lies too deep.  A record that a writer's layout covers and that fits it also fits
the layout of a reader whom it suits.
-/

namespace EventCourier

/-- The value is no longer than the limits allow, and an instant is a whole millisecond. -/
def Value.Within (limits : Limits) : Value → Prop
  | .text s => (Text.toUtf8 s).length ≤ limits.maxFieldBytes.toNat
  | .bytes content => content.length ≤ limits.maxFieldBytes.toNat
  | .timestamp t => ∃ millis, t.exactMillis = .ok millis
  | .bool _ | .int _ | .record _ => True

/-- What the layout has of a record that lies `depth` records deep is there as it should be and
within the limits, at every level. -/
inductive Record.Fits (limits : Limits) : Layout → Nat → Record → Prop
  | intro {layout : Layout} {depth : Nat} {record : Record}
      (depth_le : depth ≤ limits.maxDepth.toNat)
      (required : record.HasRequired layout)
      (kinds : record.KindsAgree layout)
      (values : ∀ entry ∈ record.entries, ∀ field, layout.field? entry.1 = some field →
        entry.2.Within limits)
      (nests : ∀ id inner, (id, Value.record inner) ∈ record.entries →
        ∀ field nested, layout.field? id = some field → field.layout = some nested →
          Fits limits nested (depth + 1) inner) :
      Fits limits layout depth record

/-- The field of a record that lies `depth` records deep can hold the value. -/
structure Field.Takes (limits : Limits) (depth : Nat) (field : Field) (value : Value) : Prop where
  kind_eq : value.kind = field.kind
  within : value.Within limits
  nests : ∀ inner nested, value = .record inner → field.layout = some nested →
    inner.Fits limits nested (depth + 1)

theorem Field.covers_record_iff
    {field : Field} {nested : Layout} {inner : Record} (hnested : field.layout = some nested) :
    field.Covers (.record inner) ↔ inner.CoveredBy nested := by
  constructor
  · intro hcovers
    exact hcovers inner nested rfl hnested
  · intro hcovered inside layout hinside hlayout
    cases hinside
    cases hnested.symm.trans hlayout
    exact hcovered

theorem Field.takes_record_iff
    {limits : Limits} {depth : Nat} {field : Field} {nested : Layout} {inner : Record}
    (hkind : field.kind = .record) (hnested : field.layout = some nested) :
    field.Takes limits depth (.record inner) ↔ inner.Fits limits nested (depth + 1) := by
  constructor
  · intro htakes
    exact htakes.nests inner nested rfl hnested
  · intro hfits
    refine ⟨hkind.symm, trivial, ?_⟩
    intro inside layout hinside hlayout
    cases hinside
    cases hnested.symm.trans hlayout
    exact hfits

theorem Field.covers_of_ne_record
    {field : Field} {value : Value} (hscalar : ∀ inner, value ≠ .record inner) :
    field.Covers value := by
  intro inner _ hinner
  exact absurd hinner (hscalar inner)

theorem Field.takes_iff_of_ne_record
    {limits : Limits} {depth : Nat} {field : Field} {value : Value}
    (hscalar : ∀ inner, value ≠ .record inner) :
    field.Takes limits depth value ↔ value.kind = field.kind ∧ value.Within limits := by
  constructor
  · intro htakes
    exact ⟨htakes.kind_eq, htakes.within⟩
  · intro hholds
    refine ⟨hholds.1, hholds.2, ?_⟩
    intro inner _ hinner
    exact absurd hinner (hscalar inner)

namespace Record

theorem fits_iff {limits : Limits} {layout : Layout} {depth : Nat} {record : Record} :
    record.Fits limits layout depth ↔
      depth ≤ limits.maxDepth.toNat ∧ record.HasRequired layout ∧
        ∀ entry ∈ record.entries, ∀ field, layout.field? entry.1 = some field →
          field.Takes limits depth entry.2 := by
  constructor
  · intro hfits
    cases hfits with
    | intro hdepth hrequired hkinds hvalues hnests =>
        refine ⟨hdepth, hrequired, fun entry hmem field hfield => ?_⟩
        refine ⟨hkinds entry hmem field hfield, hvalues entry hmem field hfield, ?_⟩
        intro inner nested hinner hnested
        rcases entry with ⟨id, value⟩
        subst hinner
        exact hnests id inner hmem field nested hfield hnested
  · intro h
    rcases h with ⟨hdepth, hrequired, hfields⟩
    refine .intro hdepth hrequired (fun entry hmem field hfield => ?_)
      (fun entry hmem field hfield => ?_) fun id inner hmem field nested hfield hnested => ?_
    · exact (hfields entry hmem field hfield).kind_eq
    · exact (hfields entry hmem field hfield).within
    · exact (hfields (id, .record inner) hmem field hfield).nests inner nested rfl hnested

theorem coveredBy_and_fits_iff
    {limits : Limits} {layout : Layout} {depth : Nat} {record : Record} :
    record.CoveredBy layout ∧ record.Fits limits layout depth ↔
      depth ≤ limits.maxDepth.toNat ∧ record.HasRequired layout ∧
        ∀ entry ∈ record.entries, ∃ field, layout.field? entry.1 = some field ∧
          field.Covers entry.2 ∧ field.Takes limits depth entry.2 := by
  rw [coveredBy_iff, fits_iff]
  constructor
  · intro h
    rcases h with ⟨hcovers, hdepth, hrequired, htakes⟩
    refine ⟨hdepth, hrequired, fun entry hmem => ?_⟩
    obtain ⟨field, hfield, hcovered⟩ := hcovers entry hmem
    exact ⟨field, hfield, hcovered, htakes entry hmem field hfield⟩
  · intro h
    rcases h with ⟨hdepth, hrequired, hfields⟩
    refine ⟨fun entry hmem => ?_, hdepth, hrequired, fun entry hmem field hfield => ?_⟩
    · obtain ⟨field, hfield, hcovers, _⟩ := hfields entry hmem
      exact ⟨field, hfield, hcovers⟩
    · obtain ⟨known, hknown, _, htakes⟩ := hfields entry hmem
      obtain rfl := Option.some.inj (hknown.symm.trans hfield)
      exact htakes

/-- The record has the field as its layout says, or may lack it. -/
def Supplies (limits : Limits) (depth : Nat) (field : Field) (record : Record) : Prop :=
  (field.required = true → ∃ value, (field.id, value) ∈ record.entries) ∧
    ∀ value, (field.id, value) ∈ record.entries →
      field.Covers value ∧ field.Takes limits depth value

theorem coveredBy_and_fits_iff_supplies
    {limits : Limits} {layout : Layout} {depth : Nat} {record : Record}
    (hascending : layout.Ascending) :
    record.CoveredBy layout ∧ record.Fits limits layout depth ↔
      depth ≤ limits.maxDepth.toNat ∧ record.Declared layout ∧
        ∀ field ∈ layout.fields, record.Supplies limits depth field := by
  rw [coveredBy_and_fits_iff]
  refine and_congr_right fun _ => ?_
  constructor
  · intro h
    rcases h with ⟨hrequired, hfields⟩
    refine ⟨fun entry hmem => ?_, fun field hfield => ⟨hrequired field hfield, ?_⟩⟩
    · obtain ⟨field, hfield, _⟩ := hfields entry hmem
      simp [hfield]
    · intro value hmem
      obtain ⟨known, hknown, hholds⟩ := hfields _ hmem
      have hfound := (Layout.field?_eq_some_iff hascending).mpr ⟨hfield, rfl⟩
      obtain rfl := Option.some.inj (hknown.symm.trans hfound)
      exact hholds
  · intro h
    rcases h with ⟨hdeclared, hsupplies⟩
    refine ⟨fun field hfield => (hsupplies field hfield).1, fun entry hmem => ?_⟩
    obtain ⟨field, hfield⟩ := Option.ne_none_iff_exists'.mp (hdeclared entry hmem)
    obtain ⟨hlisted, hid⟩ := (Layout.field?_eq_some_iff hascending).mp hfield
    exact ⟨field, hfield, (hsupplies field hlisted).2 entry.2 (hid ▸ hmem)⟩

theorem Fits.suits
    {limits : Limits} {layout : Layout} {depth : Nat} {record : Record}
    (hfits : record.Fits limits layout depth) : record.Suits layout := by
  induction hfits with
  | intro _ hrequired hkinds _ _ ih => exact .intro ⟨hkinds, hrequired⟩ ih

theorem exists_layout_of_kind
    {version : UInt32} {layout : Layout} {id : UInt32} {field : Field} {inner : Record}
    (hsound : layout.Sound version) (hfield : layout.field? id = some field)
    (hkind : (Value.record inner).kind = field.kind) :
    ∃ nested, field.layout = some nested ∧ nested.Sound version := by
  have hmem := Layout.mem_of_field? hfield
  have hnests := (hsound.keeps hmem).nests_iff.mpr hkind.symm
  obtain ⟨nested, hnested⟩ := Option.isSome_iff_exists.mp hnests
  exact ⟨nested, hnested, hsound.within hmem hnested⟩

/-- What fits its writer's layout fits that of a reader whom it suits. -/
theorem Suits.fits
    {limits : Limits} {version : UInt32} {writer reader : Layout} {depth : Nat} {record : Record}
    (hsuits : record.Suits reader) (hsound : writer.Sound version)
    (hcovered : record.CoveredBy writer) (hfits : record.Fits limits writer depth) :
    record.Fits limits reader depth := by
  induction hsuits generalizing writer depth with
  | @intro reader record here _ ih =>
      obtain ⟨hdepth, _, hfields⟩ := coveredBy_and_fits_iff.mp ⟨hcovered, hfits⟩
      refine .intro hdepth here.2 here.1 (fun entry hmem _ _ => ?_) ?_
      · obtain ⟨_, _, _, htakes⟩ := hfields entry hmem
        exact htakes.within
      · intro id inner hmem field nested hfield hnested
        obtain ⟨known, hknown, hcovers, htakes⟩ := hfields _ hmem
        obtain ⟨inside, hinside, hinsideSound⟩ :=
          exists_layout_of_kind hsound hknown htakes.kind_eq
        exact ih id inner hmem field nested hfield hnested hinsideSound
          (hcovers inner inside rfl hinside) (htakes.nests inner inside rfl hinside)

/-! ## Records that their written form stands for -/

/-- No entry is under the reserved id and instants are whole milliseconds, also in the records among
the entries. -/
inductive FaithfulEntries : List (UInt32 × Value) → Prop
  | intro {entries : List (UInt32 × Value)}
      (nonzero : ∀ entry ∈ entries, entry.1 ≠ 0)
      (exact : ∀ id t, (id, Value.timestamp t) ∈ entries → ∃ millis, t.exactMillis = .ok millis)
      (nests : ∀ id inner, (id, Value.record inner) ∈ entries → FaithfulEntries inner.entries) :
      FaithfulEntries entries

def Faithful (record : Record) : Prop :=
  FaithfulEntries record.entries

section Faithful

variable {entries : List (UInt32 × Value)} {id : UInt32}

theorem FaithfulEntries.nonzero
    {entry : UInt32 × Value} (hfaithful : FaithfulEntries entries) (hmem : entry ∈ entries) :
    entry.1 ≠ 0 := by
  cases hfaithful with
  | intro nonzero _ _ => exact nonzero entry hmem

theorem FaithfulEntries.exact
    {t : Instant} (hfaithful : FaithfulEntries entries)
    (hmem : (id, Value.timestamp t) ∈ entries) : ∃ millis, t.exactMillis = .ok millis := by
  cases hfaithful with
  | intro _ exact _ => exact exact id t hmem

theorem FaithfulEntries.inner
    {inner : Record} (hfaithful : FaithfulEntries entries)
    (hmem : (id, Value.record inner) ∈ entries) : inner.Faithful := by
  cases hfaithful with
  | intro _ _ nests => exact nests id inner hmem

theorem FaithfulEntries.subset
    {front : List (UInt32 × Value)} (hfaithful : FaithfulEntries entries)
    (hsubset : front ⊆ entries) : FaithfulEntries front := by
  cases hfaithful with
  | intro nonzero exact nests =>
      apply FaithfulEntries.intro
      · intro entry hmem
        exact nonzero entry (hsubset hmem)
      · intro id t hmem
        exact exact id t (hsubset hmem)
      · intro id inner hmem
        exact nests id inner (hsubset hmem)

theorem FaithfulEntries.tail
    {entry : UInt32 × Value} {rest : List (UInt32 × Value)}
    (hfaithful : FaithfulEntries (entry :: rest)) : FaithfulEntries rest :=
  hfaithful.subset (List.subset_cons_self entry rest)

end Faithful

theorem Fits.faithful
    {limits : Limits} {version : UInt32} {layout : Layout} {depth : Nat} {record : Record}
    (hfits : record.Fits limits layout depth) (hsound : layout.Sound version)
    (hcovered : record.CoveredBy layout) : record.Faithful := by
  induction hfits with
  | @intro layout depth record hdepth hrequired hkinds hvalues hnests ih =>
      have hfields := coveredBy_iff.mp hcovered
      refine .intro (fun entry hmem hzero => ?_) (fun id t hmem => ?_) fun id inner hmem => ?_
      · obtain ⟨field, hfield, _⟩ := hfields entry hmem
        obtain ⟨hlisted, hid⟩ := hsound.field?_eq_some_iff.mp hfield
        exact (hsound.keeps hlisted).id_ne_zero (hid.trans hzero)
      · obtain ⟨field, hfield, _⟩ := hfields _ hmem
        exact hvalues _ hmem field hfield
      · obtain ⟨field, hfield, hcovers⟩ := hfields _ hmem
        obtain ⟨nested, hnested, hnestedSound⟩ :=
          exists_layout_of_kind hsound hfield (hkinds _ hmem field hfield)
        exact ih id inner hmem field nested hfield hnested hnestedSound
          (hcovers inner nested rfl hnested)

end Record
end EventCourier
