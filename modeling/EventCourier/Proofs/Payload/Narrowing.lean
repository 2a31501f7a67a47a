import EventCourier.Proofs.Payload.Canonical

/-!
# Removing fields

A schema may lose fields, at any level of nesting.  Whatever octets its wider form accepts, the
narrower one accepts too, and reads the same record without the fields that are gone.  For a value
that one reader decodes and another steps over by its kind has one end for both.
-/

namespace EventCourier

/-- The second list is what is left of the first after some fields were removed, from the list
itself or from the layouts of fields that stay.  Which ids are retired makes no difference. -/
inductive FieldsNarrowed : List Field → List Field → Prop
  | done : FieldsNarrowed [] []
  | removed {wide narrow : List Field} (field : Field) (hrest : FieldsNarrowed wide narrow) :
      FieldsNarrowed (field :: wide) narrow
  | kept {wide narrow : List Field} (field : Field) (hrest : FieldsNarrowed wide narrow) :
      FieldsNarrowed (field :: wide) (field :: narrow)
  | nested {wide narrow : List Field} {inside outside : Layout} (field : Field)
      (hlayout : field.layout = some inside)
      (hinside : FieldsNarrowed inside.fields outside.fields)
      (hrest : FieldsNarrowed wide narrow) :
      FieldsNarrowed (field :: wide) ({ field with layout := some outside } :: narrow)

/-- The second layout is the first without some of its fields, at any level. -/
def Layout.NarrowedTo (wide narrow : Layout) : Prop :=
  FieldsNarrowed wide.fields narrow.fields

/-- The second field is the first, perhaps with fields removed from its layout. -/
structure Field.NarrowedTo (wide narrow : Field) : Prop where
  id_eq : narrow.id = wide.id
  kind_eq : narrow.kind = wide.kind
  required_eq : narrow.required = wide.required
  since_eq : narrow.since = wide.since
  nests : ∀ inside, wide.layout = some inside →
    ∃ outside, narrow.layout = some outside ∧ inside.NarrowedTo outside

theorem FieldsNarrowed.refl (fields : List Field) : FieldsNarrowed fields fields := by
  induction fields with
  | nil => exact .done
  | cons field rest ih => exact .kept field ih

/-- Every field that is left comes from a field that was there. -/
theorem FieldsNarrowed.exists_origin
    {wide narrow : List Field} (hnarrowed : FieldsNarrowed wide narrow) :
    ∀ field ∈ narrow, ∃ origin ∈ wide, origin.NarrowedTo field := by
  have hlater : ∀ {head : Field} {wide narrow : List Field},
      (∀ field ∈ narrow, ∃ origin ∈ wide, origin.NarrowedTo field) →
        ∀ field ∈ narrow, ∃ origin ∈ head :: wide, origin.NarrowedTo field := by
    intro head wide narrow hall field hmem
    obtain ⟨origin, horigin, hfield⟩ := hall field hmem
    exact ⟨origin, List.mem_cons_of_mem _ horigin, hfield⟩
  induction hnarrowed with
  | done => simp
  | removed _ _ ih => exact hlater ih
  | kept origin _ ih =>
      rw [List.forall_mem_cons]
      refine ⟨⟨origin, List.mem_cons_self, rfl, rfl, rfl, rfl, ?_⟩, hlater ih⟩
      intro inside hinside
      exact ⟨inside, hinside, .refl inside.fields⟩
  | @nested _ _ inside outside origin hlayout hinside _ _ ih =>
      rw [List.forall_mem_cons]
      refine ⟨⟨origin, List.mem_cons_self, rfl, rfl, rfl, rfl, ?_⟩, hlater ih⟩
      intro found hfound
      cases hlayout.symm.trans hfound
      exact ⟨outside, rfl, hinside⟩

theorem FieldsNarrowed.ids_sublist
    {wide narrow : List Field} (hnarrowed : FieldsNarrowed wide narrow) :
    (narrow.map Field.id).Sublist (wide.map Field.id) := by
  induction hnarrowed with
  | done => exact .slnil
  | removed field _ ih => exact .cons field.id ih
  | kept field _ ih => exact .cons_cons field.id ih
  | nested field _ _ _ _ ih => exact .cons_cons field.id ih

section Lookup

variable {wide narrow : Layout} {id : UInt32}

theorem Layout.NarrowedTo.ascending
    (hnarrowed : wide.NarrowedTo narrow) (hascending : wide.Ascending) : narrow.Ascending := by
  have hids : (wide.fields.map Field.id).Pairwise (· < ·) := List.pairwise_map.mpr hascending
  exact List.pairwise_map.mp (hids.sublist hnarrowed.ids_sublist)

theorem Layout.NarrowedTo.field?_eq_none
    (hnarrowed : wide.NarrowedTo narrow) (hascending : wide.Ascending)
    (hnone : wide.field? id = none) : narrow.field? id = none := by
  have hother := (field?_eq_none_iff hascending).mp hnone
  apply field?_eq_none_of_forall
  intro field hmem
  obtain ⟨origin, horigin, hfield⟩ := hnarrowed.exists_origin field hmem
  rw [hfield.id_eq]
  exact hother origin horigin

theorem Layout.NarrowedTo.origin
    {origin field : Field} (hnarrowed : wide.NarrowedTo narrow) (hascending : wide.Ascending)
    (horigin : wide.field? id = some origin) (hfield : narrow.field? id = some field) :
    origin.NarrowedTo field := by
  obtain ⟨found, hfound, hnarrow⟩ := hnarrowed.exists_origin field (mem_of_field? hfield)
  have hid : found.id = id := hnarrow.id_eq.symm.trans (id_of_field? hfield)
  have hsame := (field?_eq_some_iff hascending).mpr ⟨hfound, hid⟩
  cases hsame.symm.trans horigin
  exact hnarrow

/-- A record that has what the wider layout requires has what the narrower one requires, also
without the fields that are gone. -/
theorem Record.Carries.narrowed
    {version : UInt32} {record : Record} (hcarries : record.Carries wide version)
    (hnarrowed : wide.NarrowedTo narrow) (hascending : wide.Ascending) :
    (record.restrict narrow).Carries narrow version := by
  intro field hmem hrequired hsince
  obtain ⟨origin, horigin, hfield⟩ := hnarrowed.exists_origin field hmem
  rw [hfield.required_eq] at hrequired
  rw [hfield.since_eq] at hsince
  obtain ⟨held, hheld⟩ := hcarries origin horigin hrequired hsince
  have hfound := (Layout.field?_eq_some_iff (hnarrowed.ascending hascending)).mpr ⟨hmem, rfl⟩
  rw [← hfield.id_eq] at hheld
  rw [Record.entries_restrict]
  exact ⟨_, Record.mem_restrictEntries_iff.mpr ⟨field, held, hfound, hheld, rfl⟩⟩

end Lookup

namespace Payload

/-- A value that can be decoded can be stepped over. -/
theorem ScalarForm.skipped
    {limits : Limits} {kind : Kind} {octets : Bytes} {value : Value}
    (hform : ScalarForm limits kind octets value)
    (hlength : octets.length ≤ limits.maxPayloadBytes.toNat) : SkippedForm limits kind octets := by
  cases hform with
  | bool b => exact .bool _
  | int hspells => exact .int hspells
  | text hblock =>
      exact .block (.inl rfl) (hblock.within (Nat.le_trans hblock.length_content_le hlength))
  | bytes hblock =>
      exact .block (.inr (.inl rfl)) (hblock.within (Nat.le_trans hblock.length_content_le hlength))
  | timestamp _ => exact .timestamp (Bytes.length_ofWord _)

/-- Fields in octets that are no longer than a payload may be have the same form for a narrower
reader. -/
theorem FieldsForm.narrowed
    {limits : Limits} {current version : UInt32} {wide narrow : Layout} {depth : Nat}
    {last : UInt32} {octets : Bytes} {entries : List (UInt32 × Value)}
    (hform : FieldsForm limits version wide depth last octets entries)
    (hsound : wide.Sound current) (hnarrowed : wide.NarrowedTo narrow)
    (hlength : octets.length ≤ limits.maxPayloadBytes.toNat) :
    FieldsForm limits version narrow depth last octets (Record.restrictEntries narrow entries) := by
  induction hform generalizing narrow with
  | done => exact .done
  | unknown hlast hnumber hfield hvalue _ ih =>
      simp only [List.length_append, List.length_cons] at hlength
      exact .unknown hlast hnumber (hnarrowed.field?_eq_none hsound.ascending hfield) hvalue
        (ih hsound hnarrowed (by omega))
  | @scalar wide depth last id origin held number value rest entries hlast hnumber horigin hvalue _
      ih =>
      simp only [List.length_append, List.length_cons] at hlength
      have hrest := ih hsound hnarrowed (by omega)
      cases hfield : narrow.field? id with
      | none =>
          rw [Record.restrictEntries_unknown hfield]
          exact .unknown hlast hnumber hfield (hvalue.skipped (by omega)) hrest
      | some field =>
          have hkind := (hnarrowed.origin hsound.ascending horigin hfield).kind_eq
          have hsame : held.restrict field.layout = held :=
            Value.restrict_eq_self fun inner _ hinner _ => absurd hinner (hvalue.ne_record inner)
          rw [Record.restrictEntries_known hfield, hsame]
          rw [← hkind] at hvalue ⊢
          exact .scalar hlast hnumber hfield hvalue hrest
  | @record wide inside depth last id origin inner number value content rest entries hlast hnumber
      horigin hkind hinside hblock hdepth _ hcarries _ ihInner ihRest =>
      simp only [List.length_append, List.length_cons] at hlength
      have hrest := ihRest hsound hnarrowed (by omega)
      cases hfield : narrow.field? id with
      | none =>
          rw [Record.restrictEntries_unknown hfield]
          exact .unknown hlast hnumber hfield (.block (.inr (.inr rfl)) hblock) hrest
      | some field =>
          have hnarrow := hnarrowed.origin hsound.ascending horigin hfield
          obtain ⟨outside, houtside, hnested⟩ := hnarrow.nests inside hinside
          have hinsideSound := hsound.within (Layout.mem_of_field? horigin) hinside
          have hinner := ihInner hinsideSound hnested hblock.length_le
          rw [← Record.entries_restrict] at hinner
          rw [Record.restrictEntries_known hfield, houtside, Value.restrict]
          exact .record hlast hnumber hfield (hnarrow.kind_eq.trans hkind) houtside hblock hdepth
            hinner (hcarries.narrowed hnested hinsideSound.ascending) hrest

/-- Whatever a schema reads, a schema with fewer fields reads from the same octets, at whatever
version it stands: the record without the fields that are gone. -/
theorem decode_narrowed
    {wide narrow : Schema} {limits : Limits} {payload : Bytes} {version : UInt32} {record : Record}
    (hnarrowed : wide.layout.NarrowedTo narrow.layout)
    (hread : decode wide payload limits = .ok (version, record)) :
    record.CoveredBy wide.layout ∧
      decode narrow payload limits = .ok (version, record.restrict narrow.layout) := by
  obtain ⟨hlength, number, fields, rfl, hversion, hnumber, hform, hcarries⟩ :=
    decode_eq_ok_iff.mp hread
  obtain ⟨hcovered, _⟩ := coveredBy_and_fits_of_form hform hcarries wide.layout_sound hversion
  refine ⟨hcovered, decode_eq_ok_iff.mpr ⟨hlength, number, fields, rfl, hversion, hnumber, ?_, ?_⟩⟩
  · rw [List.length_append] at hlength
    rw [Record.entries_restrict]
    exact hform.narrowed wide.layout_sound hnarrowed (by omega)
  · exact hcarries.narrowed hnarrowed wide.layout_sound.ascending

/-- The meters without their raw octets and the instants of their cells, two versions on. -/
def trimmedMeterLayout : Layout :=
  ⟨[{ id := 2, name := "count", kind := .int },
    { id := 7, name := "cell", kind := .record, required := false,
      layout := some ⟨[{ id := 1, name := "on", kind := .bool }], [4]⟩ }], [3]⟩

def trimmedMeters : Schema :=
  ⟨"Meter", 4, trimmedMeterLayout, ⟨trimmedMeterLayout, by cbv⟩, rfl⟩

theorem narrowedTo_trimmedMeters : meters.layout.NarrowedTo trimmedMeters.layout :=
  .kept _ (.removed _ (.nested _ rfl (.kept _ (.removed _ .done)) .done))

/-- Octets that no writer makes: numbers are spelled at length, and fields that neither schema has
stand in the record and in the cell. -/
def looseMeterPayload : Bytes :=
  [130, 0, 2, 1, 133, 0, 3, 3, 130, 0, 9, 0, 5, 0, 77, 135, 0, 5, 17, 1, 0, 1, 4, 4, 0, 0, 0, 0, 0,
    0, 234, 96, 6, 3, 1, 8]

theorem decode_meters_loose :
    decode meters looseMeterPayload ⟨2, 36, 1⟩ = .ok (2, meterReading) := by
  cbv

theorem decode_trimmedMeters_loose :
    meters.layout.NarrowedTo trimmedMeters.layout ∧
      decode meters looseMeterPayload ⟨2, 36, 1⟩ = .ok (2, meterReading) ∧
      decode trimmedMeters looseMeterPayload ⟨2, 36, 1⟩ =
        .ok (2, firstMeterReading) := by
  have hkept : meterReading.restrict trimmedMeters.layout = firstMeterReading := by
    cbv
  have hread := (decode_narrowed narrowedTo_trimmedMeters decode_meters_loose).2
  rw [hkept] at hread
  exact ⟨narrowedTo_trimmedMeters, decode_meters_loose, hread⟩

end Payload
end EventCourier
