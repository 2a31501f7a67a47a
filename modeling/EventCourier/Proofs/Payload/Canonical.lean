import EventCourier.Proofs.Payload.RoundTrip

/-!
# Canonical payloads

Whatever octets a reader accepts, it can write the record that it read, in a payload that is no
longer.  That payload has no unknown fields and no spelling of a number but the shortest, and it is
read as the same record.
-/

namespace EventCourier
namespace Payload

section Scalar

variable {limits : Limits} {kind : Kind} {octets : Bytes} {value : Value}

theorem ScalarForm.kind_eq (hform : ScalarForm limits kind octets value) : value.kind = kind := by
  cases hform <;> rfl

theorem ScalarForm.within (hform : ScalarForm limits kind octets value) : value.Within limits := by
  cases hform with
  | bool b => trivial
  | int _ => trivial
  | text hblock => exact hblock.length_le
  | bytes hblock => exact hblock.length_le
  | timestamp hmillis => exact ⟨_, Instant.exactMillis_eq_ok_iff_ofMillis?.mpr hmillis⟩

theorem ScalarForm.length_encode_le (hform : ScalarForm limits kind octets value) :
    value.piece.encode.length ≤ octets.length := by
  cases hform with
  | bool b => exact Nat.le_refl _
  | int hspells =>
      rw [Value.piece, Zigzag.encode_decode, Piece.encode]
      exact hspells.1.length_encode_le
  | text hblock => exact hblock.length_encode_le (Nat.le_refl _)
  | bytes hblock => exact hblock.length_encode_le (Nat.le_refl _)
  | timestamp _ => exact Nat.le_refl 8

end Scalar

section Fields

variable {limits : Limits} {current version : UInt32} {layout : Layout} {depth : Nat}
  {last : UInt32} {octets : Bytes} {entries : List (UInt32 × Value)}

theorem FieldsForm.holds
    (hform : FieldsForm limits version layout depth last octets entries)
    (hsound : layout.Sound current) (hversion : version ≠ 0) :
    ∀ entry ∈ entries, ∃ field, layout.field? entry.1 = some field ∧
      field.Covers entry.2 ∧ field.Takes limits depth entry.2 := by
  induction hform with
  | done => simp
  | unknown _ _ _ _ _ ih => exact ih hsound
  | scalar _ _ hfield hvalue _ ih =>
      rw [List.forall_mem_cons]
      refine ⟨⟨_, hfield, Field.covers_of_ne_record hvalue.ne_record, ?_⟩, ih hsound⟩
      rw [Field.takes_iff_of_ne_record hvalue.ne_record]
      exact ⟨hvalue.kind_eq, hvalue.within⟩
  | @record layout nested depth last id field inner number value content rest entries _ _ hfield
      hkind hnested _ hdepth _ hcarries _ ihInner ih =>
      have hnestedSound := hsound.within (Layout.mem_of_field? hfield) hnested
      have hrequired := (carries_iff_hasRequired hnestedSound hversion).mp hcarries
      obtain ⟨hcovered, hfits⟩ : inner.CoveredBy nested ∧ inner.Fits limits nested (depth + 1) :=
        Record.coveredBy_and_fits_iff.mpr ⟨hdepth, hrequired, ihInner hnestedSound⟩
      rw [List.forall_mem_cons]
      refine ⟨⟨_, hfield, ?_, ?_⟩, ih hsound⟩
      · rw [Field.covers_record_iff hnested]
        exact hcovered
      · rw [Field.takes_record_iff hkind hnested]
        exact hfits

theorem FieldsForm.length_written_le
    (hform : FieldsForm limits version layout depth last octets entries) :
    (Record.entriesWritten entries).length ≤ octets.length := by
  induction hform with
  | done => simp [Record.entriesWritten]
  | unknown _ _ _ _ _ ih =>
      simp only [List.length_append, List.length_cons]
      omega
  | scalar _ hnumber _ hvalue _ ih =>
      have hid := hnumber.length_encode_le
      have hpiece := hvalue.length_encode_le
      rw [Record.entriesWritten_cons]
      simp only [List.length_append, List.length_cons]
      omega
  | record _ hnumber _ _ _ hblock _ _ _ _ ihInner ih =>
      have hid := hnumber.length_encode_le
      rw [← Record.written_eq] at ihInner
      have hpiece := hblock.length_encode_le ihInner
      rw [Record.entriesWritten_cons, Value.piece]
      simp only [List.length_append, List.length_cons]
      omega

end Fields

theorem coveredBy_and_fits_of_form
    {limits : Limits} {current version : UInt32} {layout : Layout} {fields : Bytes}
    {record : Record} (hform : FieldsForm limits version layout 0 0 fields record.entries)
    (hcarries : record.Carries layout version) (hsound : layout.Sound current)
    (hversion : version ≠ 0) :
    record.CoveredBy layout ∧ record.Fits limits layout 0 :=
  Record.coveredBy_and_fits_iff.mpr
    ⟨Nat.zero_le _, (carries_iff_hasRequired hsound hversion).mp hcarries,
      hform.holds hsound hversion⟩

/-- The schema covers whatever record is read, and the record fits. -/
theorem coveredBy_and_fits_of_decode
    {schema : Schema} {limits : Limits} {payload : Bytes} {written : UInt32} {record : Record}
    (hread : decode schema payload limits = .ok (written, record)) :
    record.CoveredBy schema.layout ∧ record.Fits limits schema.layout 0 := by
  obtain ⟨_, _, _, _, hwritten, _, hform, hcarries⟩ := decode_eq_ok_iff.mp hread
  exact coveredBy_and_fits_of_form hform hcarries schema.layout_sound hwritten

theorem length_encode_version_le
    {number : Bytes} {written version : UInt32}
    (hnumber : Varint.Spells number written.toUInt64)
    (hversion : version ≤ written ∨ version ≤ 127) :
    (Varint.encode version.toNat).length ≤ number.length := by
  rcases hversion with hle | hsmall
  · have hmono := Varint.length_encode_mono (UInt32.le_iff_toNat_le.mp hle)
    exact Nat.le_trans hmono hnumber.length_encode_le
  · have hlt : version.toNat < 128 := Nat.lt_succ_of_le (UInt32.le_iff_toNat_le.mp hsmall)
    rw [Varint.length_encode_of_lt hlt]
    exact hnumber.1.length_pos

/-- Whatever is accepted has a canonical payload, no longer, from which the same record is read. -/
theorem exists_canonical_of_decode
    {schema : Schema} {limits : Limits} {payload : Bytes} {written : UInt32} {record : Record}
    (hread : decode schema payload limits = .ok (written, record))
    (hversion : schema.version ≤ written ∨ schema.version ≤ 127) :
    ∃ canonical, encode schema record limits = .ok canonical ∧
      canonical.length ≤ payload.length ∧
      decode schema canonical limits = .ok (schema.version, record) := by
  obtain ⟨hfits, number, fields, rfl, hwritten, hnumber, hform, hcarries⟩ :=
    decode_eq_ok_iff.mp hread
  have hfields : record.written.length ≤ fields.length := by
    rw [Record.written_eq]
    exact hform.length_written_le
  have hfront := length_encode_version_le hnumber hversion
  have hshorter : (Varint.encode schema.version.toNat ++ record.written).length ≤
      (number ++ fields).length := by
    rw [List.length_append, List.length_append]
    omega
  have hencode := encode_eq_ok_iff.mpr
    ⟨coveredBy_and_fits_of_form hform hcarries schema.layout_sound hwritten, rfl,
      Nat.le_trans hshorter hfits⟩
  exact ⟨_, hencode, hshorter, decode_of_encode hencode⟩

def countReading : Record :=
  Record.empty.insert 2 (.int (-3))

/-- A payload of a later version with a field that is not known and its numbers spelled at
length. -/
theorem exists_canonical_of_overlong :
    decode firstMeters [131, 0, 130, 0, 1, 133, 128, 0, 5, 3, 129, 0, 9] meterLimits =
        .ok (3, countReading) ∧
      (firstMeters.version ≤ 3 ∨ firstMeters.version ≤ 127) ∧
      ∃ canonical, encode firstMeters countReading meterLimits = .ok canonical ∧
        canonical.length ≤ 13 ∧
        decode firstMeters canonical meterLimits = .ok (1, countReading) := by
  have hread : decode firstMeters [131, 0, 130, 0, 1, 133, 128, 0, 5, 3, 129, 0, 9] meterLimits =
      .ok (3, countReading) := by
    cbv
  exact ⟨hread, by decide, exists_canonical_of_decode hread (by decide)⟩

end Payload
end EventCourier
