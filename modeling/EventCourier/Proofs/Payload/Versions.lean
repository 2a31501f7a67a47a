import EventCourier.Proofs.Payload.Evolution

/-!
# The version in front

A reader consults the version of a payload in every record, to learn which fields it has to find
there.  In the layout of a schema every required field has been there since the first version, at
every level.  So whatever version stands in front of the same fields, they are read as the same
record or refused, and producers of every version have to write the same fields.
-/

namespace EventCourier

theorem Layout.Sound.hasRequiredAt_eq
    {current version : UInt32} {layout : Layout} (hsound : layout.Sound current)
    (hversion : version ≠ 0) :
    layout.hasRequiredAt version = layout.fields.any (·.required) := by
  rw [Bool.eq_iff_iff, hasRequiredAt, List.any_eq_true, List.any_eq_true]
  refine exists_congr fun field => and_congr_right fun hmem => ?_
  rw [Bool.and_eq_true, decide_eq_true_iff, and_iff_left_iff_imp]
  exact fun hrequired => hsound.since_le_of_required hmem hrequired hversion

theorem Record.carries_congr_version
    {current version other : UInt32} {layout : Layout} {record : Record}
    (hsound : layout.Sound current) (hversion : version ≠ 0) (hother : other ≠ 0) :
    record.Carries layout version ↔ record.Carries layout other := by
  rw [Payload.carries_iff_hasRequired hsound hversion,
    Payload.carries_iff_hasRequired hsound hother]

namespace Payload

section Versions

variable {limits : Limits} {current version other : UInt32} {depth : Nat} {last : UInt32}
  {octets fields : Bytes} {entries : List (UInt32 × Value)}

theorem FieldsForm.of_version
    {layout : Layout} (hform : FieldsForm limits version layout depth last octets entries)
    (hsound : layout.Sound current) (hversion : version ≠ 0) (hother : other ≠ 0) :
    FieldsForm limits other layout depth last octets entries := by
  induction hform with
  | done => exact .done
  | unknown hlast hnumber hfield hvalue _ ih =>
      exact .unknown hlast hnumber hfield hvalue (ih hsound)
  | scalar hlast hnumber hfield hvalue _ ih =>
      exact .scalar hlast hnumber hfield hvalue (ih hsound)
  -- The version is consulted here alone, for what the record in the field has to carry.
  | record hlast hnumber hfield hkind hnested hblock hdepth _ hcarries _ ihInner ih =>
      have hinside := hsound.within (Layout.mem_of_field? hfield) hnested
      exact .record hlast hnumber hfield hkind hnested hblock hdepth (ihInner hinside)
        ((Record.carries_congr_version hinside hversion hother).mp hcarries) (ih hsound)

theorem fieldsForm_congr_version
    {layout : Layout} (hsound : layout.Sound current) (hversion : version ≠ 0)
    (hother : other ≠ 0) :
    FieldsForm limits version layout depth last octets entries ↔
      FieldsForm limits other layout depth last octets entries :=
  ⟨fun hform => hform.of_version hsound hversion hother,
    fun hform => hform.of_version hsound hother hversion⟩

/-- What is read behind a written version are the fields, and nothing of them is taken for the
version. -/
theorem decode_version_append_eq_ok_iff
    {schema : Schema} {written : UInt32} {record : Record} (hversion : version ≠ 0) :
    decode schema (Varint.encode version.toNat ++ fields) limits = .ok (written, record) ↔
      (Varint.encode version.toNat ++ fields).length ≤ limits.maxPayloadBytes.toNat ∧
        written = version ∧ FieldsForm limits version schema.layout 0 0 fields record.entries ∧
        record.Carries schema.layout version := by
  have hspells := Varint.spells_encode_toUInt64 version
  rw [decode_eq_ok_iff]
  refine and_congr_right fun _ => ?_
  constructor
  · rintro ⟨number, rest, heq, _, hnumber, hform, hcarries⟩
    obtain ⟨_, hsame, rfl⟩ := hspells.append_inj hnumber heq
    obtain rfl := UInt32.toUInt64_inj.mp hsame
    exact ⟨rfl, hform, hcarries⟩
  · rintro ⟨rfl, hform, hcarries⟩
    exact ⟨_, fields, rfl, hversion, hspells, hform, hcarries⟩

/-- The version in front of the same fields makes no difference to what they are read as, as long
as the payload is not too long with it.  Nor does it to whether a schema requires any field. -/
theorem decode_version_irrelevant
    {schema : Schema} (hversion : version ≠ 0) (hother : other ≠ 0) :
    (∀ fields limits,
      (Varint.encode version.toNat ++ fields).length ≤ limits.maxPayloadBytes.toNat →
      (Varint.encode other.toNat ++ fields).length ≤ limits.maxPayloadBytes.toNat →
      ∀ record,
        decode schema (Varint.encode version.toNat ++ fields) limits = .ok (version, record) ↔
          decode schema (Varint.encode other.toNat ++ fields) limits = .ok (other, record)) ∧
      schema.layout.hasRequiredAt version = schema.layout.hasRequiredAt other := by
  have hsound := schema.layout_sound
  constructor
  · intro fields limits hlength hlength' record
    rw [decode_version_append_eq_ok_iff hversion, decode_version_append_eq_ok_iff hother,
      fieldsForm_congr_version hsound hversion hother,
      Record.carries_congr_version hsound hversion hother]
    simp only [hlength, hlength', true_and]
  · rw [hsound.hasRequiredAt_eq hversion, hsound.hasRequiredAt_eq hother]

end Versions

/-- The fields of a meter with an unknown one among those of its cell. -/
def meterFields : Bytes :=
  [2, 1, 5, 3, 3, 2, 9, 0, 7, 5, 16, 1, 0, 1, 2, 1, 8, 4, 4, 0, 0, 0, 0, 0, 0, 234, 96]

/-- The last version that there can be takes five octets, and the first takes one. -/
theorem decode_meterFields_of_versions :
    (4294967295 : UInt32) ≠ 0 ∧ (1 : UInt32) ≠ 0 ∧
      decode meters (1 :: meterFields) ⟨2, 32, 1⟩ = .ok (1, meterReading) ∧
      decode meters ([255, 255, 255, 255, 15] ++ meterFields) ⟨2, 32, 1⟩ =
        .ok (4294967295, meterReading) ∧
      meters.layout.hasRequiredAt 1 = meters.layout.hasRequiredAt 4294967295 := by
  have hfirst : (1 : UInt32) ≠ 0 := by decide
  have hlast : (4294967295 : UInt32) ≠ 0 := by decide
  have hfront : Varint.encode (1 : UInt32).toNat = [1] := by cbv
  have hlong : Varint.encode (4294967295 : UInt32).toNat = [255, 255, 255, 255, 15] := by cbv
  have hread : decode meters (1 :: meterFields) ⟨2, 32, 1⟩ = .ok (1, meterReading) := by cbv
  obtain ⟨hagree, hrequires⟩ := @decode_version_irrelevant 1 4294967295 meters hfirst hlast
  have hiff := hagree meterFields ⟨2, 32, 1⟩
  rw [hfront, hlong] at hiff
  exact ⟨hlast, hfirst, hread, (hiff (by decide) (by decide) meterReading).mp hread, hrequires⟩

end Payload
end EventCourier
