import EventCourier.Proofs.Payload.Evolution

/-!
# Round trips

Under one schema, reading a written payload gives the record back.  The limits of the writer and of
the reader may differ: the reader accepts exactly the payloads that it would have written itself.
-/

namespace EventCourier
namespace Payload

theorem decode_of_encode
    {schema : Schema} {limits : Limits} {record : Record} {payload : Bytes}
    (hwritten : encode schema record limits = .ok payload) :
    decode schema payload limits = .ok (schema.version, record) := by
  obtain ⟨⟨hcovered, hfits⟩, rfl, hlength⟩ := encode_eq_ok_iff.mp hwritten
  have hfaithful := hfits.faithful schema.layout_sound hcovered
  exact (decode_written_eq_ok_iff schema.version_ne_zero hfaithful).mpr
    ⟨hlength, hfits, rfl, hcovered.restrict_eq.symm⟩

theorem encode_eq_of_encode
    {schema : Schema} {limits limits' : Limits} {record : Record} {payload again : Bytes}
    (hwritten : encode schema record limits = .ok payload)
    (hagain : encode schema record limits' = .ok again) : again = payload := by
  obtain ⟨_, rfl, _⟩ := encode_eq_ok_iff.mp hwritten
  exact (encode_eq_ok_iff.mp hagain).2.1

theorem ne_nil_of_encode
    {schema : Schema} {limits : Limits} {record : Record} {payload : Bytes}
    (hwritten : encode schema record limits = .ok payload) :
    payload ≠ [] := by
  obtain ⟨_, rfl, _⟩ := encode_eq_ok_iff.mp hwritten
  have hfront := Varint.length_encode_pos schema.version.toNat
  exact List.append_ne_nil_of_left_ne_nil (List.ne_nil_of_length_pos hfront) _

theorem encode_of_decode_encode
    {schema : Schema} {limits limits' : Limits} {record : Record} {payload : Bytes}
    {read : UInt32 × Record}
    (hwritten : encode schema record limits = .ok payload)
    (hread : decode schema payload limits' = .ok read) :
    encode schema record limits' = .ok payload := by
  obtain ⟨⟨hcovered, hfits⟩, rfl, _⟩ := encode_eq_ok_iff.mp hwritten
  have hfaithful := hfits.faithful schema.layout_sound hcovered
  rcases read with ⟨version, result⟩
  obtain ⟨hlength, hfits', _⟩ :=
    (decode_written_eq_ok_iff schema.version_ne_zero hfaithful).mp hread
  exact encode_eq_ok_iff.mpr ⟨⟨hcovered, hfits'⟩, rfl, hlength⟩

/-- Under one schema different records have different payloads, whatever limits they kept. -/
theorem record_eq_of_encode
    {schema : Schema} {limits limits' : Limits} {record record' : Record} {payload : Bytes}
    (hwritten : encode schema record limits = .ok payload)
    (hwritten' : encode schema record' limits' = .ok payload) : record = record' := by
  -- The reader with the first limits accepts the payload, so it could have written both records.
  have hread := decode_of_encode hwritten
  have hread' := decode_of_encode (encode_of_decode_encode hwritten' hread)
  rw [hread] at hread'
  exact (Prod.mk.inj (Except.ok.inj hread')).2

/-- Under one schema a reader gives back the record that was written if it could have written it
within its own limits, and otherwise refuses the payload as undecodable. -/
theorem decode_encode_within_limits
    {schema : Schema} {limits limits' : Limits} {record : Record} {payload : Bytes}
    (hwritten : encode schema record limits = .ok payload) :
    (∀ again, encode schema record limits' = .ok again →
      decode schema payload limits' = .ok (schema.version, record)) ∧
      ∀ refusal, encode schema record limits' = .error refusal →
        ∃ cause, decode schema payload limits' = .error (.decoding cause) := by
  constructor
  · intro again hagain
    obtain rfl := encode_eq_of_encode hwritten hagain
    exact decode_of_encode hagain
  · intro refusal hrefused
    cases hread : decode schema payload limits' with
    | ok read =>
        rw [encode_of_decode_encode hwritten hread] at hrefused
        cases hrefused
    | error error =>
        obtain ⟨cause, rfl⟩ := exists_decoding_of_decode_error hread
        exact ⟨cause, rfl⟩

theorem decode_meterPayload_flat :
    encode meters meterReading meterLimits = .ok meterPayload ∧
      encode meters meterReading ⟨2, 25, 0⟩ =
        .error (.encoding (.tooDeep "Meter.cell" 0)) ∧
      ∃ cause, decode meters meterPayload ⟨2, 25, 0⟩ = .error (.decoding cause) := by
  have hrefused : encode meters meterReading ⟨2, 25, 0⟩ =
      .error (.encoding (.tooDeep "Meter.cell" 0)) := by
    cbv
  exact ⟨encode_meterReading, hrefused,
    (decode_encode_within_limits encode_meterReading).2 _ hrefused⟩

end Payload
end EventCourier
