import EventCourier.Codec
import EventCourier.Proofs.Envelope.Written
import EventCourier.Proofs.Payload.Canonical
import EventCourier.Proofs.Record.Admission
import EventCourier.Proofs.Registry

/-!
# What a codec writes and reads

Each operation of a codec succeeds exactly when the event type is registered and its parts succeed.
Whatever record a codec reads from a payload, from an empty one too, its schema covers the record
and the record fits.  So the codec could have written it, but for the size of the whole.
-/

namespace EventCourier
namespace Codec

section Codec

variable {σ : Type} {codec : Codec σ}

theorem encodePayload_eq_ok_iff {snapshot : σ} {payload : Bytes} :
    codec.encodePayload snapshot = .ok payload ↔
      ∃ schema, codec.registry.find? (codec.family.eventType snapshot) = some schema ∧
        Payload.encode schema (codec.family.toRecord snapshot) codec.limits = .ok payload := by
  simp only [encodePayload, bind_eq_ok_iff, Registry.lookup_eq_ok_iff]

theorem decodePayload_eq_ok_iff {eventType : String} {payload : Bytes} {snapshot : σ} :
    codec.decodePayload eventType payload = .ok snapshot ↔
      ∃ schema, codec.registry.find? eventType = some schema ∧
        ∃ record, codec.decodeRecord schema eventType payload = .ok record ∧
          codec.family.fromRecord eventType record = .ok snapshot := by
  simp only [decodePayload, bind_eq_ok_iff, Registry.lookup_eq_ok_iff]

theorem decodeRecord_of_ne_nil
    {schema : Schema} {eventType : String} {payload : Bytes} (hpayload : payload ≠ []) :
    codec.decodeRecord schema eventType payload =
      (Payload.decode schema payload codec.limits).map (·.2) := by
  simp [decodeRecord, hpayload]

theorem encodeEnvelope_eq_ok_iff {envelope : Envelope} {bytes : Bytes} :
    codec.encodeEnvelope envelope = .ok bytes ↔
      (∃ schema, codec.registry.find? envelope.eventType = some schema ∧
        ¬ (envelope.payload = [] ∧ schema.layout.hasRequiredAt schema.version = true)) ∧
        envelope.Fits codec.limits ∧ bytes = envelope.written := by
  simp only [encodeEnvelope, bind_eq_ok_iff, guard_eq_ok_iff, Registry.lookup_eq_ok_iff,
    Envelope.encode_eq_ok_iff, Bool.and_eq_true, List.isEmpty_iff, ← exists_and_right, and_assoc]

/-! ## Records read by a codec -/

theorem fits_empty
    {schema : Schema} {limits : Limits}
    (hrequired : schema.layout.hasRequiredAt schema.version = false) :
    Record.empty.CoveredBy schema.layout ∧ Record.empty.Fits limits schema.layout 0 := by
  have hcarries : Record.empty.Carries schema.layout schema.version := by
    intro field hmem hfield hsince
    have hnone := List.any_eq_false.mp hrequired field hmem
    simp [hfield, hsince] at hnone
  have hentries : ∀ entry ∈ Record.empty.entries, ∃ field,
      schema.layout.field? entry.1 = some field ∧ field.Covers entry.2 ∧
        field.Takes limits 0 entry.2 := nofun
  rw [Record.coveredBy_and_fits_iff]
  exact ⟨Nat.zero_le _,
    (Payload.carries_iff_hasRequired schema.layout_sound schema.version_ne_zero).mp hcarries,
    hentries⟩

/-- Whatever record is read, from an empty payload too, its schema covers it and it fits. -/
theorem fits_of_decodeRecord
    {schema : Schema} {eventType : String} {payload : Bytes} {record : Record}
    (hread : codec.decodeRecord schema eventType payload = .ok record) :
    record.CoveredBy schema.layout ∧ record.Fits codec.limits schema.layout 0 := by
  by_cases hpayload : payload = []
  · by_cases hrequired : schema.layout.hasRequiredAt schema.version = true
    · simp [decodeRecord, hpayload, hrequired] at hread
    · simp only [decodeRecord, hpayload, hrequired, List.isEmpty_nil, if_true] at hread
      cases hread
      exact fits_empty (Bool.not_eq_true _ ▸ hrequired)
  · rw [decodeRecord_of_ne_nil hpayload] at hread
    cases hdecode : Payload.decode schema payload codec.limits with
    | error cause => simp [hdecode, Except.map] at hread
    | ok read =>
        rcases read with ⟨written, found⟩
        obtain rfl : found = record := by simpa [hdecode, Except.map] using hread
        exact Payload.coveredBy_and_fits_of_decode hdecode

theorem admitted_of_decodeRecord
    {schema : Schema} {eventType : String} {payload : Bytes} {record : Record}
    (hread : codec.decodeRecord schema eventType payload = .ok record) :
    record.Admitted codec.limits 0 := by
  obtain ⟨hcovered, hfits⟩ := fits_of_decodeRecord hread
  exact ⟨schema.version, schema.layout, schema.layout_sound, hcovered, hfits⟩

/-- What was encoded is what is decoded, as long as the family rebuilds it from its record. -/
theorem decodePayload_of_encodePayload
    {snapshot : σ} {payload : Bytes}
    (hrebuilds : codec.family.fromRecord (codec.family.eventType snapshot)
      (codec.family.toRecord snapshot) = .ok snapshot)
    (hwritten : codec.encodePayload snapshot = .ok payload) :
    codec.decodePayload (codec.family.eventType snapshot) payload = .ok snapshot := by
  obtain ⟨schema, hschema, hencode⟩ := encodePayload_eq_ok_iff.mp hwritten
  have hdecode := Payload.decode_of_encode hencode
  have hpayload : payload ≠ [] := Payload.ne_nil_of_encode hencode
  rw [decodePayload_eq_ok_iff]
  refine ⟨schema, hschema, _, ?_, hrebuilds⟩
  rw [decodeRecord_of_ne_nil hpayload, hdecode]
  rfl

end Codec

end Codec
end EventCourier
