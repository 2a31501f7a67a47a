import EventCourier.Proofs.Envelope.RoundTrip
import EventCourier.Proofs.Limits
import EventCourier.Proofs.Payload.RoundTrip

/-!
# Raising limits

A limit is used for nothing but refusals.  Payloads and envelopes that are written or read under
some limits are written and read just so under wider ones, at every depth of a record and also
where a reader steps over what it does not know.
-/

namespace EventCourier

section Raising

variable {limits limits' : Limits}

/-! ## Writing -/

theorem Value.Within.mono
    {value : Value} (hwithin : value.Within limits) (hle : limits ≤ limits') :
    value.Within limits' := by
  have hfield := UInt64.le_iff_toNat_le.mp hle.field_le
  cases value with
  | text s => exact Nat.le_trans hwithin hfield
  | bytes content => exact Nat.le_trans hwithin hfield
  | timestamp t => exact hwithin
  | bool _ => trivial
  | int _ => trivial
  | record _ => trivial

theorem Record.Fits.mono
    {layout : Layout} {depth : Nat} {record : Record} (hfits : record.Fits limits layout depth)
    (hle : limits ≤ limits') : record.Fits limits' layout depth := by
  have hlimit := UInt64.le_iff_toNat_le.mp hle.depth_le
  induction hfits with
  | intro hdepth hrequired hkinds hvalues _ ih =>
      apply Record.Fits.intro (Nat.le_trans hdepth hlimit) hrequired hkinds
      · intro entry hmem field hfield
        exact (hvalues entry hmem field hfield).mono hle
      · exact ih

theorem Payload.encode_mono
    {schema : Schema} {record : Record} {payload : Bytes}
    (hle : limits ≤ limits') (hwritten : encode schema record limits = .ok payload) :
    encode schema record limits' = .ok payload := by
  have hlimit := UInt64.le_iff_toNat_le.mp hle.payload_le
  rcases encode_eq_ok_iff.mp hwritten with ⟨⟨hcovered, hfits⟩, hpayload, hlength⟩
  apply encode_eq_ok_iff.mpr
  exact ⟨⟨hcovered, hfits.mono hle⟩, hpayload, Nat.le_trans hlength hlimit⟩

theorem Envelope.encode_mono
    {envelope : Envelope} {octets : Bytes} (hle : limits ≤ limits')
    (hwritten : envelope.encode limits = .ok octets) : envelope.encode limits' = .ok octets := by
  have hfield := UInt64.le_iff_toNat_le.mp hle.field_le
  have hpayload := UInt64.le_iff_toNat_le.mp hle.payload_le
  rcases encode_eq_ok_iff.mp hwritten with ⟨hfits, hoctets⟩
  have hfits' : envelope.Fits limits' := by
    constructor
    · intro entry hmem
      exact ⟨(hfits.texts entry hmem).1, Nat.le_trans (hfits.texts entry hmem).2 hfield⟩
    · exact Nat.le_trans hfits.payload_le hpayload
    · exact hfits.exact
  exact encode_eq_ok_iff.mpr ⟨hfits', hoctets⟩

/-! ## Reading -/

theorem BlockForm.mono
    {limit limit' : UInt64} {octets content : Bytes} (hblock : BlockForm limit octets content)
    (hle : limit ≤ limit') : BlockForm limit' octets content := by
  apply hblock.within
  exact Nat.le_trans hblock.length_le (UInt64.le_iff_toNat_le.mp hle)

namespace Payload

theorem SkippedForm.mono
    {kind : Kind} {octets : Bytes} (hform : SkippedForm limits kind octets)
    (hle : limits ≤ limits') : SkippedForm limits' kind octets := by
  cases hform with
  | bool octet => exact .bool octet
  | int hspells => exact .int hspells
  | timestamp hlength => exact .timestamp hlength
  | block hkind hblock => exact .block hkind (hblock.mono hle.payload_le)

theorem ScalarForm.mono
    {kind : Kind} {octets : Bytes} {value : Value} (hform : ScalarForm limits kind octets value)
    (hle : limits ≤ limits') : ScalarForm limits' kind octets value := by
  cases hform with
  | bool b => exact .bool b
  | int hspells => exact .int hspells
  | text hblock => exact .text (hblock.mono hle.field_le)
  | bytes hblock => exact .bytes (hblock.mono hle.field_le)
  | timestamp hmillis => exact .timestamp hmillis

theorem FieldsForm.mono
    {version : UInt32} {layout : Layout} {depth : Nat} {last : UInt32} {octets : Bytes}
    {entries : List (UInt32 × Value)}
    (hform : FieldsForm limits version layout depth last octets entries)
    (hle : limits ≤ limits') : FieldsForm limits' version layout depth last octets entries := by
  have hlimit := UInt64.le_iff_toNat_le.mp hle.depth_le
  induction hform with
  | done => exact .done
  | unknown hlast hnumber hfield hvalue _ ih =>
      exact .unknown hlast hnumber hfield (hvalue.mono hle) ih
  | scalar hlast hnumber hfield hvalue _ ih =>
      exact .scalar hlast hnumber hfield (hvalue.mono hle) ih
  | record hlast hnumber hfield hkind hnested hblock hdepth _ hcarries _ ihInner ihRest =>
      exact .record hlast hnumber hfield hkind hnested (hblock.mono hle.payload_le)
        (Nat.le_trans hdepth hlimit) ihInner hcarries ihRest

theorem decode_mono
    {schema : Schema} {payload : Bytes} {read : UInt32 × Record} (hle : limits ≤ limits')
    (hread : decode schema payload limits = .ok read) :
    decode schema payload limits' = .ok read := by
  have hlimit := UInt64.le_iff_toNat_le.mp hle.payload_le
  rcases decode_eq_ok_iff.mp hread with
    ⟨hlength, number, fields, hpayload, hversion, hnumber, hform, hcarries⟩
  apply decode_eq_ok_iff.mpr
  exact ⟨Nat.le_trans hlength hlimit, number, fields, hpayload, hversion, hnumber, hform.mono hle,
    hcarries⟩

end Payload

namespace Envelope

theorem TextForm.mono
    {octets : Bytes} {s : String} (hform : TextForm limits octets s) (hle : limits ≤ limits') :
    TextForm limits' octets s :=
  ⟨hform.1.mono hle.field_le, hform.2⟩

theorem Form.mono
    {octets : Bytes} {envelope : Envelope} (hform : Form limits octets envelope)
    (hle : limits ≤ limits') : Form limits' octets envelope := by
  cases hform with
  | intro heventId hmillis hsource haggregateType haggregateId heventType hpayload =>
      exact .intro (heventId.mono hle) hmillis (hsource.mono hle) (haggregateType.mono hle)
        (haggregateId.mono hle) (heventType.mono hle) (hpayload.mono hle.payload_le)

theorem decode_mono
    {octets : Bytes} {envelope : Envelope} (hle : limits ≤ limits')
    (hread : decode octets limits = .ok envelope) : decode octets limits' = .ok envelope := by
  rcases decode_eq_ok_iff.mp hread with ⟨front, rest, hoctets, hform⟩
  exact decode_eq_ok_iff.mpr ⟨front, rest, hoctets, hform.mono hle⟩

end Envelope

end Raising

/-- Raising a limit breaks nothing and changes nothing: neither in writing and reading payloads nor
in writing and reading envelopes. -/
theorem Limits.onlyRefuse_codecs :
    (∀ (schema : Schema) (record : Record), OnlyRefuse (Payload.encode schema record)) ∧
      (∀ (schema : Schema) (octets : Bytes), OnlyRefuse (Payload.decode schema octets)) ∧
      (∀ envelope : Envelope, OnlyRefuse envelope.encode) ∧
      ∀ octets : Bytes, OnlyRefuse (Envelope.decode octets) := by
  refine ⟨?_, ?_, ?_, ?_⟩
  · intro schema record
    apply OnlyRefuse.of_widens
    intro limits limits' hle payload hwritten
    exact Payload.encode_mono hle hwritten
  · intro schema octets
    apply OnlyRefuse.of_widens
    intro limits limits' hle read hread
    exact Payload.decode_mono hle hread
  · intro envelope
    apply OnlyRefuse.of_widens
    intro limits limits' hle written hwritten
    exact Envelope.encode_mono hle hwritten
  · intro octets
    apply OnlyRefuse.of_widens
    intro limits limits' hle found hread
    exact Envelope.decode_mono hle hread

/-- What just fits narrow limits is written and read so under the usual ones. -/
theorem Limits.meter_and_parcel_under_default :
    Payload.meterLimits ≤ {} ∧
      Payload.encode Payload.meters Payload.meterReading {} = .ok Payload.meterPayload ∧
      Payload.decode Payload.meters Payload.meterPayload {} = .ok (2, Payload.meterReading) ∧
      Envelope.parcel.encode {} = .ok Envelope.parcelOctets ∧
      Envelope.decode Envelope.longParcelOctets {} = .ok Envelope.parcel := by
  have hmeter : Payload.meterLimits ≤ {} := by
    constructor <;> decide
  have hparcel : (⟨10, 3, 0⟩ : Limits) ≤ {} := by
    constructor <;> decide
  have hread : Payload.decode Payload.meters Payload.meterPayload Payload.meterLimits =
      .ok (2, Payload.meterReading) :=
    Payload.decode_of_encode Payload.encode_meterReading
  rcases Limits.onlyRefuse_codecs with ⟨hwrites, hreads, hseals, hopens⟩
  refine ⟨hmeter, ?_, ?_, ?_, ?_⟩
  · exact (hwrites _ _).widens _ _ hmeter _ Payload.encode_meterReading
  · exact (hreads _ _).widens _ _ hmeter _ hread
  · exact (hseals _).widens _ _ hparcel _ Envelope.encode_parcel
  · exact (hopens _).widens _ _ hparcel _ Envelope.decode_longParcelOctets

end EventCourier
