import EventCourier.Proofs.Payload.Evolution
import EventCourier.Proofs.Record.Length

/-!
# The records that are written

A record conforms to a layout and limits when its fields are the layout's, at every level: no
others, all that are required, each of its kind, texts and byte strings no longer than the limits
allow, instants whole milliseconds, and no record too deep.  What is written are the conforming
records whose payload is no longer than the limits allow, and the length of the payload is the
counted one.
-/

namespace EventCourier

inductive Record.Conforms (limits : Limits) : Layout → Nat → Record → Prop
  | intro {layout : Layout} {depth : Nat} {record : Record}
      (depth_le : depth ≤ limits.maxDepth.toNat)
      (known : ∀ entry ∈ record.entries, ∃ field ∈ layout.fields, field.id = entry.1)
      (required : ∀ field ∈ layout.fields, field.required = true →
        ∃ value, (field.id, value) ∈ record.entries)
      (kinds : ∀ entry ∈ record.entries, ∀ field ∈ layout.fields, field.id = entry.1 →
        entry.2.kind = field.kind)
      (texts : ∀ id s, (id, Value.text s) ∈ record.entries →
        (Text.toUtf8 s).length ≤ limits.maxFieldBytes.toNat)
      (contents : ∀ id content, (id, Value.bytes content) ∈ record.entries →
        content.length ≤ limits.maxFieldBytes.toNat)
      (instants : ∀ id t, (id, Value.timestamp t) ∈ record.entries → t.WholeMilli)
      (nests : ∀ id inner, (id, Value.record inner) ∈ record.entries →
        ∀ field ∈ layout.fields, field.id = id → ∀ nested, field.layout = some nested →
          Conforms limits nested (depth + 1) inner) :
      Conforms limits layout depth record

namespace Record

variable {limits : Limits} {version : UInt32} {layout : Layout} {depth : Nat} {record : Record}

theorem Conforms.coveredBy_and_fits
    (hconforms : record.Conforms limits layout depth) (hsound : layout.Sound version) :
    record.CoveredBy layout ∧ record.Fits limits layout depth := by
  induction hconforms with
  | @intro layout depth record hdepth hknown hrequired hkinds htexts hcontents hinstants _ ih =>
      apply coveredBy_and_fits_iff.mpr
      refine ⟨hdepth, hrequired, ?_⟩
      intro entry hmem
      rcases entry with ⟨id, value⟩
      rcases hknown (id, value) hmem with ⟨field, hfield, hid⟩
      have hinner : ∀ inner nested, value = .record inner → field.layout = some nested →
          inner.CoveredBy nested ∧ inner.Fits limits nested (depth + 1) := by
        intro inner nested hvalue hnested
        subst hvalue
        exact ih id inner hmem field hfield hid nested hnested (hsound.within hfield hnested)
      have hwithin : value.Within limits := by
        cases value with
        | text s => exact htexts id s hmem
        | bytes content => exact hcontents id content hmem
        | timestamp t => exact Instant.exists_exactMillis_iff.mpr (hinstants id t hmem)
        | bool _ => trivial
        | int _ => trivial
        | record _ => trivial
      have hfound : layout.field? id = some field :=
        hsound.field?_eq_some_iff.mpr ⟨hfield, hid⟩
      have hcovers : field.Covers value := fun inner nested hvalue hnested =>
        (hinner inner nested hvalue hnested).1
      have htakes : field.Takes limits depth value := by
        constructor
        · exact hkinds (id, value) hmem field hfield hid
        · exact hwithin
        · intro inner nested hvalue hnested
          exact (hinner inner nested hvalue hnested).2
      exact ⟨field, hfound, hcovers, htakes⟩

theorem Fits.conforms
    (hfits : record.Fits limits layout depth) (hsound : layout.Sound version)
    (hcovered : record.CoveredBy layout) : record.Conforms limits layout depth := by
  induction hfits with
  | @intro layout depth record hdepth hrequired hkinds hvalues _ ih =>
      have hfound : ∀ field ∈ layout.fields, layout.field? field.id = some field :=
        fun field hfield => hsound.field?_eq_some_iff.mpr ⟨hfield, rfl⟩
      have hknown : ∀ entry ∈ record.entries, ∃ field ∈ layout.fields, field.id = entry.1 := by
        intro entry hmem
        rcases coveredBy_iff.mp hcovered entry hmem with ⟨field, hfield, _⟩
        exact ⟨field, hsound.field?_eq_some_iff.mp hfield⟩
      have hwithin : ∀ entry ∈ record.entries, entry.2.Within limits := by
        intro entry hmem
        rcases hknown entry hmem with ⟨field, hfield, hid⟩
        exact hvalues entry hmem field (hid ▸ hfound field hfield)
      apply Conforms.intro hdepth hknown hrequired
      case kinds =>
        intro entry hmem field hfield hid
        exact hkinds entry hmem field (hid ▸ hfound field hfield)
      case texts =>
        intro id s hmem
        exact hwithin (id, .text s) hmem
      case contents =>
        intro id content hmem
        exact hwithin (id, .bytes content) hmem
      case instants =>
        intro id t hmem
        exact Instant.exists_exactMillis_iff.mp (hwithin (id, .timestamp t) hmem)
      case nests =>
        intro id inner hmem field hfield hid nested hnested
        have hsome : layout.field? id = some field := hid ▸ hfound field hfield
        exact ih id inner hmem field nested hsome hnested (hsound.within hfield hnested)
          (hcovered.within hmem hsome hnested)

theorem conforms_iff (hsound : layout.Sound version) :
    record.Conforms limits layout depth ↔
      record.CoveredBy layout ∧ record.Fits limits layout depth := by
  constructor
  · intro hconforms
    exact hconforms.coveredBy_and_fits hsound
  · intro h
    exact h.2.conforms hsound h.1

end Record

namespace Payload

/-- How many octets the payload of a record takes. -/
def encodedLen (schema : Schema) (record : Record) : Nat :=
  Varint.encodedLen schema.version.toNat + record.encodedLen

section Encode

variable {schema : Schema} {record : Record} {limits : Limits}

theorem length_written (schema : Schema) (record : Record) :
    (Varint.encode schema.version.toNat ++ record.written).length = encodedLen schema record := by
  rw [List.length_append, Varint.length_encode, Record.length_written, encodedLen]

theorem exists_encode_eq_ok_iff :
    (∃ payload, encode schema record limits = .ok payload) ↔
      (record.CoveredBy schema.layout ∧ record.Fits limits schema.layout 0) ∧
        encodedLen schema record ≤ limits.maxPayloadBytes.toNat := by
  rw [← length_written]
  constructor
  · intro h
    rcases h with ⟨payload, hwritten⟩
    rcases encode_eq_ok_iff.mp hwritten with ⟨hfits, rfl, hlength⟩
    exact ⟨hfits, hlength⟩
  · intro h
    exact ⟨_, encode_eq_ok_iff.mpr ⟨h.1, rfl, h.2⟩⟩

theorem length_of_encode
    {payload : Bytes} (hwritten : encode schema record limits = .ok payload) :
    payload.length = encodedLen schema record := by
  rcases encode_eq_ok_iff.mp hwritten with ⟨_, rfl, _⟩
  exact length_written schema record

/-- What is not written has a cause in its fields or is too long as a whole. -/
theorem exists_cause_of_encode_error
    {error : CodecError} (hrefused : encode schema record limits = .error error) :
    ∃ cause, error = .encoding cause ∧
      (encodeRecord limits schema.eventType 0 record schema.layout = .error cause ∨
        ∃ size, cause = .payloadTooLong schema.eventType size limits.maxPayloadBytes) := by
  unfold encode at hrefused
  split at hrefused
  next cause hfields =>
    cases hrefused
    exact ⟨cause, rfl, .inl hfields⟩
  next fields _ =>
    dsimp only at hrefused
    split at hrefused
    · cases hrefused
      exact ⟨_, rfl, .inr ⟨_, rfl⟩⟩
    · cases hrefused

/-- The records that are written are those that conform to the schema and are not too long, and
they are written in as many octets as were counted.  All others are refused as not encodable. -/
theorem encode_accepts_conforming :
    ((∃ payload, encode schema record limits = .ok payload) ↔
        record.Conforms limits schema.layout 0 ∧
          encodedLen schema record ≤ limits.maxPayloadBytes.toNat) ∧
      (∀ payload, encode schema record limits = .ok payload →
        payload.length = encodedLen schema record) ∧
      ∀ error, encode schema record limits = .error error → ∃ cause, error = .encoding cause := by
  refine ⟨?_, ?_, ?_⟩
  · rw [exists_encode_eq_ok_iff, Record.conforms_iff schema.layout_sound]
  · intro payload hwritten
    exact length_of_encode hwritten
  · intro error hrefused
    rcases exists_cause_of_encode_error hrefused with ⟨cause, hcause, _⟩
    exact ⟨cause, hcause⟩

end Encode

/-- The limit on payloads is met to the octet. -/
theorem conforms_meterReading :
    meterReading.Conforms meterLimits meters.layout 0 ∧
      encodedLen meters meterReading = 25 ∧
      encode meters meterReading meterLimits = .ok meterPayload := by
  have haccepts := @encode_accepts_conforming meters meterReading meterLimits
  have hconforms := haccepts.1.mp ⟨_, encode_meterReading⟩
  have hlength : encodedLen meters meterReading = 25 :=
    (haccepts.2.1 meterPayload encode_meterReading).symm
  exact ⟨hconforms.1, hlength, encode_meterReading⟩

end Payload
end EventCourier
