import EventCourier.Proofs.Payload.Conforming

/-!
# Why records are refused

A record that its layout covers and that suits it has the right fields of the right kinds.  Such a
record can only be refused for what the values are: a text that is too long, an instant that is not
a whole millisecond, a record too deep, or a payload that is too long as a whole.  And no record
is refused for what is wrong with an envelope.
-/

namespace EventCourier

/-- The cause lies in the values and the limits, not in which fields there are and of what kinds. -/
def EncodingError.OfContent : EncodingError → Prop
  | .tooDeep .. | .fieldTooLong .. | .timestamp .. | .payloadTooLong .. => True
  | _ => False

/-- The cause lies in an envelope. -/
def EncodingError.OfEnvelope : EncodingError → Prop
  | .envelopeFieldEmpty .. | .envelopeFieldTooLong .. | .envelopeTimestamp .. | .emptyPayload .. =>
    True
  | _ => False

theorem EncodingError.OfContent.not_ofEnvelope
    {cause : EncodingError} (hcontent : cause.OfContent) : ¬ cause.OfEnvelope := by
  cases cause <;> first | exact not_false | cases hcontent

namespace Payload

variable {limits : Limits} {path : String} {depth : Nat} {cause : EncodingError}

theorem ofContent_of_scalarPiece
    {value : Value} (hscalar : value.kind ≠ .record)
    (hrefused : scalarPiece limits path value = .error cause) : cause.OfContent := by
  have hsized : ∀ octets, scalarPiece.sized limits path octets = .error cause →
      cause.OfContent := by
    intro octets hsized
    unfold scalarPiece.sized at hsized
    split at hsized
    · cases hsized
      trivial
    · cases hsized
  unfold scalarPiece at hrefused
  cases value with
  | bool b => cases hrefused
  | int n => cases hrefused
  | text s => exact hsized _ hrefused
  | bytes content => exact hsized _ hrefused
  | timestamp t =>
      dsimp only at hrefused
      split at hrefused
      · cases hrefused
      · cases hrefused
        trivial
  | record inner => exact absurd rfl hscalar

theorem ofContent_of_encodeField
    {version : UInt32} {retired : List UInt32} {record : Record} {field : Field}
    (hkeeps : field.Keeps version retired)
    (hrequired : field.required = true → ∃ value, (field.id, value) ∈ record.entries)
    (hkinds : ∀ value, (field.id, value) ∈ record.entries → value.kind = field.kind)
    (hnests : ∀ inner nested, (field.id, Value.record inner) ∈ record.entries →
      field.layout = some nested → ∀ path,
        encodeRecord limits path (depth + 1) inner nested = .error cause → cause.OfContent)
    (hrefused : encodeField limits path depth record field = .error cause) : cause.OfContent := by
  cases hget : record.get? field.id with
  | none =>
      have hoptional : field.required = false := by
        apply Bool.eq_false_of_not_eq_true
        intro htrue
        rcases hrequired htrue with ⟨value, hmem⟩
        rw [Record.get?_eq_some_iff.mpr hmem] at hget
        cases hget
      have habsent := (@encodeField_absent limits path depth record field [] hget).mpr
        ⟨hoptional, rfl⟩
      rw [hrefused] at habsent
      cases habsent
  | some value =>
      have hmem := Record.get?_eq_some_iff.mp hget
      have hkind := hkinds value hmem
      by_cases hrecord : value.kind = .record
      · cases value with
        | record inner =>
            have hsome := hkeeps.nests_iff.mpr hkind.symm
            rcases Option.isSome_iff_exists.mp hsome with ⟨nested, hnested⟩
            rw [encodeField_eq_record hget hkind.symm hnested, map_eq_error_iff] at hrefused
            exact hnests inner nested hmem hnested _ hrefused
        | _ => cases hrecord
      · rw [encodeField_eq_scalar hget hkind hrecord, map_eq_error_iff] at hrefused
        exact ofContent_of_scalarPiece hrecord hrefused

theorem exists_encodeField_error
    {record : Record} {fields : List Field}
    (hrefused : encodeFields limits path depth record fields = .error cause) :
    ∃ field ∈ fields, encodeField limits path depth record field = .error cause := by
  induction fields with
  | nil => cases hrefused
  | cons field rest ih =>
      rw [encodeFields_cons] at hrefused
      cases hfield : encodeField limits path depth record field with
      | error first =>
          rw [hfield] at hrefused
          cases hrefused
          exact ⟨field, List.mem_cons_self, hfield⟩
      | ok front =>
          rw [hfield, Except.bind, map_eq_error_iff] at hrefused
          rcases ih hrefused with ⟨other, hother, hcause⟩
          exact ⟨other, List.mem_cons_of_mem _ hother, hcause⟩

theorem ofContent_of_encodeRecord
    {version : UInt32} {layout : Layout} {record : Record} (hsuits : record.Suits layout)
    (hcovered : record.CoveredBy layout) (hsound : layout.Sound version)
    (hrefused : encodeRecord limits path depth record layout = .error cause) :
    cause.OfContent := by
  induction hsuits generalizing path depth with
  | @intro layout record here _ ih =>
      rcases here with ⟨hkinds, hrequired⟩
      have hdeclared := hcovered.here
      rcases layout with ⟨fields, retired⟩
      rw [encodeRecord] at hrefused
      split at hrefused
      · cases hrefused
        trivial
      split at hrefused
      next id value hforeign =>
        have hmem := List.mem_of_find?_eq_some hforeign
        have hunknown := List.find?_some hforeign
        exact absurd (Option.isNone_iff_eq_none.mp hunknown) (hdeclared _ hmem)
      -- What is left is a refusal by one of the fields, which may be one inside a record.
      rcases exists_encodeField_error hrefused with ⟨field, hfield, hcause⟩
      have hsome : Layout.field? ⟨fields, retired⟩ field.id = some field :=
        hsound.field?_eq_some_iff.mpr ⟨hfield, rfl⟩
      apply ofContent_of_encodeField (hsound.keeps hfield) _ _ _ hcause
      · exact hrequired field hfield
      · intro value hmem
        exact hkinds (field.id, value) hmem field hsome
      · intro inner nested hmem hnested path hinner
        exact ih field.id inner hmem field nested hsome hnested
          (hcovered.within hmem hsome hnested) (hsound.within hfield hnested) hinner

/-- A record with the right fields is refused only for its content. -/
theorem exists_ofContent_of_encode_error
    {schema : Schema} {record : Record} {error : CodecError}
    (hcovered : record.CoveredBy schema.layout) (hsuits : record.Suits schema.layout)
    (hrefused : encode schema record limits = .error error) :
    ∃ cause, error = .encoding cause ∧ cause.OfContent := by
  rcases exists_cause_of_encode_error hrefused with ⟨cause, rfl, hfields | hlong⟩
  · have hcontent := ofContent_of_encodeRecord hsuits hcovered schema.layout_sound hfields
    exact ⟨cause, rfl, hcontent⟩
  · rcases hlong with ⟨size, rfl⟩
    exact ⟨_, rfl, trivial⟩

/-! ## No cause in an envelope -/

theorem not_ofEnvelope_of_scalarPiece
    {value : Value} (hrefused : scalarPiece limits path value = .error cause) :
    ¬ cause.OfEnvelope := by
  by_cases hscalar : value.kind = .record
  · cases value with
    | record inner =>
        cases hrefused
        exact not_false
    | _ => cases hscalar
  · exact (ofContent_of_scalarPiece hscalar hrefused).not_ofEnvelope

theorem not_ofEnvelope_of_encodeField
    {record : Record} {field : Field}
    (hnests : ∀ inner nested, field.layout = some nested → ∀ path depth,
      encodeRecord limits path depth inner nested = .error cause → ¬ cause.OfEnvelope)
    (hrefused : encodeField limits path depth record field = .error cause) :
    ¬ cause.OfEnvelope := by
  rcases field with ⟨id, name, kind, required, since, layout⟩
  unfold encodeField at hrefused
  dsimp only at hrefused
  split at hrefused
  · split at hrefused
    · cases hrefused
      exact not_false
    · cases hrefused
  · split at hrefused
    · cases hrefused
      exact not_false
    · split at hrefused
      next nested inner _ _ =>
        split at hrefused
        next hinner =>
          cases hrefused
          exact hnests inner nested rfl _ _ hinner
        next => cases hrefused
      next =>
        split at hrefused
        next hpiece =>
          cases hrefused
          exact not_ofEnvelope_of_scalarPiece hpiece
        next => cases hrefused

theorem not_ofEnvelope_of_encodeRecord
    {layout : Layout} {record : Record}
    (hrefused : encodeRecord limits path depth record layout = .error cause) :
    ¬ cause.OfEnvelope := by
  induction layout using Layout.induction generalizing path depth record with
  | hstep layout ih =>
      rcases layout with ⟨fields, retired⟩
      rw [encodeRecord] at hrefused
      split at hrefused
      · cases hrefused
        exact not_false
      split at hrefused
      · cases hrefused
        exact not_false
      rcases exists_encodeField_error hrefused with ⟨field, hfield, hcause⟩
      apply not_ofEnvelope_of_encodeField _ hcause
      intro inner nested hnested path depth hinner
      exact ih field hfield nested hnested hinner

theorem not_ofEnvelope_of_encode
    {schema : Schema} {record : Record}
    (hrefused : encode schema record limits = .error (.encoding cause)) : ¬ cause.OfEnvelope := by
  rcases exists_cause_of_encode_error hrefused with ⟨found, hfound, hfields | hlong⟩
  · cases hfound
    exact not_ofEnvelope_of_encodeRecord hfields
  · rcases hlong with ⟨size, rfl⟩
    cases hfound
    exact not_false

end Payload
end EventCourier
