import EventCourier.Proofs.Payload.Grammar
import EventCourier.Proofs.Wire.Extent
import EventCourier.Proofs.Record.Order

/-!
# Reading accepts the grammar

Reading the fields of a record succeeds exactly on the octets that the grammar has, and gives the
record that they hold.  From there the same follows of whole payloads.
-/

namespace EventCourier

theorem Record.get?_isNone_iff {record : Record} {id : UInt32} :
    (record.get? id).isNone = true ↔ ¬ ∃ value, (id, value) ∈ record.entries := by
  simp only [← get?_eq_some_iff]
  cases record.get? id <;> simp

theorem Record.below_empty : ∀ entry ∈ empty.entries, entry.1 ≤ (0 : UInt32) := nofun

namespace Payload

theorem complete_eq_ok_iff
    {layout : Layout} {path : String} {version : UInt32} {record result : Record} :
    complete layout path version record = .ok result ↔
      result = record ∧ record.Carries layout version := by
  have hcarries : (layout.fields.find? fun field =>
      field.required && field.since ≤ version && (record.get? field.id).isNone) = none ↔
        record.Carries layout version := by
    rw [List.find?_eq_none]
    simp only [Bool.and_eq_true, decide_eq_true_eq, Record.get?_isNone_iff, not_and,
      Classical.not_not, and_imp, Record.Carries]
  unfold complete
  split
  next missing hmissing =>
    have hlacks : ¬ record.Carries layout version := by
      rw [← hcarries, hmissing]
      simp
    simp [hlacks]
  next hnone =>
    simp [hcarries.mp hnone, eq_comm]

/-! ## Fields -/

theorem fieldHead_eq_ok_iff
    {path : String} {last id : UInt32} {kind : Kind} {cursor body : Cursor} :
    fieldHead path last cursor = (.ok (id, kind), body) ↔
      ∃ number, last < id ∧ Varint.Spells number id.toUInt64 ∧
        cursor.rest = number ++ kind.tag :: body.rest ∧
        body.offset = cursor.offset + (number.length + 1) := by
  rw [accepts_fieldHead]
  constructor
  · intro h
    rcases h with ⟨_, ⟨number, hlast, hnumber, rfl⟩, hrest, hoffset⟩
    exact ⟨number, hlast, hnumber, by simpa using hrest, by simpa using hoffset⟩
  · intro h
    rcases h with ⟨number, hlast, hnumber, hrest, hoffset⟩
    exact ⟨_, ⟨number, hlast, hnumber, rfl⟩, by simpa using hrest, by simpa using hoffset⟩

theorem fieldHead_of_spells
    (path : String) {last id : UInt32} {number : Bytes} (hlast : last < id)
    (hnumber : Varint.Spells number id.toUInt64) (kind : Kind) (offset : Nat) (rest : Bytes) :
    fieldHead path last ⟨offset, number ++ kind.tag :: rest⟩ =
      (.ok (id, kind), ⟨offset + (number.length + 1), rest⟩) :=
  fieldHead_eq_ok_iff.mpr ⟨number, hlast, hnumber, rfl, rfl⟩

theorem above_insert
    {record : Record} {last id : UInt32} (value : Value)
    (hbelow : ∀ entry ∈ record.entries, entry.1 ≤ last) (hlast : last < id) :
    (record.insert id value).entries = record.entries ++ [(id, value)] ∧
      ∀ entry ∈ (record.insert id value).entries, entry.1 ≤ id := by
  have hentries := Record.entries_insert_of_lt value fun entry hentry =>
    UInt32.lt_of_le_of_lt (hbelow entry hentry) hlast
  refine ⟨hentries, fun entry hentry => ?_⟩
  rw [hentries, List.mem_append, List.mem_singleton] at hentry
  rcases hentry with hentry | rfl
  · exact UInt32.le_of_lt (UInt32.lt_of_le_of_lt (hbelow entry hentry) hlast)
  · exact UInt32.le_refl _

/-- Whatever is read has the form of fields, and the entries that they hold are added. -/
theorem exists_form_of_decodeFields
    {limits : Limits} {version : UInt32} {layout : Layout} {path : String} {depth : Nat}
    {last : UInt32} {record result : Record} {cursor : Cursor}
    (hbelow : ∀ entry ∈ record.entries, entry.1 ≤ last)
    (hread : decodeFields limits version layout path depth last record cursor = .ok result) :
    ∃ entries, FieldsForm limits version layout depth last cursor.rest entries ∧
      result.entries = record.entries ++ entries ∧ result.Carries layout version := by
  fun_induction decodeFields limits version layout path depth last record cursor
    generalizing result with
  | case1 layout path depth last record cursor hend =>
      have hrest : cursor.rest = [] := List.isEmpty_iff.mp hend
      obtain ⟨rfl, hcarries⟩ := complete_eq_ok_iff.mp hread
      rw [hrest]
      exact ⟨[], .done, (List.append_nil _).symm, hcarries⟩
  | case4 layout path depth last record cursor hmore id kind body hhead hfield _ after hskip ih =>
      obtain ⟨number, hlast, hnumber, hrest, _⟩ := fieldHead_eq_ok_iff.mp hhead
      obtain ⟨value, hvalue, hbody, _⟩ := (accepts_skipValue _ _ _ _ _).mp hskip
      obtain ⟨entries, hform, hresult, hcarries⟩ :=
        ih (fun entry hentry => UInt32.le_of_lt (UInt32.lt_of_le_of_lt (hbelow entry hentry) hlast))
          hread
      rw [hrest, hbody]
      exact ⟨entries, .unknown hlast hnumber hfield hvalue hform, hresult, hcarries⟩
  | case9 layout path depth last record cursor hmore id body field hfield here nested _ hnested
      octets after hblock hdepth inner hinner hhead hkind ihInner =>
      rename_i ihRest
      obtain ⟨number, hlast, hnumber, hrest, _⟩ := fieldHead_eq_ok_iff.mp hhead
      obtain ⟨value, hvalue, hbody, _⟩ := (Reading.accepts_block _ _ _ _ _).mp hblock
      obtain ⟨held, hheld, rfl, hinnerCarries⟩ := ihInner Record.below_empty hinner
      obtain ⟨hinsert, hbelow'⟩ := above_insert (.record _) hbelow hlast
      obtain ⟨entries, hform, hresult, hcarries⟩ := ihRest hbelow' hread
      rw [hinsert, List.append_assoc] at hresult
      rw [hrest, hbody]
      exact ⟨(id, .record inner) :: entries,
        .record hlast hnumber hfield (Decidable.not_not.mp hkind).symm hnested hvalue
          (Nat.not_lt.mp hdepth) hheld hinnerCarries hform, hresult, hcarries⟩
  | case11 layout path depth last record cursor hmore id kind body hhead field hfield here hkind
      value after hscalar =>
      rename_i ih
      obtain ⟨number, hlast, hnumber, hrest, _⟩ := fieldHead_eq_ok_iff.mp hhead
      obtain ⟨octets, hvalue, hbody, _⟩ := (accepts_scalar _ _ _ _ _ _).mp hscalar
      obtain rfl : kind = field.kind := Decidable.not_not.mp hkind
      obtain ⟨hinsert, hbelow'⟩ := above_insert value hbelow hlast
      have hread : decodeFields limits version layout path depth id (record.insert id value) after =
          .ok result := by
        split at hread
        · cases hread
        next hsame =>
          rw [hscalar] at hsame
          cases hsame
          exact hread
      obtain ⟨entries, hform, hresult, hcarries⟩ := ih hbelow' hread
      rw [hinsert, List.append_assoc] at hresult
      rw [hrest, hbody]
      exact ⟨_, .scalar hlast hnumber hfield hvalue hform, hresult, hcarries⟩
  | case2 => cases hread
  | case3 => cases hread
  | case5 => cases hread
  | case6 => cases hread
  | case7 => cases hread
  | case8 => cases hread
  | case10 layout path depth last record cursor hmore id kind body _ field hfield here hkind
      cause after hscalar =>
      split at hread
      · cases hread
      next hsame =>
        rw [hscalar] at hsame
        cases hsame

section Steps

variable {limits : Limits} {version : UInt32} {layout : Layout} {path : String} {depth : Nat}
  {last id : UInt32} {number value : Bytes}

theorem atEnd_of_fieldHead
    {kind : Kind} {cursor body : Cursor}
    (hhead : fieldHead path last cursor = (.ok (id, kind), body)) : ¬ cursor.atEnd = true := by
  intro hend
  obtain ⟨number, _, _, hrest, _⟩ := fieldHead_eq_ok_iff.mp hhead
  rw [Cursor.atEnd, hrest] at hend
  simp at hend

theorem decodeFields_unknown
    {kind : Kind} (hlast : last < id) (hnumber : Varint.Spells number id.toUInt64)
    (hfield : layout.field? id = none) (hvalue : SkippedForm limits kind value)
    (record : Record) (offset : Nat) (rest : Bytes) :
    decodeFields limits version layout path depth last record
        ⟨offset, number ++ kind.tag :: (value ++ rest)⟩ =
      decodeFields limits version layout path depth id record
        ⟨offset + (number.length + 1) + value.length, rest⟩ := by
  have hhead := fieldHead_of_spells path hlast hnumber kind offset (value ++ rest)
  have hskip : skipValue limits kind ⟨offset + (number.length + 1), value ++ rest⟩ =
      (.ok (), ⟨offset + (number.length + 1) + value.length, rest⟩) :=
    (accepts_skipValue limits kind).read_at hvalue _ rest
  rw [decodeFields, if_neg (atEnd_of_fieldHead hhead)]
  split <;> rename_i hread <;> rw [hhead] at hread <;> cases hread
  rw [hfield]
  dsimp only
  split <;> rename_i hread <;> rw [hskip] at hread <;> cases hread
  rfl

theorem decodeFields_scalar
    {field : Field} {held : Value} (hlast : last < id)
    (hnumber : Varint.Spells number id.toUInt64) (hfield : layout.field? id = some field)
    (hvalue : ScalarForm limits field.kind value held)
    (record : Record) (offset : Nat) (rest : Bytes) :
    decodeFields limits version layout path depth last record
        ⟨offset, number ++ field.kind.tag :: (value ++ rest)⟩ =
      decodeFields limits version layout path depth id (record.insert id held)
        ⟨offset + (number.length + 1) + value.length, rest⟩ := by
  have hhead := fieldHead_of_spells path hlast hnumber field.kind offset (value ++ rest)
  have hscalar := fun path => (accepts_scalar limits path field.kind).read_at hvalue
    (offset + (number.length + 1)) rest
  rw [decodeFields, if_neg (atEnd_of_fieldHead hhead)]
  split <;> rename_i hread <;> rw [hhead] at hread <;> cases hread
  rw [hfield]
  dsimp only
  rw [if_neg (not_not_intro rfl)]
  split
  next hkind _ _ =>
    have hrefused := hscalar path
    rw [hkind, scalar, Reading.refuse] at hrefused
    cases hrefused
  · split <;> rename_i hread <;> rw [hscalar] at hread <;> cases hread
    rfl

/-- What becomes of a field that is a record is decided by what becomes of its content. -/
theorem decodeFields_record
    {field : Field} {nested : Layout} {content : Bytes} (hlast : last < id)
    (hnumber : Varint.Spells number id.toUInt64) (hfield : layout.field? id = some field)
    (hkind : field.kind = .record) (hnested : field.layout = some nested)
    (hblock : BlockForm limits.maxPayloadBytes value content)
    (hdepth : depth + 1 ≤ limits.maxDepth.toNat)
    (record : Record) (offset : Nat) (rest : Bytes) :
    decodeFields limits version layout path depth last record
        ⟨offset, number ++ Kind.record.tag :: (value ++ rest)⟩ =
      (decodeFields limits version nested (path ++ "." ++ field.name) (depth + 1) 0 .empty
        (.start content)).bind fun inner =>
          decodeFields limits version layout path depth id (record.insert id (.record inner))
            ⟨offset + (number.length + 1) + value.length, rest⟩ := by
  have hhead := fieldHead_of_spells path hlast hnumber Kind.record offset (value ++ rest)
  have hcontent := fun path => (Reading.accepts_block path limits.maxPayloadBytes).read_at hblock
    (offset + (number.length + 1)) rest
  rw [decodeFields, if_neg (atEnd_of_fieldHead hhead)]
  split <;> rename_i hread <;> rw [hhead] at hread <;> cases hread
  rw [hfield]
  dsimp only
  rw [if_neg (not_not_intro hkind.symm)]
  split
  next hsame =>
    obtain rfl := Option.some.inj (hnested.symm.trans hsame)
    split <;> rename_i hread <;> rw [hcontent] at hread <;> cases hread
    rw [if_neg (Nat.not_lt.mpr hdepth)]
    split <;> rename_i hinner <;> rw [hinner] <;> rfl
  next hother =>
    exact (hother nested hhead rfl hnested HEq.rfl).elim

end Steps

theorem decodeFields_of_form
    {limits : Limits} {version : UInt32} {layout : Layout} {path : String} {depth : Nat}
    {last : UInt32} {record result : Record} {cursor : Cursor} {entries : List (UInt32 × Value)}
    (hbelow : ∀ entry ∈ record.entries, entry.1 ≤ last)
    (hform : FieldsForm limits version layout depth last cursor.rest entries)
    (hresult : result.entries = record.entries ++ entries)
    (hcarries : result.Carries layout version) :
    decodeFields limits version layout path depth last record cursor = .ok result := by
  rcases cursor with ⟨offset, rest⟩
  dsimp only at hform
  induction hform generalizing path record result offset with
  | done =>
      have hend : (⟨offset, []⟩ : Cursor).atEnd = true := rfl
      rw [List.append_nil] at hresult
      rw [decodeFields, if_pos hend, complete_eq_ok_iff]
      exact ⟨Record.eq_of_entries_eq hresult, Record.eq_of_entries_eq hresult ▸ hcarries⟩
  | unknown hlast hnumber hfield hvalue _ ih =>
      rw [decodeFields_unknown hlast hnumber hfield hvalue]
      refine ih (fun entry hentry => ?_) hresult hcarries _
      exact UInt32.le_of_lt (UInt32.lt_of_le_of_lt (hbelow entry hentry) hlast)
  | @scalar layout depth last id field held number value rest entries hlast hnumber hfield hvalue _
      ih =>
      obtain ⟨hinsert, hbelow'⟩ := above_insert held hbelow hlast
      rw [decodeFields_scalar hlast hnumber hfield hvalue]
      rw [List.append_cons, ← hinsert] at hresult
      exact ih hbelow' hresult hcarries _
  | @record layout nested depth last id field inner number value content rest entries hlast hnumber
      hfield hkind hnested hblock hdepth _ hinnerCarries _ ihInner ihRest =>
      have hinner : decodeFields limits version nested (path ++ "." ++ field.name) (depth + 1) 0
          .empty (.start content) = .ok inner :=
        ihInner Record.below_empty rfl hinnerCarries 0
      obtain ⟨hinsert, hbelow'⟩ := above_insert (.record inner) hbelow hlast
      rw [decodeFields_record hlast hnumber hfield hkind hnested hblock hdepth, hinner]
      rw [List.append_cons, ← hinsert] at hresult
      exact ihRest hbelow' hresult hcarries _

theorem decodeFields_start_eq_ok_iff
    {limits : Limits} {version : UInt32} {layout : Layout} {path : String} {depth : Nat}
    {cursor : Cursor} {record : Record} :
    decodeFields limits version layout path depth 0 .empty cursor = .ok record ↔
      FieldsForm limits version layout depth 0 cursor.rest record.entries ∧
        record.Carries layout version := by
  constructor
  · intro hread
    obtain ⟨_, hform, rfl, hcarries⟩ := exists_form_of_decodeFields Record.below_empty hread
    exact ⟨hform, hcarries⟩
  · intro h
    rcases h with ⟨hform, hcarries⟩
    exact decodeFields_of_form Record.below_empty hform rfl hcarries

/-! ## Payloads -/

theorem decode_eq_ok_iff
    {schema : Schema} {payload : Bytes} {limits : Limits} {written : UInt32} {record : Record} :
    decode schema payload limits = .ok (written, record) ↔
      payload.length ≤ limits.maxPayloadBytes.toNat ∧
        ∃ number fields, payload = number ++ fields ∧ written ≠ 0 ∧
          Varint.Spells number written.toUInt64 ∧
          FieldsForm limits written schema.layout 0 0 fields record.entries ∧
          record.Carries schema.layout written := by
  unfold decode
  constructor
  · intro hread
    split at hread
    · cases hread
    rename_i hfits
    split at hread
    · cases hread
    rename_i written' fields hversion
    split at hread
    · cases hread
    rename_i record' hfields
    cases hread
    obtain ⟨number, ⟨hnonzero, hspells⟩, hpayload, _⟩ := (accepts_version _ _ _).mp hversion
    obtain ⟨hform, hcarries⟩ := decodeFields_start_eq_ok_iff.mp hfields
    exact ⟨Nat.not_lt.mp hfits, number, fields.rest, hpayload, hnonzero, hspells, hform, hcarries⟩
  · intro h
    rcases h with ⟨hfits, number, fields, rfl, hnonzero, hspells, hform, hcarries⟩
    have hversion : version (.start (number ++ fields)) = (.ok written, ⟨number.length, fields⟩) :=
      (accepts_version _ _ _).mpr ⟨number, ⟨hnonzero, hspells⟩, rfl, (Nat.zero_add _).symm⟩
    have hfields : decodeFields limits written schema.layout schema.eventType 0 0 .empty
        ⟨number.length, fields⟩ = .ok record :=
      decodeFields_start_eq_ok_iff.mpr ⟨hform, hcarries⟩
    rw [if_neg (Nat.not_lt.mpr hfits), hversion]
    dsimp only
    rw [hfields]

theorem exists_decoding_of_decode_error
    {schema : Schema} {payload : Bytes} {limits : Limits} {error : CodecError}
    (hread : decode schema payload limits = .error error) : ∃ cause, error = .decoding cause := by
  unfold decode at hread
  split at hread
  · cases hread
    exact ⟨_, rfl⟩
  · split at hread
    · cases hread
      exact ⟨_, rfl⟩
    · split at hread
      · cases hread
        exact ⟨_, rfl⟩
      · cases hread

/-- The payloads that are read are those of the grammar, and each gives the version and the record
that it holds.  All other octets are undecodable. -/
theorem decode_accepts_payloadForm (schema : Schema) (payload : Bytes) (limits : Limits) :
    (∀ version record, decode schema payload limits = .ok (version, record) ↔
      PayloadForm limits schema payload version record) ∧
      ((∃ version record, PayloadForm limits schema payload version record) ∨
        ∃ cause, decode schema payload limits = .error (.decoding cause)) := by
  have haccepts : ∀ version record, decode schema payload limits = .ok (version, record) ↔
      PayloadForm limits schema payload version record := by
    intro version record
    rw [decode_eq_ok_iff]
    constructor
    · intro h
      rcases h with ⟨hlength, number, fields, hpayload, hversion, hnumber, hform, hcarries⟩
      exact ⟨hlength, hversion, ⟨number, fields, hpayload, hnumber, hform⟩, hcarries⟩
    · intro h
      rcases h with ⟨hlength, hversion, ⟨number, fields, hpayload, hnumber, hform⟩, hcarries⟩
      exact ⟨hlength, number, fields, hpayload, hversion, hnumber, hform, hcarries⟩
  refine ⟨haccepts, ?_⟩
  cases hread : decode schema payload limits with
  | ok read => exact .inl ⟨read.1, read.2, (haccepts _ _).mp hread⟩
  | error error =>
      obtain ⟨cause, rfl⟩ := exists_decoding_of_decode_error hread
      exact .inr ⟨cause, rfl⟩

end Payload
end EventCourier
