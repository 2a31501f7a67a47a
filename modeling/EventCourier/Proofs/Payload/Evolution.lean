import EventCourier.Proofs.Payload.Acceptance
import EventCourier.Proofs.Payload.Pieces

/-!
# Readers of other versions

A payload is read against the reader's schema, which may be older or newer than the one that it
was written with.  The written form of a record is accepted exactly when the record fits the
reader's layout and limits, and what is read is the record restricted to that layout.  Fields that
the reader does not know never matter.
-/

namespace EventCourier
namespace Payload

/-- The fields that a sound layout requires are required of every version. -/
theorem carries_iff_hasRequired
    {current version : UInt32} {layout : Layout} {record : Record}
    (hsound : layout.Sound current) (hversion : version ≠ 0) :
    record.Carries layout version ↔ record.HasRequired layout := by
  constructor
  · intro hcarries field hmem hrequired
    exact hcarries field hmem hrequired (hsound.since_le_of_required hmem hrequired hversion)
  · intro hrequired field hmem hfield _
    exact hrequired field hmem hfield

theorem carries_restrict_iff
    {current version : UInt32} {layout : Layout} {record : Record}
    (hsound : layout.Sound current) (hversion : version ≠ 0) :
    (record.restrict layout).Carries layout version ↔ record.HasRequired layout := by
  rw [carries_iff_hasRequired hsound hversion, Record.hasRequired_restrict_iff hsound.ascending]

theorem entriesWritten_head_inj
    {entries : List (UInt32 × Value)} {id : UInt32} {kind : Kind} {number back : Bytes}
    (hnumber : Varint.Spells number id.toUInt64)
    (heq : number ++ kind.tag :: back = Record.entriesWritten entries) :
    ∃ held rest, entries = (id, held) :: rest ∧ kind = held.kind ∧
      back = held.piece.encode ++ Record.entriesWritten rest := by
  cases entries with
  | nil =>
      rw [Record.entriesWritten] at heq
      simp at heq
  | cons entry rest =>
      rcases entry with ⟨other, held⟩
      rw [Record.entriesWritten_cons] at heq
      obtain ⟨_, hid, hback⟩ := hnumber.1.append_inj (Varint.groups_encode _) heq
      rw [UInt32.toNat_toUInt64] at hid
      obtain ⟨htag, hback⟩ := List.cons.inj hback
      have hkind : kind = held.kind := by
        have hread := Kind.ofTag?_tag kind
        rw [htag, Kind.ofTag?_tag] at hread
        exact (Option.some.inj hread).symm
      exact ⟨held, rest, by rw [UInt32.toNat_inj.mp hid], hkind, hback⟩

/-- What is read from the written form of entries are those that the layout has, and these are as
the layout says and within the limits. -/
theorem FieldsForm.of_written
    {limits : Limits} {current version : UInt32} {layout : Layout} {depth : Nat} {last : UInt32}
    {octets : Bytes} {entries result : List (UInt32 × Value)}
    (hform : FieldsForm limits version layout depth last octets result)
    (hsound : layout.Sound current) (hversion : version ≠ 0)
    (hfaithful : Record.FaithfulEntries entries)
    (hwritten : octets = Record.entriesWritten entries) :
    result = Record.restrictEntries layout entries ∧
      ∀ entry ∈ entries, ∀ field, layout.field? entry.1 = some field →
        field.Takes limits depth entry.2 := by
  induction hform generalizing entries with
  | done =>
      cases entries with
      | nil => simp [Record.restrictEntries]
      | cons entry rest =>
          rw [Record.entriesWritten_cons] at hwritten
          simp at hwritten
  | unknown _ hnumber hfield hvalue _ ih =>
      obtain ⟨held, rest, rfl, rfl, hback⟩ := entriesWritten_head_inj hnumber hwritten
      obtain ⟨hresult, htakes⟩ := ih hsound hfaithful.tail (hvalue.append_inj hback)
      refine ⟨by rw [Record.restrictEntries_unknown hfield, hresult], ?_⟩
      rw [List.forall_mem_cons]
      refine ⟨fun field hknown => ?_, htakes⟩
      rw [hfield] at hknown
      cases hknown
  | @scalar layout depth last id field found number value back entries _ hnumber hfield hvalue _
      ih =>
      obtain ⟨held, rest, rfl, hkind, hback⟩ := entriesWritten_head_inj hnumber hwritten
      rw [hkind] at hvalue
      have hexact : ∀ t, held = .timestamp t → ∃ millis, t.exactMillis = .ok millis := by
        rintro t rfl
        exact hfaithful.exact List.mem_cons_self
      obtain ⟨rfl, hwithin, hrest⟩ := hvalue.append_inj hexact hback
      obtain ⟨hresult, htakes⟩ := ih hsound hfaithful.tail hrest
      have hscalar := hvalue.ne_record
      have hsame : found.restrict field.layout = found :=
        Value.restrict_eq_self fun inner _ hinner _ => absurd hinner (hscalar inner)
      refine ⟨by rw [Record.restrictEntries_known hfield, hsame, hresult], ?_⟩
      rw [List.forall_mem_cons]
      refine ⟨fun known hknown => ?_, htakes⟩
      obtain rfl := Option.some.inj (hfield.symm.trans hknown)
      rw [Field.takes_iff_of_ne_record hscalar]
      exact ⟨hkind.symm, hwithin⟩
  | @record layout nested depth last id field inner number value content back entries _ hnumber
      hfield hkind hnested hblock hdepth _ hcarries _ ihInner ihRest =>
      obtain ⟨held, rest, rfl, hheld, hback⟩ := entriesWritten_head_inj hnumber hwritten
      cases held with
      | record written =>
          rw [Value.piece] at hback
          obtain ⟨rfl, hrest⟩ := hblock.append_inj hback
          have hnestedSound := hsound.within (Layout.mem_of_field? hfield) hnested
          have hwrittenFaithful : written.Faithful := hfaithful.inner List.mem_cons_self
          obtain ⟨hinner, htakesInner⟩ := ihInner hnestedSound hwrittenFaithful written.written_eq
          obtain ⟨hresult, htakes⟩ := ihRest hsound hfaithful.tail hrest
          obtain rfl : inner = written.restrict nested := by
            apply Record.eq_of_entries_eq
            rw [Record.entries_restrict]
            exact hinner
          have hrequired := (carries_restrict_iff hnestedSound hversion).mp hcarries
          have hfits : written.Fits limits nested (depth + 1) :=
            Record.fits_iff.mpr ⟨hdepth, hrequired, htakesInner⟩
          refine ⟨by rw [Record.restrictEntries_known hfield, hnested, Value.restrict, hresult], ?_⟩
          rw [List.forall_mem_cons]
          refine ⟨fun known hknown => ?_, htakes⟩
          obtain rfl := Option.some.inj (hfield.symm.trans hknown)
          rw [Field.takes_record_iff hkind hnested]
          exact hfits
      | _ => cases hheld

theorem fieldsForm_of_takes
    {limits : Limits} {version : UInt32} {layout : Layout} {depth : Nat} {last : UInt32}
    {entries : List (UInt32 × Value)}
    (hascending : entries.Pairwise fun a b => a.1 < b.1)
    (habove : ∀ entry ∈ entries, last < entry.1)
    (hlength : (Record.entriesWritten entries).length ≤ limits.maxPayloadBytes.toNat)
    (hscalars : ∀ entry ∈ entries, ∀ field, layout.field? entry.1 = some field →
      entry.2.kind = field.kind ∧ entry.2.Within limits)
    (hrecords : ∀ id inner, (id, Value.record inner) ∈ entries → ∀ field,
      layout.field? id = some field →
        ∃ nested, field.layout = some nested ∧ depth + 1 ≤ limits.maxDepth.toNat ∧
          (inner.restrict nested).Carries nested version ∧
          (inner.written.length ≤ limits.maxPayloadBytes.toNat →
            FieldsForm limits version nested (depth + 1) 0 inner.written
              (inner.restrict nested).entries)) :
    FieldsForm limits version layout depth last (Record.entriesWritten entries)
      (Record.restrictEntries layout entries) := by
  induction entries generalizing last with
  | nil => exact .done
  | cons entry rest ih =>
      rcases entry with ⟨id, value⟩
      obtain ⟨hbefore, hrest⟩ := List.pairwise_cons.mp hascending
      rw [Record.entriesWritten_cons] at hlength ⊢
      simp only [List.length_append, List.length_cons] at hlength
      have hnumber := Varint.spells_encode_toUInt64 id
      have hback := ih hrest hbefore (by omega)
        (fun other hother => hscalars other (List.mem_cons_of_mem _ hother))
        (fun other inner hother => hrecords other inner (List.mem_cons_of_mem _ hother))
      have hlast := habove (id, value) List.mem_cons_self
      cases hfield : layout.field? id with
      | none =>
          rw [Record.restrictEntries_unknown hfield]
          exact .unknown hlast hnumber hfield (skippedForm_piece (by omega)) hback
      | some field =>
          obtain ⟨hkind, hwithin⟩ := hscalars (id, value) List.mem_cons_self field hfield
          rw [Record.restrictEntries_known hfield]
          cases value with
          | record inner =>
              obtain ⟨nested, hnested, hdepth, hcarries, hinner⟩ :=
                hrecords id inner List.mem_cons_self field hfield
              rw [Value.piece, Piece.encode, List.length_append] at hlength
              rw [hnested, Value.restrict]
              exact .record hlast hnumber hfield hkind.symm hnested (blockForm_encode (by omega))
                hdepth (hinner (by omega)) hcarries hback
          | _ =>
              have hvalue := scalarForm_piece (by simp [Value.kind]) hwithin
              rw [Value.restrict_eq_self (by simp)]
              rw [hkind] at hvalue ⊢
              exact .scalar hlast hnumber hfield hvalue hback

theorem fieldsForm_written
    {limits : Limits} {current version : UInt32} {layout : Layout} {depth : Nat} {record : Record}
    (hfits : record.Fits limits layout depth) (hsound : layout.Sound current)
    (hversion : version ≠ 0) (hfaithful : record.Faithful)
    (hlength : record.written.length ≤ limits.maxPayloadBytes.toNat) :
    FieldsForm limits version layout depth 0 record.written
      (Record.restrictEntries layout record.entries) := by
  induction hfits with
  | @intro layout depth record hdepth hrequired hkinds hvalues hnests ih =>
      rw [Record.written_eq] at hlength ⊢
      refine fieldsForm_of_takes record.ascending (fun entry hmem => ?_) hlength
        (fun entry hmem field hfield => ?_) fun id inner hmem field hfield => ?_
      · exact UInt32.pos_iff_ne_zero.mpr (hfaithful.nonzero hmem)
      · exact ⟨hkinds entry hmem field hfield, hvalues entry hmem field hfield⟩
      · obtain ⟨nested, hnested, hnestedSound⟩ :=
          Record.exists_layout_of_kind hsound hfield (hkinds _ hmem field hfield)
        have hinner := hnests id inner hmem field nested hfield hnested
        refine ⟨nested, hnested, (Record.fits_iff.mp hinner).1, ?_, fun hshort => ?_⟩
        · exact (carries_restrict_iff hnestedSound hversion).mpr (Record.fits_iff.mp hinner).2.1
        · rw [Record.entries_restrict]
          exact ih id inner hmem field nested hfield hnested hnestedSound
            (hfaithful.inner hmem) hshort

/-- Reading the written form of a record, at any version and by any reader. -/
theorem decode_written_eq_ok_iff
    {schema : Schema} {limits : Limits} {version written : UInt32} {record result : Record}
    (hversion : version ≠ 0) (hfaithful : record.Faithful) :
    decode schema (Varint.encode version.toNat ++ record.written) limits = .ok (written, result) ↔
      (Varint.encode version.toNat ++ record.written).length ≤ limits.maxPayloadBytes.toNat ∧
        record.Fits limits schema.layout 0 ∧
        written = version ∧ result = record.restrict schema.layout := by
  have hspells := Varint.spells_encode_toUInt64 version
  rw [decode_eq_ok_iff]
  refine and_congr_right fun hlength => ?_
  constructor
  · intro h
    rcases h with ⟨number, fields, hpayload, hwritten, hnumber, hform, hcarries⟩
    obtain ⟨rfl, hsame, rfl⟩ := hspells.append_inj hnumber hpayload
    obtain rfl := UInt32.toUInt64_inj.mp hsame
    obtain ⟨hresult, htakes⟩ :=
      hform.of_written schema.layout_sound hversion hfaithful record.written_eq
    have hrestrict : result = record.restrict schema.layout := by
      apply Record.eq_of_entries_eq
      rw [Record.entries_restrict]
      exact hresult
    subst hrestrict
    have hrequired := (carries_restrict_iff schema.layout_sound hversion).mp hcarries
    exact ⟨Record.fits_iff.mpr ⟨Nat.zero_le _, hrequired, htakes⟩, rfl, rfl⟩
  · intro h
    rcases h with ⟨hfits, rfl, rfl⟩
    rw [List.length_append] at hlength
    refine ⟨_, _, rfl, hversion, hspells, ?_, ?_⟩
    · rw [Record.entries_restrict]
      exact fieldsForm_written hfits schema.layout_sound hversion hfaithful (by omega)
    · rw [carries_restrict_iff schema.layout_sound hversion]
      exact (Record.fits_iff.mp hfits).2.1

/-- Whatever a writer wrote, with its fields and at its version, a reader with a schema of its own
accepts exactly if the record suits the reader's layout.  It reads the record restricted to that
layout, and what it refuses it calls undecodable.  Fields that it does not know make no difference
to either. -/
theorem decode_encode_across_schemas
    {writer reader : Schema} {limits : Limits} {record : Record} {payload : Bytes}
    (hwritten : encode writer record limits = .ok payload) :
    ((∃ result, decode reader payload limits = .ok result) ↔ record.Suits reader.layout) ∧
      (∀ result, decode reader payload limits = .ok result →
        result = (writer.version, record.restrict reader.layout)) ∧
      (∀ error, decode reader payload limits = .error error → ∃ cause, error = .decoding cause) ∧
      ((record.restrict reader.layout).Suits reader.layout ↔ record.Suits reader.layout) := by
  obtain ⟨⟨hcovered, hfits⟩, rfl, hlength⟩ := encode_eq_ok_iff.mp hwritten
  have hfaithful := hfits.faithful writer.layout_sound hcovered
  refine ⟨⟨?_, ?_⟩, ?_, ?_, Record.suits_restrict_iff reader.layout_sound⟩
  · intro h
    rcases h with ⟨⟨version, result⟩, hread⟩
    exact ((decode_written_eq_ok_iff writer.version_ne_zero hfaithful).mp hread).2.1.suits
  · intro hsuits
    have hreader := hsuits.fits writer.layout_sound hcovered hfits
    exact ⟨_, (decode_written_eq_ok_iff writer.version_ne_zero hfaithful).mpr
      ⟨hlength, hreader, rfl, rfl⟩⟩
  · rintro ⟨version, result⟩ hread
    obtain ⟨_, _, rfl, rfl⟩ :=
      (decode_written_eq_ok_iff writer.version_ne_zero hfaithful).mp hread
    rfl
  · exact fun error hread => exists_decoding_of_decode_error hread

/-! ## A newer writer and an older reader -/

def cellLayout : Layout :=
  ⟨[{ id := 1, name := "on", kind := .bool },
    { id := 4, name := "at", kind := .timestamp, required := false, since := 2 }], []⟩

def firstCellLayout : Layout :=
  ⟨[{ id := 1, name := "on", kind := .bool }], []⟩

def meterLayout : Layout :=
  ⟨[{ id := 2, name := "count", kind := .int },
    { id := 3, name := "raw", kind := .bytes, required := false, since := 2 },
    { id := 7, name := "cell", kind := .record, required := false, layout := some cellLayout }], []⟩

def firstMeterLayout : Layout :=
  ⟨[{ id := 2, name := "count", kind := .int },
    { id := 7, name := "cell", kind := .record, required := false,
      layout := some firstCellLayout }], []⟩

def meters : Schema :=
  ⟨"Meter", 2, meterLayout, ⟨meterLayout, by cbv⟩, rfl⟩

def firstMeters : Schema :=
  ⟨"Meter", 1, firstMeterLayout, ⟨firstMeterLayout, by cbv⟩, rfl⟩

def meterReading : Record :=
  Record.empty
    |>.insert 2 (.int (-3))
    |>.insert 3 (.bytes [9, 0])
    |>.insert 7 (.record
      (Record.empty.insert 1 (.bool true) |>.insert 4 (.timestamp ⟨60, 0, by decide⟩)))

/-- What is left of it without the fields of the second version. -/
def firstMeterReading : Record :=
  Record.empty
    |>.insert 2 (.int (-3))
    |>.insert 7 (.record (Record.empty.insert 1 (.bool true)))

def meterLimits : Limits := ⟨2, 25, 1⟩

def meterPayload : Bytes :=
  [2, 2, 1, 5, 3, 3, 2, 9, 0, 7, 5, 13, 1, 0, 1, 4, 4, 0, 0, 0, 0, 0, 0, 234, 96]

theorem encode_meterReading : encode meters meterReading meterLimits = .ok meterPayload := by
  cbv

/-- The older reader does without the newer fields, at both levels. -/
theorem decode_firstMeters_meterPayload :
    encode meters meterReading meterLimits = .ok meterPayload ∧
      meterReading.Suits firstMeters.layout ∧
      decode firstMeters meterPayload meterLimits = .ok (2, firstMeterReading) := by
  have hread : decode firstMeters meterPayload meterLimits = .ok (2, firstMeterReading) := by
    cbv
  have hacross := @decode_encode_across_schemas meters firstMeters meterLimits meterReading
    meterPayload encode_meterReading
  exact ⟨encode_meterReading, hacross.1.mp ⟨_, hread⟩, hread⟩

end Payload
end EventCourier
