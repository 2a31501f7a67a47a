import EventCourier.Proofs.Payload.Canonical

/-!
# Instants in payloads

The instants that can be read from payloads, however deep they lie, are those that have exact
milliseconds.  Where the fields come to milliseconds that have no date, reading ends, and the
refusal names the field and the milliseconds.
-/

namespace EventCourier

namespace Record

/-- The instant is one of the values or stands in a record among them. -/
inductive EntriesHold (t : Instant) : List (UInt32 × Value) → Prop
  | here {entries : List (UInt32 × Value)} {id : UInt32}
      (hmem : (id, Value.timestamp t) ∈ entries) : EntriesHold t entries
  | inside {entries : List (UInt32 × Value)} {id : UInt32} {inner : Record}
      (hmem : (id, Value.record inner) ∈ entries) (hinner : EntriesHold t inner.entries) :
      EntriesHold t entries

/-- The instant stands in a field of the record or of a record in it. -/
def Holds (t : Instant) (record : Record) : Prop :=
  EntriesHold t record.entries

theorem entriesHold_cons
    {t : Instant} {id : UInt32} {value : Value} {entries : List (UInt32 × Value)}
    (hholds : EntriesHold t ((id, value) :: entries)) :
    value = .timestamp t ∨ (∃ inner, value = .record inner ∧ inner.Holds t) ∨
      EntriesHold t entries := by
  cases hholds with
  | here hmem =>
      rcases List.mem_cons.mp hmem with heq | hrest
      · cases heq
        exact .inl rfl
      · exact .inr (.inr (.here hrest))
  | inside hmem hinner =>
      rcases List.mem_cons.mp hmem with heq | hrest
      · cases heq
        exact .inr (.inl ⟨_, rfl, hinner⟩)
      · exact .inr (.inr (.inside hrest hinner))

end Record

namespace Payload

/-- Some reader reads the instant from some payload. -/
def Gives (t : Instant) : Prop :=
  ∃ schema payload limits version record,
    decode schema payload limits = .ok (version, record) ∧ record.Holds t

/-! ## Instants that are read -/

theorem FieldsForm.exact_of_holds
    {limits : Limits} {version : UInt32} {layout : Layout} {depth : Nat} {last : UInt32}
    {octets : Bytes} {entries : List (UInt32 × Value)} {t : Instant}
    (hform : FieldsForm limits version layout depth last octets entries)
    (hholds : Record.EntriesHold t entries) : ∃ millis, t.exactMillis = .ok millis := by
  induction hform with
  | done =>
      cases hholds with
      | here hmem => cases hmem
      | inside hmem _ => cases hmem
  | unknown _ _ _ _ _ ih => exact ih hholds
  | scalar _ _ _ hvalue _ ih =>
      rcases Record.entriesHold_cons hholds with rfl | ⟨inner, hinner, _⟩ | hrest
      · exact hvalue.within
      · exact absurd hinner (hvalue.ne_record inner)
      · exact ih hrest
  | record _ _ _ _ _ _ _ _ _ _ ihInner ih =>
      rcases Record.entriesHold_cons hholds with htime | ⟨held, hheld, hinner⟩ | hrest
      · cases htime
      · cases hheld
        exact ihInner hinner
      · exact ih hrest

def stampLayout : Layout :=
  ⟨[{ id := 1, name := "at", kind := .timestamp }], []⟩

/-- The payloads that are one instant. -/
def stamps : Schema :=
  ⟨"Stamp", 1, stampLayout, ⟨stampLayout, by cbv⟩, rfl⟩

theorem decode_stamp {t : Instant} {millis : Int64}
    (hmillis : Instant.ofMillis? millis.toInt = some t) :
    decode stamps ([1] ++ ([1] ++ Kind.timestamp.tag :: (Bytes.ofWord millis.toUInt64 ++ []))) {} =
      .ok (1, Record.empty.insert 1 (.timestamp t)) := by
  have hone : Varint.Spells [1] (1 : UInt32).toUInt64 := Varint.spells_singleton (by decide)
  have hfield : stamps.layout.field? 1 = some { id := 1, name := "at", kind := .timestamp } := by
    cbv
  refine decode_eq_ok_iff.mpr ⟨?_, [1], _, rfl, by decide, hone, ?_, ?_⟩
  · exact (rfl : _ = 11).trans_le (by decide)
  · exact .scalar (by decide) hone hfield (.timestamp hmillis) .done
  · intro field hmem _ _
    rcases List.mem_singleton.mp hmem with rfl
    exact ⟨_, List.mem_singleton_self _⟩

theorem gives_iff {t : Instant} : Gives t ↔ ∃ millis, t.exactMillis = .ok millis := by
  constructor
  · intro hgives
    rcases hgives with ⟨schema, payload, limits, version, record, hread, hholds⟩
    rcases decode_eq_ok_iff.mp hread with ⟨_, _, _, _, _, _, hform, _⟩
    exact hform.exact_of_holds hholds
  · intro hexact
    have hread := decode_stamp (Instant.ofMillis?_millis hexact)
    exact ⟨_, _, _, _, _, hread, .here (List.mem_singleton_self _)⟩

/-! ## Milliseconds that have no date -/

/-- Reading the fields passes by whole fields until it comes to an instant, in the field at
`there`, that has so many milliseconds.  What follows these may be anything. -/
inductive ComesTo (limits : Limits) (version : UInt32) (millis : Int64) (there : String) :
    Layout → String → Nat → UInt32 → Bytes → Prop
  | instant {layout : Layout} {path : String} {depth : Nat} {last id : UInt32} {field : Field}
      {number rest : Bytes} (hlast : last < id) (hnumber : Varint.Spells number id.toUInt64)
      (hfield : layout.field? id = some field) (hkind : field.kind = .timestamp)
      (hthere : path ++ "." ++ field.name = there) :
      ComesTo limits version millis there layout path depth last
        (number ++ Kind.timestamp.tag :: (Bytes.ofWord millis.toUInt64 ++ rest))
  | unknown {layout : Layout} {path : String} {depth : Nat} {last id : UInt32} {kind : Kind}
      {number value rest : Bytes} (hlast : last < id)
      (hnumber : Varint.Spells number id.toUInt64) (hfield : layout.field? id = none)
      (hvalue : SkippedForm limits kind value)
      (hrest : ComesTo limits version millis there layout path depth id rest) :
      ComesTo limits version millis there layout path depth last
        (number ++ kind.tag :: (value ++ rest))
  | scalar {layout : Layout} {path : String} {depth : Nat} {last id : UInt32} {field : Field}
      {held : Value} {number value rest : Bytes} (hlast : last < id)
      (hnumber : Varint.Spells number id.toUInt64) (hfield : layout.field? id = some field)
      (hvalue : ScalarForm limits field.kind value held)
      (hrest : ComesTo limits version millis there layout path depth id rest) :
      ComesTo limits version millis there layout path depth last
        (number ++ field.kind.tag :: (value ++ rest))
  | record {layout nested : Layout} {path : String} {depth : Nat} {last id : UInt32}
      {field : Field} {inner : Record} {number value content rest : Bytes} (hlast : last < id)
      (hnumber : Varint.Spells number id.toUInt64) (hfield : layout.field? id = some field)
      (hkind : field.kind = .record) (hnested : field.layout = some nested)
      (hblock : BlockForm limits.maxPayloadBytes value content)
      (hdepth : depth + 1 ≤ limits.maxDepth.toNat)
      (hinner : FieldsForm limits version nested (depth + 1) 0 content inner.entries)
      (hcarries : inner.Carries nested version)
      (hrest : ComesTo limits version millis there layout path depth id rest) :
      ComesTo limits version millis there layout path depth last
        (number ++ Kind.record.tag :: (value ++ rest))
  | inside {layout nested : Layout} {path : String} {depth : Nat} {last id : UInt32}
      {field : Field} {number value content rest : Bytes} (hlast : last < id)
      (hnumber : Varint.Spells number id.toUInt64) (hfield : layout.field? id = some field)
      (hkind : field.kind = .record) (hnested : field.layout = some nested)
      (hblock : BlockForm limits.maxPayloadBytes value content)
      (hdepth : depth + 1 ≤ limits.maxDepth.toNat)
      (hinner : ComesTo limits version millis there nested (path ++ "." ++ field.name) (depth + 1) 0
        content) :
      ComesTo limits version millis there layout path depth last
        (number ++ Kind.record.tag :: (value ++ rest))

/-- The payload is not too long, and in its fields reading comes to an instant, at `there`, that has
so many milliseconds. -/
def StatesMillis (limits : Limits) (schema : Schema) (payload : Bytes) (millis : Int64)
    (there : String) : Prop :=
  payload.length ≤ limits.maxPayloadBytes.toNat ∧
    ∃ number fields version, payload = number ++ fields ∧ version ≠ 0 ∧
      Varint.Spells number version.toUInt64 ∧
      ComesTo limits version millis there schema.layout schema.eventType 0 0 fields

section Undated

variable {limits : Limits} {millis : Int64} {there : String}

theorem scalar_undated
    (hundated : ¬ Instant.Dated millis) (path : String) (offset : Nat) (rest : Bytes) :
    scalar limits path .timestamp ⟨offset, Bytes.ofWord millis.toUInt64 ++ rest⟩ =
      (.error (.millisOutOfRange path millis), ⟨offset + 8, rest⟩) := by
  refine (Reading.accepts_word path).refuses_at rfl (by rfl) ?_ offset rest
  rw [Instant.ofMillis?_eq_none_iff.mpr hundated]

theorem decodeFields_undated
    {version : UInt32} {layout : Layout} {path : String} {depth : Nat} {last id : UInt32}
    {field : Field} {number : Bytes} (hundated : ¬ Instant.Dated millis)
    (hlast : last < id) (hnumber : Varint.Spells number id.toUInt64)
    (hfield : layout.field? id = some field) (hkind : field.kind = .timestamp)
    (record : Record) (offset : Nat) (rest : Bytes) :
    decodeFields limits version layout path depth last record
        ⟨offset, number ++ Kind.timestamp.tag :: (Bytes.ofWord millis.toUInt64 ++ rest)⟩ =
      .error (.millisOutOfRange (path ++ "." ++ field.name) millis) := by
  rw [← hkind]
  have hhead := fieldHead_of_spells path hlast hnumber field.kind offset
    (Bytes.ofWord millis.toUInt64 ++ rest)
  have hrefused : ∀ path, scalar limits path field.kind
      ⟨offset + (number.length + 1), Bytes.ofWord millis.toUInt64 ++ rest⟩ =
        (.error (.millisOutOfRange path millis), ⟨offset + (number.length + 1) + 8, rest⟩) := by
    rw [hkind]
    exact fun path => scalar_undated hundated path _ rest
  rw [decodeFields, if_neg (atEnd_of_fieldHead hhead)]
  split <;> rename_i hread <;> rw [hhead] at hread <;> cases hread
  rw [hfield]
  dsimp only
  rw [if_neg (not_not_intro rfl)]
  split
  next hrecord _ _ => cases hkind.symm.trans hrecord
  · split <;> rename_i hread <;> rw [hrefused] at hread <;> cases hread
    rfl

theorem ComesTo.decodeFields_eq
    {version : UInt32} {layout : Layout} {path : String} {depth : Nat} {last : UInt32}
    {octets : Bytes} (hcomes : ComesTo limits version millis there layout path depth last octets)
    (hundated : ¬ Instant.Dated millis) (record : Record) (offset : Nat) :
    decodeFields limits version layout path depth last record ⟨offset, octets⟩ =
      .error (.millisOutOfRange there millis) := by
  induction hcomes generalizing record offset with
  | instant hlast hnumber hfield hkind hthere =>
      rw [decodeFields_undated hundated hlast hnumber hfield hkind, hthere]
  | unknown hlast hnumber hfield hvalue _ ih =>
      rw [decodeFields_unknown hlast hnumber hfield hvalue]
      exact ih record _
  | scalar hlast hnumber hfield hvalue _ ih =>
      rw [decodeFields_scalar hlast hnumber hfield hvalue]
      exact ih _ _
  | @record _ _ _ _ _ _ _ inner _ _ _ _ hlast hnumber hfield hkind hnested hblock hdepth hinner
      hcarries _ ih =>
      have hread := fun path => (@decodeFields_start_eq_ok_iff limits version _ path _ (.start _)
        inner).mpr ⟨hinner, hcarries⟩
      rw [decodeFields_record hlast hnumber hfield hkind hnested hblock hdepth, hread]
      exact ih _ _
  | inside hlast hnumber hfield hkind hnested hblock hdepth _ ih =>
      -- The inner reading starts anew, and its refusal is that of the whole.
      rw [decodeFields_record hlast hnumber hfield hkind hnested hblock hdepth, Cursor.start, ih]
      rfl

/-- A payload that states milliseconds without a date is refused where it states them. -/
theorem StatesMillis.decode_eq
    {schema : Schema} {payload : Bytes} (hstates : StatesMillis limits schema payload millis there)
    (hundated : ¬ Instant.Dated millis) :
    decode schema payload limits = .error (.decoding (.millisOutOfRange there millis)) := by
  rcases hstates with ⟨hlength, number, fields, written, rfl, hnonzero, hnumber, hcomes⟩
  have hversion := accepts_version.read_append ⟨hnonzero, hnumber⟩ fields
  unfold decode
  rw [if_neg (Nat.not_lt.mpr hlength), hversion]
  dsimp only
  rw [hcomes.decodeFields_eq hundated]

end Undated

/-- The fields of a cell, with milliseconds that have no date. -/
def undatedCell : Bytes :=
  [4] ++ Kind.timestamp.tag :: (Bytes.ofWord Instant.firstUndated.toUInt64 ++ [])

/-- The fields of a meter with this cell, and an octet behind it that nobody reads. -/
def undatedMeter : Bytes :=
  [2] ++ Kind.int.tag :: ([5] ++ ([7] ++ Kind.record.tag :: ([10] ++ undatedCell ++ [9])))

theorem statesMillis_undatedMeter :
    StatesMillis meterLimits meters ([1] ++ undatedMeter) Instant.firstUndated "Meter.cell.at" := by
  have hone : Varint.Spells [1] (1 : UInt32).toUInt64 := Varint.spells_singleton (by decide)
  have htwo : Varint.Spells [2] (2 : UInt32).toUInt64 := Varint.spells_singleton (by decide)
  have hfour : Varint.Spells [4] (4 : UInt32).toUInt64 := Varint.spells_singleton (by decide)
  have hfive : Varint.Spells [5] 5 := Varint.spells_singleton (by decide)
  have hseven : Varint.Spells [7] (7 : UInt32).toUInt64 := Varint.spells_singleton (by decide)
  have hat : cellLayout.field? 4 =
      some { id := 4, name := "at", kind := .timestamp, required := false, since := 2 } := by
    cbv
  have hinside : meterLayout.field? 7 = some
      { id := 7, name := "cell", kind := .record, required := false, layout := some cellLayout } :=
    by cbv
  have hcount : meterLayout.field? 2 = some { id := 2, name := "count", kind := .int } := by
    cbv
  have hcell : ComesTo meterLimits 1 Instant.firstUndated "Meter.cell.at" cellLayout "Meter.cell" 1
      0 undatedCell :=
    .instant (by decide) hfour hat rfl (by decide)
  have hblock : BlockForm meterLimits.maxPayloadBytes ([10] ++ undatedCell) undatedCell :=
    ⟨[10], 10, Varint.spells_singleton (by decide), rfl, rfl, by decide⟩
  have hmeter : ComesTo meterLimits 1 Instant.firstUndated "Meter.cell.at" meterLayout "Meter" 0 2
      ([7] ++ Kind.record.tag :: ([10] ++ undatedCell ++ [9])) :=
    .inside (by decide) hseven hinside rfl rfl hblock (by decide)
      hcell
  refine ⟨by decide, [1], undatedMeter, 1, rfl, by decide, hone, ?_⟩
  exact .scalar (by decide) htwo hcount (.int hfive) hmeter

end Payload
end EventCourier
