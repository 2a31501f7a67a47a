import EventCourier.Proofs.Payload.Conforming

/-!
# Payloads that were cut

A payload does not say how long it is, so its front may pass for a payload.  It does exactly when
the cut falls between fields and all required fields are in front of it.  What is read is then the
record of the fields in front of the cut; a cut at any other place is noticed.
-/

namespace EventCourier

def Entries.take : Nat → {low : Nat} → Entries low → Entries low
  | 0, _, _ => .nil
  | _ + 1, _, .nil => .nil
  | count + 1, _, .cons id above value rest => .cons id above value (rest.take count)

theorem Entries.toList_take {low : Nat} (entries : Entries low) (count : Nat) :
    (entries.take count).toList = entries.toList.take count := by
  induction entries generalizing count with
  | nil => cases count <;> rfl
  | cons id above value rest ih =>
      cases count with
      | zero => rfl
      | succ count => rw [take, toList, toList, List.take_succ_cons, ih]

namespace Record

/-- The record of the first fields, at most so many. -/
def take (count : Nat) (record : Record) : Record :=
  ⟨record.held.take count⟩

theorem entries_take (count : Nat) (record : Record) :
    (record.take count).entries = record.entries.take count :=
  record.held.toList_take count

theorem mem_of_mem_take
    {count : Nat} {record : Record} {entry : UInt32 × Value}
    (hmem : entry ∈ (record.take count).entries) : entry ∈ record.entries := by
  rw [entries_take] at hmem
  exact List.mem_of_mem_take hmem

theorem written_take_append_drop (count : Nat) (record : Record) :
    (record.take count).written ++ entriesWritten (record.entries.drop count) =
      record.written := by
  rw [written_eq, written_eq, entries_take, ← entriesWritten_append, List.take_append_drop]

variable {limits : Limits} {layout : Layout} {depth : Nat} {record : Record}

theorem take_of_length_le {count : Nat} (hall : record.entries.length ≤ count) :
    record.take count = record := by
  apply eq_of_entries_eq
  rw [entries_take]
  exact List.take_of_length_le hall

theorem CoveredBy.take (hcovered : record.CoveredBy layout) (count : Nat) :
    (record.take count).CoveredBy layout := by
  apply coveredBy_iff.mpr
  intro entry hmem
  exact coveredBy_iff.mp hcovered entry (mem_of_mem_take hmem)

theorem Fits.take
    {count : Nat} (hfits : record.Fits limits layout depth)
    (hrequired : (record.take count).HasRequired layout) :
    (record.take count).Fits limits layout depth := by
  rcases fits_iff.mp hfits with ⟨hdepth, _, htakes⟩
  apply fits_iff.mpr
  refine ⟨hdepth, hrequired, ?_⟩
  intro entry hmem
  exact htakes entry (mem_of_mem_take hmem)

theorem Faithful.take (hfaithful : record.Faithful) (count : Nat) :
    (record.take count).Faithful :=
  hfaithful.subset fun _ hmem => mem_of_mem_take hmem

/-- A record of which fields are missing has lost the one with the highest id. -/
theorem lt_of_mem_take
    {count : Nat} (hcount : count < record.entries.length)
    {entry : UInt32 × Value} (hmem : entry ∈ (record.take count).entries) :
    ∃ other ∈ record.entries, entry.1 < other.1 := by
  rw [entries_take] at hmem
  have hascending := record.ascending
  rw [← List.take_append_drop count record.entries, List.pairwise_append] at hascending
  have hnonempty : record.entries.drop count ≠ [] := by
    intro hnil
    rw [List.drop_eq_nil_iff] at hnil
    omega
  rcases List.exists_mem_of_ne_nil _ hnonempty with ⟨other, hother⟩
  exact ⟨other, List.mem_of_mem_drop hother, hascending.2.2 entry hmem other hother⟩

end Record

namespace Payload

/-- Octets that are fields and at the front of the written form of entries end where one of the
entries begins, or behind the last. -/
theorem FieldsForm.exists_drop
    {limits : Limits} {version : UInt32} {layout : Layout} {depth : Nat} {last : UInt32}
    {octets rest : Bytes} {entries result : List (UInt32 × Value)}
    (hform : FieldsForm limits version layout depth last octets result)
    (hfaithful : Record.FaithfulEntries entries)
    (hfront : octets ++ rest = Record.entriesWritten entries) :
    ∃ count, rest = Record.entriesWritten (entries.drop count) := by
  -- Whatever field is read is the first of the entries, so the rest is read from the others.
  induction hform generalizing entries with
  | done => exact ⟨0, hfront⟩
  | unknown _ hnumber _ hvalue _ ih =>
      rw [List.append_assoc, List.cons_append, List.append_assoc] at hfront
      rcases entriesWritten_head_inj hnumber hfront with ⟨held, others, rfl, rfl, hback⟩
      rcases ih hfaithful.tail (hvalue.append_inj hback) with ⟨count, hrest⟩
      exact ⟨count + 1, hrest⟩
  | scalar _ hnumber _ hvalue _ ih =>
      rw [List.append_assoc, List.cons_append, List.append_assoc] at hfront
      rcases entriesWritten_head_inj hnumber hfront with ⟨held, others, rfl, hkind, hback⟩
      rw [hkind] at hvalue
      have hexact : ∀ t, held = .timestamp t → ∃ millis, t.exactMillis = .ok millis := by
        intro t hheld
        subst hheld
        exact hfaithful.exact List.mem_cons_self
      have hothers := (hvalue.append_inj hexact hback).2.2
      rcases ih hfaithful.tail hothers with ⟨count, hrest⟩
      exact ⟨count + 1, hrest⟩
  | record _ hnumber _ _ _ hblock _ _ _ _ _ ih =>
      rw [List.append_assoc, List.cons_append, List.append_assoc] at hfront
      rcases entriesWritten_head_inj hnumber hfront with ⟨held, others, rfl, hkind, hback⟩
      cases held with
      | record written =>
          rw [Value.piece] at hback
          have hothers := (hblock.append_inj hback).2
          rcases ih hfaithful.tail hothers with ⟨count, hrest⟩
          exact ⟨count + 1, hrest⟩
      | _ => cases hkind

section Written

variable {schema : Schema} {limits : Limits} {record : Record}

/-- The front of a payload that is read ends behind some of the fields. -/
theorem exists_take_of_decode
    {front rest : Bytes} {read : UInt32 × Record} (hfaithful : record.Faithful)
    (hread : decode schema front limits = .ok read)
    (hfront : front ++ rest = Varint.encode schema.version.toNat ++ record.written) :
    ∃ count, front = Varint.encode schema.version.toNat ++ (record.take count).written := by
  rcases decode_eq_ok_iff.mp hread with ⟨_, number, fields, rfl, _, hnumber, hform, _⟩
  rw [List.append_assoc] at hfront
  rcases hnumber.append_inj (Varint.spells_encode_toUInt64 _) hfront with ⟨rfl, _, hfields⟩
  have hentries := hfields.trans record.written_eq
  rcases hform.exists_drop hfaithful hentries with ⟨count, rfl⟩
  rw [← Record.written_take_append_drop count record] at hfields
  exact ⟨count, congrArg _ (List.append_cancel_right hfields)⟩

theorem take_encodedLen_take (schema : Schema) (record : Record) (count : Nat) :
    (Varint.encode schema.version.toNat ++ record.written).take
        (encodedLen schema (record.take count)) =
      Varint.encode schema.version.toNat ++ (record.take count).written := by
  rw [← Record.written_take_append_drop count record, ← List.append_assoc, ← length_written,
    List.take_left]

theorem decode_written_take_eq_ok_iff
    {count : Nat} {read : UInt32 × Record}
    (hcovered : record.CoveredBy schema.layout) (hfits : record.Fits limits schema.layout 0)
    (hlength : encodedLen schema (record.take count) ≤ limits.maxPayloadBytes.toNat) :
    decode schema (Varint.encode schema.version.toNat ++ (record.take count).written) limits =
        .ok read ↔
      (record.take count).HasRequired schema.layout ∧
        read = (schema.version, record.take count) := by
  have hfaithful := (hfits.faithful schema.layout_sound hcovered).take count
  have hrestrict := (hcovered.take count).restrict_eq
  rcases read with ⟨version, result⟩
  rw [decode_written_eq_ok_iff schema.version_ne_zero hfaithful, hrestrict, length_written,
    Prod.mk.injEq]
  constructor
  · intro h
    exact ⟨(Record.fits_iff.mp h.2.1).2.1, h.2.2⟩
  · intro h
    exact ⟨hlength, hfits.take h.1, h.2⟩

end Written

/-- A reader that gets the front of a payload reads it exactly if the cut is behind the version or
behind one of the fields, and all fields that the schema requires are in front of it.  It then
reads the record of the fields in front.  All other fronts are undecodable, and so are all fronts
if the field with the highest id is required. -/
theorem decode_cut_of_encode
    {schema : Schema} {limits : Limits} {record : Record} {payload : Bytes} {k : Nat}
    (hwritten : encode schema record limits = .ok payload)
    (hcut : k < payload.length) :
    (∀ read, decode schema (payload.take k) limits = .ok read ↔
      ∃ count < record.entries.length, k = encodedLen schema (record.take count) ∧
        (record.take count).HasRequired schema.layout ∧
        read = (schema.version, record.take count)) ∧
      (∀ error, decode schema (payload.take k) limits = .error error →
        ∃ cause, error = .decoding cause) ∧
      ∀ highest ∈ record.entries, (∀ entry ∈ record.entries, entry.1 ≤ highest.1) →
        ∀ field ∈ schema.layout.fields, field.id = highest.1 → field.required = true →
          ∃ cause, decode schema (payload.take k) limits = .error (.decoding cause) := by
  rcases encode_eq_ok_iff.mp hwritten with ⟨⟨hcovered, hfits⟩, rfl, hlength⟩
  have hfaithful := hfits.faithful schema.layout_sound hcovered
  have hfront : ∀ count, k = encodedLen schema (record.take count) → ∀ read,
      (decode schema ((Varint.encode schema.version.toNat ++ record.written).take k) limits =
        .ok read ↔ (record.take count).HasRequired schema.layout ∧
          read = (schema.version, record.take count)) := by
    intro count hk read
    have hshort : encodedLen schema (record.take count) ≤ limits.maxPayloadBytes.toNat := by omega
    rw [hk, take_encodedLen_take, decode_written_take_eq_ok_iff hcovered hfits hshort]
  have hreads : ∀ read, decode schema
      ((Varint.encode schema.version.toNat ++ record.written).take k) limits = .ok read ↔
        ∃ count < record.entries.length, k = encodedLen schema (record.take count) ∧
          (record.take count).HasRequired schema.layout ∧
          read = (schema.version, record.take count) := by
    intro read
    constructor
    · intro hread
      rcases exists_take_of_decode hfaithful hread (List.take_append_drop k _) with ⟨count, htake⟩
      have hk : k = encodedLen schema (record.take count) := by
        rw [← length_written, ← htake, List.length_take]
        omega
      -- A cut behind all fields would be the end of the payload.
      have hcount : count < record.entries.length := by
        by_cases hall : record.entries.length ≤ count
        · rw [Record.take_of_length_le hall] at hk
          rw [length_written] at hcut
          omega
        · exact Nat.not_le.mp hall
      exact ⟨count, hcount, hk, (hfront count hk read).mp hread⟩
    · intro h
      rcases h with ⟨count, _, hk, hreads⟩
      exact (hfront count hk read).mpr hreads
  refine ⟨hreads, fun error hread => exists_decoding_of_decode_error hread, ?_⟩
  intro highest _ hhighest field hfield hid hrequired
  cases hread : decode schema
      ((Varint.encode schema.version.toNat ++ record.written).take k) limits with
  | ok read =>
      rcases (hreads read).mp hread with ⟨count, hcount, _, hhas, _⟩
      rcases hhas field hfield hrequired with ⟨value, hmem⟩
      rcases Record.lt_of_mem_take hcount hmem with ⟨other, hother, hlt⟩
      have hle := hhighest other hother
      rw [← hid] at hle
      exact absurd hlt (UInt32.not_lt.mpr hle)
  | error error =>
      rcases exists_decoding_of_decode_error hread with ⟨cause, rfl⟩
      exact ⟨cause, rfl⟩

/-- The cell of the meter is optional, so the payload without it is a payload too. -/
theorem decode_front_meterPayload :
    encode meters meterReading meterLimits = .ok meterPayload ∧
      9 < meterPayload.length ∧
      decode meters (meterPayload.take 9) meterLimits =
        .ok (2, Record.empty.insert 2 (.int (-3)) |>.insert 3 (.bytes [9, 0])) := by
  have hcut : 9 < meterPayload.length := by decide
  have hlength : 9 = encodedLen meters (meterReading.take 2) := by cbv
  have hcount : (2, .int (-3)) ∈ (meterReading.take 2).entries := Record.get?_eq_some_iff.mp rfl
  have hrequired : (meterReading.take 2).HasRequired meters.layout := by
    simp only [Record.HasRequired, meters, meterLayout, List.forall_mem_cons]
    exact ⟨fun _ => ⟨_, hcount⟩, by simp⟩
  have hreads := @decode_cut_of_encode meters meterLimits meterReading meterPayload 9
    encode_meterReading hcut
  have hread := (hreads.1 _).mpr ⟨2, by decide, hlength, hrequired, rfl⟩
  exact ⟨encode_meterReading, hcut, hread⟩

end Payload
end EventCourier
