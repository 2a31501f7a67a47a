import EventCourier.Proofs.Payload.Written
import EventCourier.Proofs.Record.Access
import EventCourier.Proofs.Uuid
import EventCourier.Proofs.Varint

/-!
# How long a built record is written

Putting a value into a record lengthens its written form by no more than the written entry.  The
entry of a text is at most twelve octets longer than the text, that of an identifier has 39 octets,
and that of a record is at most twelve octets longer than the record.
-/

namespace EventCourier

/-- The written form of the record has at most so many octets. -/
def Record.WrittenWithin (count : Nat) (record : Record) : Prop :=
  record.written.length ≤ count

namespace Record

theorem writtenWithin_empty : empty.WrittenWithin 0 := by
  rw [WrittenWithin, written_eq]
  exact Nat.le_refl 0

theorem length_entriesWritten_cons (entry : UInt32 × Value) (rest : List (UInt32 × Value)) :
    (entriesWritten (entry :: rest)).length =
      (entryWritten entry).length + (entriesWritten rest).length := by
  rw [entriesWritten, List.flatMap_cons, List.length_append]
  rfl

end Record

theorem Entries.length_written_insert_le
    {low : Nat} {id : UInt32} (value : Value) (entries : Entries low) (above : low ≤ id.toNat) :
    (Record.entriesWritten (entries.insert id value above).toList).length ≤
      (Record.entriesWritten entries.toList).length + (Record.entryWritten (id, value)).length := by
  induction entries with
  | nil =>
      simp only [insert, toList, Record.length_entriesWritten_cons]
      omega
  | cons other aboveOther held rest ih =>
      unfold insert
      split
      · simp only [toList, Record.length_entriesWritten_cons]
        omega
      next hnotBefore =>
        split
        next hsame =>
          subst hsame
          simp only [toList, Record.length_entriesWritten_cons]
          omega
        next hdifferent =>
          have hrest := ih (above_of_ne hnotBefore hdifferent)
          simp only [toList, Record.length_entriesWritten_cons]
          omega

namespace Record

section Built

variable {record : Record} {count extent : Nat} {id : UInt32}

theorem WrittenWithin.insert
    {value : Value} (hrecord : record.WrittenWithin count)
    (hentry : (entryWritten (id, value)).length ≤ extent) :
    (record.insert id value).WrittenWithin (count + extent) := by
  have hinsert := record.held.length_written_insert_le value (Nat.zero_le id.toNat)
  rw [WrittenWithin, written_eq, entries] at hrecord ⊢
  dsimp only [Record.insert]
  omega

theorem WrittenWithin.insertIfSome
    {value : Option Value} (hrecord : record.WrittenWithin count)
    (hentry : ∀ held ∈ value, (entryWritten (id, held)).length ≤ extent) :
    (record.insertIfSome id value).WrittenWithin (count + extent) := by
  cases value with
  | none => exact Nat.le_trans hrecord (Nat.le_add_right count extent)
  | some held => exact hrecord.insert (hentry held rfl)

end Built

/-! ## Entries -/

section Entries

variable {id : UInt32} {count : Nat}

theorem length_entryWritten (hid : id < 128) (value : Value) :
    (entryWritten (id, value)).length = value.piece.encode.length + 2 := by
  have hfront := Varint.length_encode_of_lt (UInt32.lt_iff_toNat_lt.mp hid)
  rw [entryWritten_eq, List.length_append, List.length_cons]
  omega

/-- A length of at most ten groups takes at most ten octets. -/
theorem length_entryWritten_block_le
    {value : Value} {octets : Bytes} (hid : id < 128) (hpiece : value.piece = .block octets)
    (hoctets : octets.length ≤ count) (hcount : count < 128 ^ 10) :
    (entryWritten (id, value)).length ≤ count + 12 := by
  have hsize := Varint.length_encode_le_iff.mpr (Nat.lt_of_le_of_lt hoctets hcount)
  rw [length_entryWritten hid, hpiece, Piece.encode, List.length_append]
  omega

theorem length_entryWritten_text_le
    {s : String} (hid : id < 128) (hs : (Text.toUtf8 s).length ≤ count)
    (hcount : count < 128 ^ 10) : (entryWritten (id, .text s)).length ≤ count + 12 :=
  length_entryWritten_block_le hid (by rw [Value.piece]) hs hcount

theorem length_entryWritten_optionalText_le
    {s : Option String} (hid : id < 128) (hs : ∀ t ∈ s, (Text.toUtf8 t).length ≤ count)
    (hcount : count < 128 ^ 10) :
    ∀ held ∈ s.map Value.text, (entryWritten (id, held)).length ≤ count + 12 := by
  intro held hheld
  obtain ⟨t, ht, rfl⟩ := Option.mem_map.mp hheld
  exact length_entryWritten_text_le hid (hs t ht) hcount

theorem length_entryWritten_record_le
    {inner : Record} (hid : id < 128) (hinner : inner.WrittenWithin count)
    (hcount : count < 128 ^ 10) : (entryWritten (id, .record inner)).length ≤ count + 12 :=
  length_entryWritten_block_le hid (by rw [Value.piece]) hinner hcount

theorem length_entryWritten_uuid (hid : id < 128) (identifier : Uuid) :
    (entryWritten (id, .uuid identifier)).length = 39 := by
  have htext := identifier.length_toUtf8_toText
  have hsize : (Varint.encode 36).length = 1 := Varint.length_encode_of_lt (by decide)
  rw [length_entryWritten hid, Value.uuid, Value.piece, Piece.encode, List.length_append, htext,
    hsize]

theorem length_entryWritten_bool (hid : id < 128) (b : Bool) :
    (entryWritten (id, .bool b)).length = 3 := by
  rw [length_entryWritten hid, Value.piece]
  rfl

theorem length_entryWritten_timestamp (hid : id < 128) (t : Instant) :
    (entryWritten (id, .timestamp t)).length = 10 := by
  rw [length_entryWritten hid, Value.piece]
  rfl

end Entries

end Record
end EventCourier
