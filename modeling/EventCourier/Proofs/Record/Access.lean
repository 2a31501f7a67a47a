import EventCourier.Proofs.Record.Conformance
import EventCourier.Proofs.Result
import EventCourier.Proofs.Uuid
import EventCourier.Record.Fields

/-!
# What a record gives back

Asking a record for a field succeeds exactly when the record has a value of the right kind under
the id.
-/

namespace EventCourier

namespace Record

section Fields

variable {record : Record} {id : UInt32} {name : String}

theorem required_eq_ok_iff {value : Value} :
    record.required id name = .ok value ↔ record.get? id = some value := by
  unfold required
  cases record.get? id <;> simp

/-- A reading of one kind gives back the value from which it takes its result. -/
theorem required_bind_eq_ok_iff
    {α : Type} {of : α → Value} {next : Value → Except DecodingError α} {a : α}
    (hnext : ∀ value, next value = .ok a ↔ value = of a) :
    (record.required id name >>= next) = .ok a ↔ record.get? id = some (of a) := by
  simp [bind_eq_ok_iff, required_eq_ok_iff, hnext]

theorem text_eq_ok_iff {s : String} :
    record.text id name = .ok s ↔ record.get? id = some (.text s) :=
  required_bind_eq_ok_iff fun value => by cases value <;> simp

theorem bool_eq_ok_iff {b : Bool} :
    record.bool id name = .ok b ↔ record.get? id = some (.bool b) :=
  required_bind_eq_ok_iff fun value => by cases value <;> simp

theorem timestamp_eq_ok_iff {t : Instant} :
    record.timestamp id name = .ok t ↔ record.get? id = some (.timestamp t) :=
  required_bind_eq_ok_iff fun value => by cases value <;> simp

theorem record_eq_ok_iff {inner : Record} :
    record.record id name = .ok inner ↔ record.get? id = some (.record inner) :=
  required_bind_eq_ok_iff fun value => by cases value <;> simp

theorem optionalText_eq_ok_iff {s : Option String} :
    record.optionalText id name = .ok s ↔ record.get? id = s.map .text := by
  unfold optionalText
  cases hget : record.get? id with
  | none => cases s <;> simp
  | some value => cases value <;> cases s <;> simp

/-- Under the id the record has a text that spells the identifier, in one of the forms that are
read. -/
def Names (record : Record) (id : UInt32) (identifier : Uuid) : Prop :=
  ∃ raw, record.get? id = some (.text raw) ∧ Uuid.ofText raw = .ok identifier

theorem names_of_get? {identifier : Uuid} (hget : record.get? id = some (.uuid identifier)) :
    record.Names id identifier :=
  ⟨_, hget, identifier.ofText_toText⟩

theorem Names.exists_ofText
    {identifier : Uuid} (hnames : record.Names id identifier) (s : String)
    (hget : record.get? id = some (.text s)) : ∃ found, Uuid.ofText s = .ok found := by
  obtain ⟨raw, hraw, hspells⟩ := hnames
  obtain rfl : raw = s := by simpa using hraw.symm.trans hget
  exact ⟨identifier, hspells⟩

theorem uuid_eq_ok_iff {identifier : Uuid} :
    record.uuid id name = .ok identifier ↔ record.Names id identifier := by
  simp only [uuid, bind_eq_ok_iff, text_eq_ok_iff]
  refine exists_congr fun raw => and_congr_right fun _ => ?_
  cases Uuid.ofText raw <;> simp

end Fields

end Record
end EventCourier
