import EventCourier.Bytes
import EventCourier.Instant
import EventCourier.Kind
import EventCourier.Uuid

/-!
# Values and records

A payload is a record: values under numeric field ids.  A value may itself be a record.  Records
hold their values in ascending order of the ids: their type has room for no other.
-/

namespace EventCourier

mutual

inductive Value where
  | bool (b : Bool)
  | int (n : Int64)
  | text (s : String)
  | bytes (content : Bytes)
  | timestamp (t : Instant)
  | record (r : Record)

/-- Values under ids that ascend, from `low` on. -/
inductive Entries : Nat → Type where
  | nil {low : Nat} : Entries low
  | cons {low : Nat} (id : UInt32) (above : low ≤ id.toNat) (value : Value)
      (rest : Entries (id.toNat + 1)) : Entries low

/-- Values under ids, in ascending order of the ids. -/
structure Record where
  held : Entries 0

end

def Value.kind : Value → Kind
  | .bool _ => .bool
  | .int _ => .int
  | .text _ => .text
  | .bytes _ => .bytes
  | .timestamp _ => .timestamp
  | .record _ => .record

/-- An identifier as a value: its hyphenated text. -/
def Value.uuid (id : Uuid) : Value := .text id.toText

namespace Entries

def toList : {low : Nat} → Entries low → List (UInt32 × Value)
  | _, .nil => []
  | _, .cons id _ value rest => (id, value) :: rest.toList

theorem above_of_ne {id other : UInt32} (hnotBefore : ¬ id < other) (hdifferent : id ≠ other) :
    other.toNat + 1 ≤ id.toNat :=
  UInt32.lt_iff_toNat_lt.mp
    (UInt32.lt_of_le_of_ne (UInt32.not_lt.mp hnotBefore) (Ne.symm hdifferent))

/-- Puts a value in its place by id, over the value under the same id if there is one. -/
def insert (id : UInt32) (value : Value) :
    {low : Nat} → low ≤ id.toNat → Entries low → Entries low
  | _, above, .nil => .cons id above value .nil
  | _, above, .cons other aboveOther held rest =>
    if hbefore : id < other then
      .cons id above value (.cons other (UInt32.lt_iff_toNat_lt.mp hbefore) held rest)
    else if hsame : id = other then .cons other aboveOther value rest
    else .cons other aboveOther held (insert id value (above_of_ne hbefore hsame) rest)

end Entries

namespace Record

def empty : Record := ⟨.nil⟩

/-- The ids and their values, in ascending order of the ids. -/
def entries (record : Record) : List (UInt32 × Value) :=
  record.held.toList

def get? (record : Record) (id : UInt32) : Option Value :=
  record.entries.lookup id

def size (record : Record) : Nat := record.entries.length

def insert (record : Record) (id : UInt32) (value : Value) : Record :=
  ⟨record.held.insert id value (Nat.zero_le _)⟩

/-- The record with a value put under an id, if there is a value. -/
def insertIfSome (record : Record) (id : UInt32) (value : Option Value) : Record :=
  match value with
  | some value => record.insert id value
  | none => record

end Record
end EventCourier
