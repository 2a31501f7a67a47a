import EventCourier.Kind
import EventCourier.Schema.Fault

/-!
# Layouts of records

A layout lists the fields that a record may have, in ascending order of their ids, and the ids of
fields that it no longer has.  A declaration may list both in any order; arranging it puts them in
order at every level of nesting.
-/

namespace EventCourier

mutual

structure Field where
  id : UInt32
  name : String
  kind : Kind
  required : Bool := true
  /-- The schema version that introduced the field. -/
  since : UInt32 := 1
  layout : Option Layout := none

/-- The fields that a record may have, and the ids of those it no longer has. -/
structure Layout where
  fields : List Field := []
  retired : List UInt32 := []

end

namespace Layout

mutual

/-- The layout with fields and retired ids in ascending order at every level; fields of one id
keep their order. -/
def arranged : Layout → Layout
  | ⟨fields, retired⟩ =>
    ⟨(arrangedFields fields).mergeSort (fun a b => a.id ≤ b.id),
      retired.mergeSort (fun a b => a ≤ b)⟩

def arrangedFields : List Field → List Field
  | [] => []
  | field :: rest => arrangedField field :: arrangedFields rest

def arrangedField : Field → Field
  | ⟨id, name, kind, required, since, layout⟩ =>
    ⟨id, name, kind, required, since,
      match layout with
      | none => none
      | some nested => some (arranged nested)⟩

end

/-- Where binary search for an id ends in a window of `size` fields from the place `base` on.  Of a
window of several fields the back is kept, from the field in the middle on, unless the id of that
field is too high. -/
def searchFrom (fields : List Field) (id : UInt32) (base size : Nat) : Nat :=
  if size ≤ 1 then base
  else
    let middle := base + size / 2
    if fields[middle]?.any fun field => id < field.id then
      searchFrom fields id base (size - size / 2)
    else searchFrom fields id middle (size - size / 2)
termination_by size

/-- The field with an id: the field at which binary search ends, if it has the id. -/
def field? (layout : Layout) (id : UInt32) : Option Field :=
  layout.fields[searchFrom layout.fields id 0 layout.fields.length]?.filter (·.id == id)

/-- Whether a payload written at a version must carry some field. -/
def hasRequiredAt (layout : Layout) (version : UInt32) : Bool :=
  layout.fields.any fun field => field.required && field.since ≤ version

mutual

/-- Checks a layout against the rules for a schema at a version, field by field and each field
with what it holds; `path` says where the layout stands. -/
def check (version : UInt32) (path : String) : Layout → Except SchemaFault Unit
  | ⟨fields, retired⟩ => checkFields version path retired [] fields

def checkFields (version : UInt32) (path : String) (retired seen : List UInt32) :
    List Field → Except SchemaFault Unit
  | [] => .ok ()
  | field :: rest =>
    match checkField version path retired seen field with
    | .error fault => .error fault
    | .ok () => checkFields version path retired (field.id :: seen) rest

def checkField (version : UInt32) (path : String) (retired seen : List UInt32) :
    Field → Except SchemaFault Unit
  | ⟨id, name, kind, required, since, layout⟩ =>
    let here := path ++ "." ++ name
    if id = 0 then .error (.reservedId here)
    else if id ∈ seen then .error (.duplicateId here id)
    else if id ∈ retired then .error (.retiredId here id)
    else if since = 0 ∨ version < since then .error (.sinceOutside here since version)
    else if 1 < since ∧ required = true then .error (.lateRequired here)
    else
      match layout with
      | some nested =>
        if kind = .record then check version here nested else .error (.layoutUnexpected here)
      | none => if kind = .record then .error (.layoutMissing here) else .ok ()

end

end Layout
end EventCourier
