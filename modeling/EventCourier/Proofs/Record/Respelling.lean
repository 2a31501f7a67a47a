import EventCourier.Proofs.Record.Admission

/-!
# Identifiers in records

Some fields of a layout hold identifiers, as their names say, and an identifier has many spellings.
Respelling a record puts every identifier in it, at every level, into the spelling in which
identifiers are written, and leaves all else.  A record is respelled field by field.
-/

namespace EventCourier

/-- A text that spells an identifier, in the spelling in which that identifier is written. -/
def Uuid.respelled (s : String) : String :=
  match ofText s with
  | .ok identifier => identifier.toText
  | .error _ => s

mutual

def Value.respelled (names : List String) : Option Field → Value → Value
  | some field, .text s => .text (if field.name ∈ names then Uuid.respelled s else s)
  | some ⟨_, _, _, _, _, some nested⟩, .record inner => .record (inner.respelled names nested)
  | _, value => value

def Entries.respelled (names : List String) (layout : Layout) :
    {low : Nat} → Entries low → Entries low
  | _, .nil => .nil
  | _, .cons id above value rest =>
    .cons id above (value.respelled names (layout.field? id)) (rest.respelled names layout)

/-- The record with the identifiers in fields of the given names as they are written. -/
def Record.respelled (names : List String) (layout : Layout) : Record → Record
  | ⟨held⟩ => ⟨held.respelled names layout⟩

end

/-- Every text in a field of one of the names, at every level, spells an identifier. -/
def Record.SpellsIdentifiers (names : List String) (layout : Layout) (record : Record) : Prop :=
  Throughout (fun layout record => ∀ field ∈ layout.fields, field.name ∈ names →
      ∀ s, record.get? field.id = some (.text s) → ∃ identifier, Uuid.ofText s = .ok identifier)
    layout record

section Respelling

variable {names : List String} {layout : Layout} {field : Field} {record : Record}

namespace Value

theorem respelled_text_of_notMem (hname : field.name ∉ names) (s : String) :
    (text s).respelled names (some field) = .text s := by
  rw [respelled, if_neg hname]

theorem respelled_text_of_ofText
    {s : String} {identifier : Uuid} (hname : field.name ∈ names)
    (hspells : Uuid.ofText s = .ok identifier) :
    (text s).respelled names (some field) = .uuid identifier := by
  rw [respelled, if_pos hname, Uuid.respelled, hspells]
  rfl

theorem respelled_record
    {nested : Layout} (hnested : field.layout = some nested) (inner : Record) :
    (Value.record inner).respelled names (some field) = .record (inner.respelled names nested) := by
  rcases field with ⟨_, _, _, _, _, layout⟩
  subst hnested
  rw [respelled]

theorem respelled_bool (b : Bool) : (bool b).respelled names (some field) = .bool b := by
  simp [respelled]

theorem respelled_timestamp (t : Instant) :
    (timestamp t).respelled names (some field) = .timestamp t := by
  simp [respelled]

end Value

theorem Entries.lookup_respelled {low : Nat} (entries : Entries low) (id : UInt32) :
    (entries.respelled names layout).toList.lookup id =
      (entries.toList.lookup id).map (Value.respelled names (layout.field? id)) := by
  induction entries with
  | nil =>
      rw [Entries.respelled]
      rfl
  | cons other above value rest ih =>
      rw [Entries.respelled, toList, toList, List.lookup_cons, List.lookup_cons]
      split
      next hsame => rw [beq_iff_eq.mp hsame, Option.map_some]
      next => exact ih

namespace Record

theorem get?_respelled (record : Record) (id : UInt32) :
    (record.respelled names layout).get? id =
      (record.get? id).map (Value.respelled names (layout.field? id)) := by
  rcases record with ⟨held⟩
  rw [respelled]
  exact held.lookup_respelled id

/-- A record that has only fields of the layout, and in them what the other has there but for the
spelling of identifiers, is that record respelled. -/
theorem eq_respelled_of_fields
    {made : Record} (hascending : layout.Ascending) (hmade : made.Declared layout)
    (hdeclared : record.Declared layout)
    (hfields : ∀ field ∈ layout.fields,
      made.get? field.id = (record.get? field.id).map (Value.respelled names (some field))) :
    made = record.respelled names layout := by
  apply ext_get?
  intro id
  rw [get?_respelled]
  cases hfield : layout.field? id with
  | some field =>
      obtain ⟨hmem, rfl⟩ := (Layout.field?_eq_some_iff hascending).mp hfield
      exact hfields field hmem
  | none =>
      have hunknown : ∀ field ∈ layout.fields, id ≠ field.id := fun field hmem =>
        ((Layout.field?_eq_none_iff hascending).mp hfield field hmem).symm
      rw [(declared_iff_get? hascending).mp hmade id hunknown,
        (declared_iff_get? hascending).mp hdeclared id hunknown, Option.map_none]

theorem SpellsIdentifiers.exists_names
    (hspells : record.SpellsIdentifiers names layout) (hmem : field ∈ layout.fields)
    (hname : field.name ∈ names) (htext : ∃ s, record.get? field.id = some (.text s)) :
    ∃ identifier, record.Names field.id identifier := by
  obtain ⟨s, hget⟩ := htext
  obtain ⟨identifier, hidentifier⟩ := hspells.here field hmem hname s hget
  exact ⟨identifier, s, hget, hidentifier⟩

end Record

end Respelling
end EventCourier
