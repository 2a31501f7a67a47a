import EventCourier.Schema
import EventCourier.Text.Quoted

/-!
# Tables of schemas

A registry maps each event type of a family to its schema.  It comes from a builder that takes one
schema for every event type and none for any other, so a missing schema shows when the table is
built and not when the first event is sent.
-/

namespace EventCourier

structure Registry where
  /-- The schemas, in ascending order of their event types. -/
  schemas : List Schema
  ascending : schemas.Pairwise fun a b => a.eventType < b.eventType

namespace Registry

def empty : Registry := ⟨[], .nil⟩

/-- Puts a schema in its place by event type.  First comes the schema of the same event type that it
replaces, if there is one. -/
def insertSchema (schema : Schema) : List Schema → Option Schema × List Schema
  | [] => (none, [schema])
  | other :: rest =>
    if schema.eventType < other.eventType then (none, schema :: other :: rest)
    else if schema.eventType = other.eventType then (some other, schema :: rest)
    else
      let (replaced, inserted) := insertSchema schema rest
      (replaced, other :: inserted)

theorem mem_insertSchema {schema found : Schema} {schemas : List Schema}
    (hfound : found ∈ (insertSchema schema schemas).2) : found = schema ∨ found ∈ schemas := by
  induction schemas with
  | nil => simpa [insertSchema] using hfound
  | cons other rest ih =>
    unfold insertSchema at hfound
    split at hfound
    · simpa using hfound
    · split at hfound
      · rcases List.mem_cons.mp hfound with rfl | hrest
        · exact .inl rfl
        · exact .inr (List.mem_cons_of_mem _ hrest)
      · rcases List.mem_cons.mp hfound with rfl | hrest
        · exact .inr (List.mem_cons_self ..)
        · exact (ih hrest).imp_right (List.mem_cons_of_mem _)

theorem ascending_insertSchema (schema : Schema) {schemas : List Schema}
    (hascending : schemas.Pairwise fun a b => a.eventType < b.eventType) :
    (insertSchema schema schemas).2.Pairwise fun a b => a.eventType < b.eventType := by
  induction schemas with
  | nil => simp [insertSchema]
  | cons other rest ih =>
    obtain ⟨hother, hrest⟩ := List.pairwise_cons.mp hascending
    unfold insertSchema
    split
    · rename_i hbefore
      refine List.pairwise_cons.mpr ⟨fun later hlater => ?_, hascending⟩
      rcases List.mem_cons.mp hlater with rfl | hlater
      · exact hbefore
      · exact String.lt_trans hbefore (hother later hlater)
    · rename_i hnotBefore
      split
      · rename_i hsame
        exact List.pairwise_cons.mpr ⟨fun later hlater => hsame ▸ hother later hlater, hrest⟩
      · rename_i hdifferent
        have hafter : other.eventType < schema.eventType :=
          Std.not_le.mp fun hle =>
            hdifferent (String.le_antisymm hle (String.not_lt.mp hnotBefore))
        refine List.pairwise_cons.mpr ⟨fun later hlater => ?_, ih hrest⟩
        rcases mem_insertSchema hlater with rfl | hlater
        · exact hafter
        · exact hother later hlater

/-- The table with a schema under its event type.  First comes the schema that it replaces there, if
there is one. -/
def insert (registry : Registry) (schema : Schema) : Option Schema × Registry :=
  ((insertSchema schema registry.schemas).1,
    ⟨(insertSchema schema registry.schemas).2, ascending_insertSchema schema registry.ascending⟩)

/-- The schema of an event type, if there is one. -/
def find? (registry : Registry) (eventType : String) : Option Schema :=
  registry.schemas.find? (·.eventType == eventType)

def lookup (registry : Registry) (eventType : String) : Except CodecError Schema :=
  match registry.find? eventType with
  | some schema => .ok schema
  | none => .error (.unknownEventType eventType)

def contains (registry : Registry) (eventType : String) : Bool :=
  (registry.find? eventType).isSome

/-- The registered event types, in ascending order. -/
def eventTypes (registry : Registry) : List String :=
  registry.schemas.map (·.eventType)

def size (registry : Registry) : Nat := registry.schemas.length

/-- The descriptors of all schemas, in ascending order of the event types. -/
def describe (registry : Registry) : Json :=
  .array (registry.schemas.map Schema.descriptor)

/-- A registry shown for inspection: its event types. -/
def inspect (registry : Registry) : String :=
  "SchemaRegistry \x7b event_types: " ++ Text.quotedList registry.eventTypes ++ " \x7d"

/-- A table that is being filled, for a family with the given event types. -/
structure Builder where
  family : List String
  registered : Registry

def builder (family : List String) : Builder := ⟨family, .empty⟩

/-- The table with another schema, which must be for an event type of the family and must not
replace one. -/
def Builder.register (builder : Builder) (schema : Schema) : Except CodecError Builder :=
  if schema.eventType ∉ builder.family then
    .error (.encoding (.foreignSchema schema.eventType))
  else
    let (replaced, registered) := builder.registered.insert schema
    if replaced.isSome then .error (.encoding (.repeatedSchema schema.eventType))
    else .ok { builder with registered }

/-- The registry, if no event type of the family is left without a schema. -/
def Builder.build (builder : Builder) : Except CodecError Registry :=
  match builder.family.find? fun eventType => !builder.registered.contains eventType with
  | some missing => .error (.unknownEventType missing)
  | none => .ok builder.registered

/-- The registry for a family with the given schemas, registered one after the other. -/
def ofSchemas (family : List String) (schemas : List Schema) : Except CodecError Registry := do
  let filled ← schemas.foldlM Builder.register (builder family)
  filled.build

end Registry
end EventCourier
