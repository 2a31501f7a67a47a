import EventCourier.Proofs.Registry
import EventCourier.Proofs.Schema.Declaring
import EventCourier.User.Codec

/-!
# The schemas of user events

The layout of every event type is in order and keeps the rules, so it can be declared at its
version, and the schemas of all event types make a table.  Under the name of an event type the
table has the schema with its version and its layout, and it has nothing under other names.
-/

namespace EventCourier
namespace User

namespace EventType

theorem arranged_layout (eventType : EventType) : eventType.layout.arranged = eventType.layout := by
  cases eventType <;> cbv

theorem checkSchema_layout (eventType : EventType) :
    checkSchema eventType.name eventType.version eventType.layout = .ok () := by
  cases eventType <;> cbv

/-- The schema that new payloads of an event type are written by. -/
def schema (eventType : EventType) : Schema where
  eventType := eventType.name
  version := eventType.version
  layout := eventType.layout
  ordered := ⟨eventType.layout, eventType.arranged_layout.symm⟩
  sound := eventType.checkSchema_layout

theorem declare_layout (eventType : EventType) :
    Schema.declare eventType.name eventType.version eventType.layout = .ok eventType.schema :=
  Schema.declare_eq_ok_iff.mpr ⟨rfl, rfl, eventType.arranged_layout.symm⟩

theorem layout_sound (eventType : EventType) : eventType.layout.Sound eventType.version :=
  eventType.schema.layout_sound

theorem field?_own {eventType : EventType} {field : Field} (hown : field ∈ eventType.ownFields) :
    eventType.layout.field? field.id = some field := by
  rw [eventType.layout_sound.field?_eq_some_iff, layout, List.cons_append]
  exact ⟨List.mem_cons_of_mem _ (List.mem_append_left _ hown), rfl⟩

end EventType

theorem schemas_eq : schemas = .ok (EventType.all.map EventType.schema) := by
  simp only [schemas, Schema.report_eq_ok_iff.mpr (EventType.declare_layout _)]
  rfl

theorem find?_schemas (name : String) :
    (EventType.all.map EventType.schema).find? (·.eventType == name) =
      (EventType.ofName? name).map EventType.schema := by
  rw [List.find?_map]
  rfl

/-- The table of all event types is complete. -/
theorem exists_registry :
    ∃ filled, registry = .ok filled ∧
      ∀ name, filled.find? name = (EventType.ofName? name).map EventType.schema := by
  have hdistinct : (EventType.all.map EventType.schema).Pairwise
      fun a b => a.eventType ≠ b.eventType := by
    rw [List.pairwise_map]
    decide
  have hnames : Fact.family.eventTypes =
      (EventType.all.map EventType.schema).map Schema.eventType := by
    rw [List.map_map]
    rfl
  have hfilled : Registry.ofSchemas Fact.family.eventTypes (EventType.all.map EventType.schema) =
      .ok ((EventType.all.map EventType.schema).foldl Registry.having .empty) := by
    rw [Registry.ofSchemas_eq_ok_iff, hnames]
    exact ⟨fun schema hmem => List.mem_map_of_mem hmem, hdistinct,
      fun eventType hmem => List.mem_map.mp hmem, rfl⟩
  have hregistry : registry = Registry.ofSchemas Fact.family.eventTypes
      (EventType.all.map EventType.schema) := by
    rw [registry, schemas_eq]
    rfl
  refine ⟨_, hregistry.trans hfilled, fun name => ?_⟩
  rw [Registry.find?_of_ofSchemas hfilled, find?_schemas]

theorem eq_schema_of_lookup
    {filled : Registry} {eventType : EventType} {schema : Schema} (hfilled : registry = .ok filled)
    (hschema : filled.lookup eventType.name = .ok schema) : schema = eventType.schema := by
  obtain ⟨found, hfound, hfind⟩ := exists_registry
  obtain rfl := Except.ok.inj (hfilled.symm.trans hfound)
  rw [Registry.lookup_eq_ok_iff, hfind, EventType.ofName?_name] at hschema
  exact (Option.some.inj hschema).symm

/-- There is a codec of user events for any limits. -/
theorem exists_codec (limits : Limits) : ∃ eventCodec, codec limits = .ok eventCodec := by
  obtain ⟨filled, hfilled, _⟩ := exists_registry
  simp [codec, hfilled, bind, Except.bind, pure, Except.pure]

theorem codec_eq_ok {limits : Limits} {eventCodec : Codec Fact}
    (hcodec : codec limits = .ok eventCodec) :
    eventCodec.family = Fact.family ∧ eventCodec.limits = limits ∧
      ∀ name, eventCodec.registry.find? name = (EventType.ofName? name).map EventType.schema := by
  obtain ⟨filled, hfilled, hfind⟩ := exists_registry
  simp only [codec, bind_eq_ok_iff, hfilled, pure_eq_ok_iff] at hcodec
  obtain ⟨_, hsame, rfl⟩ := hcodec
  cases hsame
  exact ⟨rfl, rfl, hfind⟩

end User
end EventCourier
