import EventCourier.Proofs.Json.Settings
import EventCourier.Proofs.Outbox.RoundTrip
import EventCourier.Proofs.Outbox.Source
import EventCourier.Proofs.Text.Whitespace

/-!
# Blank texts in a configuration

Variables never make a configuration with a blank text in it, because a variable that is blank is
refused.  A document is not held to that: whatever texts it sets are taken, and an empty source then
keeps every message from being made.
-/

namespace EventCourier
namespace Outbox
namespace Config

/-- No text of the configuration is blank. -/
structure Labels (config : Config) : Prop where
  source : Text.isBlank config.source = false
  environment : Text.isBlank config.environment = false
  topicOverride : ∀ topic ∈ config.topicOverride, Text.isBlank topic = false

/-- The texts that are set. -/
structure Given where
  source : Option String := none
  environment : Option String := none
  topic : Option String := none

namespace Given

structure NoneBlank (given : Given) : Prop where
  source : ∀ s ∈ given.source, Text.isBlank s = false
  environment : ∀ s ∈ given.environment, Text.isBlank s = false
  topic : ∀ s ∈ given.topic, Text.isBlank s = false

def config (given : Given) : Config :=
  let defaults : Config := {}
  { source := given.source.getD defaults.source
    environment := given.environment.getD defaults.environment
    topicOverride := given.topic }

def trimmed (given : Given) : Given where
  source := given.source.map Text.trim
  environment := given.environment.map Text.trim
  topic := given.topic.map Text.trim

/-- The texts that variables set. -/
def ofVariables (env : Variables) : Given where
  source := env "EVENTWIRE_SOURCE"
  environment := env "EVENTWIRE_ENVIRONMENT"
  topic := env "EVENTWIRE_TOPIC"

def settings (given : Given) : List (String × Option Json) :=
  [("source", given.source.map Json.text), ("environment", given.environment.map Json.text),
    ("topic", given.topic.map Json.text)]

def InDocument (given : Given) (text : String) : Prop :=
  ∃ doc, Json.read? text = some doc ∧ doc.Sets given.settings

theorem noneBlank_trimmed_iff {given : Given} : given.trimmed.NoneBlank ↔ given.NoneBlank := by
  have htrimmed : ∀ text : Option String, (∀ s ∈ text.map Text.trim, Text.isBlank s = false) ↔
      ∀ s ∈ text, Text.isBlank s = false := by
    intro text
    cases text <;> simp [Text.isBlank_trim]
  constructor
  · intro h
    exact ⟨(htrimmed _).mp h.source, (htrimmed _).mp h.environment, (htrimmed _).mp h.topic⟩
  · intro h
    exact ⟨(htrimmed _).mpr h.source, (htrimmed _).mpr h.environment, (htrimmed _).mpr h.topic⟩

/-- The defaults are not blank, so only a text that is set can be. -/
theorem labels_config_iff {given : Given} : given.config.Labels ↔ given.NoneBlank := by
  have hset : ∀ (text : Option String) (default : String), Text.isBlank default = false →
      (Text.isBlank (text.getD default) = false ↔ ∀ s ∈ text, Text.isBlank s = false) := by
    intro text default hdefault
    cases text <;> simp [hdefault]
  have hsource := hset given.source "user" (by decide)
  have henvironment := hset given.environment "dev" (by decide)
  constructor
  · intro h
    exact ⟨hsource.mp h.source, henvironment.mp h.environment, h.topicOverride⟩
  · intro h
    exact ⟨hsource.mpr h.source, henvironment.mpr h.environment, h.topic⟩

end Given

theorem Labels.source_ne_empty
    {config : Config} (hlabels : config.Labels) : config.source ≠ "" := by
  intro hempty
  have hblank := hlabels.source
  rw [hempty] at hblank
  cases hblank

/-! ## Variables -/

theorem value?_eq_ok_iff {env : Variables} {key : String} {value : Option String} :
    value? env key = .ok value ↔
      (∀ raw ∈ env key, Text.isBlank raw = false) ∧ value = (env key).map Text.trim := by
  unfold value?
  cases env key with
  | none => simp [@eq_comm _ value]
  | some raw => cases hblank : Text.isBlank raw <;> simp [hblank, @eq_comm _ value]

theorem ofVariables_eq_ok_iff {env : Variables} {config : Config} :
    ofVariables env = .ok config ↔
      (Given.ofVariables env).NoneBlank ∧ config = (Given.ofVariables env).trimmed.config := by
  simp only [ofVariables, bind_eq_ok_iff, value?_eq_ok_iff, pure_eq_ok_iff]
  constructor
  · rintro ⟨_, ⟨hsource, rfl⟩, _, ⟨henvironment, rfl⟩, _, ⟨htopic, rfl⟩, rfl⟩
    exact ⟨⟨hsource, henvironment, htopic⟩, rfl⟩
  · rintro ⟨h, rfl⟩
    exact ⟨_, ⟨h.source, rfl⟩, _, ⟨h.environment, rfl⟩, _, ⟨h.topic, rfl⟩, rfl⟩

theorem exists_ofVariables_iff {env : Variables} :
    (∃ config, ofVariables env = .ok config) ↔ (Given.ofVariables env).NoneBlank := by
  simp only [ofVariables_eq_ok_iff]
  constructor
  · intro h
    rcases h with ⟨_, hnone, _⟩
    exact hnone
  · intro hnone
    exact ⟨_, hnone, rfl⟩

/-! ## Documents -/

theorem member?_text (default : String) (value : Option String) :
    member? default (value.map Json.text) = some (value.getD default) := by
  cases value <;> rfl

theorem Given.InDocument.ofText_eq
    {given : Given} {text : String} (htext : given.InDocument text) :
    ofText text = .ok given.config := by
  rcases htext with ⟨doc, hread, hsets⟩
  have hsettings := Json.settings?_of_sets hsets
  have htopic : Json.optional? Json.text? (given.topic.map Json.text) = some given.topic := by
    cases given.topic <;> rfl
  have hconfig : ofJson? doc = some given.config := by
    unfold ofJson?
    simp only [Given.settings, List.map_cons, List.map_nil] at hsettings
    rw [hsettings]
    dsimp only [Option.bind_eq_bind, Option.bind_some]
    rw [member?_text, member?_text, htopic]
    rfl
  rw [ofText, settingsOfText_of_read? hread, ofJson, hconfig]

theorem Given.exists_document (given : Given) : ∃ text, given.InDocument text := by
  apply Json.exists_text_of_settings
  · simp [Given.settings]
  · have htext : ∀ value : Option String, ∀ doc ∈ value.map Json.text, doc.Plain :=
      fun _ => Json.plain_of_mem_map .text
    simp only [Given.settings, List.forall_mem_cons]
    exact ⟨htext _, htext _, htext _, List.forall_mem_nil _⟩

/-- What loads from variables labels messages, and no message fails for its source then.  A document
may set any texts and loads with them; it agrees with variables that have the same texts, and labels
messages, if none of the texts is blank and not else.  Where the source is empty, what would have
been a message is refused for it. -/
theorem blank_only_from_documents
    (env : Variables) (given : Given) (factory : Factory) (event : User.Event)
    (correlationId : Uuid) :
    (∀ config, ofVariables env = .ok config → config.Labels) ∧
      (factory.config.Labels → factory.createMessage event correlationId ≠
        .error (.encoding (.envelopeFieldEmpty "source"))) ∧
      (∃ text, given.InDocument text) ∧
      (∀ text, given.InDocument text →
        ofText text = .ok given.config ∧ (given.config.Labels ↔ given.NoneBlank) ∧
          (given = Given.ofVariables env →
            (((∃ config, ofVariables env = .ok config) ↔ ∃ config, ofText text = .ok config) ↔
              given.NoneBlank))) ∧
      ∀ message, factory.createMessage event correlationId = .ok message →
        (factory.withSource "").createMessage event correlationId =
          .error (.encoding (.envelopeFieldEmpty "source")) := by
  refine ⟨?_, ?_, given.exists_document, ?_, ?_⟩
  · intro config hloads
    rcases ofVariables_eq_ok_iff.mp hloads with ⟨hnone, rfl⟩
    exact Given.labels_config_iff.mpr (Given.noneBlank_trimmed_iff.mpr hnone)
  · intro hlabels hrefused
    exact hlabels.source_ne_empty (Factory.source_eq_empty_of_createMessage hrefused)
  · intro text htext
    refine ⟨htext.ofText_eq, Given.labels_config_iff, ?_⟩
    intro hsame
    subst hsame
    have hloads : ∃ config, ofText text = .ok config := ⟨_, htext.ofText_eq⟩
    rw [exists_ofVariables_iff, iff_true_right hloads]
  · intro message hcreated
    exact Factory.createMessage_withSource_empty hcreated

/-! ## An empty source -/

theorem exists_factory :
    ∃ factory : Factory, factory.config = { source := "audit" } ∧
      ∃ message, factory.createMessage Factory.moving Factory.mover = .ok message := by
  rcases User.exists_codec {} with ⟨eventCodec, hcodec⟩
  have hmessage : ∃ message, Factory.createMessage
      ⟨eventCodec, { source := "audit" }, ⟨7, 0, by decide⟩⟩ Factory.moving Factory.mover =
        .ok message :=
    Factory.exists_message hcodec Factory.within_moving (by decide) ⟨1, rfl⟩ (by decide) _ _ _
  exact ⟨⟨eventCodec, { source := "audit" }, ⟨7, 0, by decide⟩⟩, rfl, hmessage⟩

def auditVariables : Variables
  | "EVENTWIRE_SOURCE" => some "\u2003audit\n"
  | _ => none

def auditText : String := "\x7b\"topic\": \" \", \"source\": \"audit\"\x7d"

theorem blank_only_from_documents_audit :
    ofVariables auditVariables = .ok { source := "audit" } ∧
      ofText auditText = .ok { source := "audit", topicOverride := some " " } ∧
      ∃ factory : Factory, factory.config = { source := "audit" } ∧
        (∃ message, factory.createMessage Factory.moving Factory.mover = .ok message) ∧
        factory.createMessage Factory.moving Factory.mover ≠
          .error (.encoding (.envelopeFieldEmpty "source")) ∧
        (factory.withSource "").createMessage Factory.moving Factory.mover =
          .error (.encoding (.envelopeFieldEmpty "source")) := by
  rcases exists_factory with ⟨factory, hconfig, message, hcreated⟩
  rcases blank_only_from_documents auditVariables ⟨some "audit", none, some " "⟩ factory
    Factory.moving Factory.mover with ⟨hvariables, hnever, _, hdocuments, hsourceless⟩
  have hloads : ofVariables auditVariables = .ok { source := "audit" } := by decide
  have hlabels := hvariables _ hloads
  have hset : Given.InDocument ⟨some "audit", none, some " "⟩ auditText := by
    refine ⟨.object [(some "topic", .text " "), (some "source", .text "audit")], by cbv, _, rfl,
      by simp, ?_⟩
    simp [Given.settings]
  exact ⟨hloads, (hdocuments _ hset).1, factory, hconfig, ⟨message, hcreated⟩,
    hnever (hconfig ▸ hlabels), hsourceless message hcreated⟩

/-- A document that sets an empty source. -/
def sourcelessText : String := "\x7b\"source\":\"\"\x7d"

def sourcelessVariables : Variables
  | "EVENTWIRE_SOURCE" => some ""
  | _ => none

/-- An empty source is refused in a variable and loads from a document, and then a message cannot
be made. -/
theorem sourceless_only_from_document :
    (¬ ∃ config, ofVariables sourcelessVariables = .ok config) ∧
      ∃ config : Config, ofText sourcelessText = .ok config ∧ ¬ config.Labels ∧
        ∃ factory : Factory, (factory.withSource config.source).createMessage Factory.moving
          Factory.mover = .error (.encoding (.envelopeFieldEmpty "source")) := by
  have hrefused : ofVariables sourcelessVariables = .error ⟨"EVENTWIRE_SOURCE", .blank⟩ := by decide
  have hloads : ofText sourcelessText = .ok { source := "" } := by cbv
  have hblank : ¬ ({ source := "" } : Config).Labels := by
    intro hlabels
    exact hlabels.source_ne_empty rfl
  rcases exists_factory with ⟨factory, _, message, hcreated⟩
  refine ⟨?_, _, hloads, hblank, factory, Factory.createMessage_withSource_empty hcreated⟩
  intro h
  rcases h with ⟨config, hloaded⟩
  rw [hrefused] at hloaded
  cases hloaded

end Config
end Outbox
end EventCourier
