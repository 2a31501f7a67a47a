import EventCourier.Json.Fields
import EventCourier.Settings
import EventCourier.Text.Quoted
import EventCourier.Text.Whitespace

/-!
# Where messages are published

The configuration of the outbox labels every envelope with its source and says to which topic
messages go.  Without a topic of its own, the topic follows from the deployment environment.
-/

namespace EventCourier
namespace Outbox

structure Config where
  /-- The producing service, named in every envelope. -/
  source : String := "user"
  /-- The deployment environment, which the derived topic begins with. -/
  environment : String := "dev"
  /-- A topic that takes the place of the derived one. -/
  topicOverride : Option String := none
  deriving DecidableEq, Repr

namespace Config

def topic (config : Config) : String :=
  config.topicOverride.getD (config.environment ++ ".user.domain-event.user.v1")

/-- The trimmed value of a variable, which must not be blank when it is set. -/
def value? (env : Variables) (key : String) : Except ConfigError (Option String) :=
  match env key with
  | none => .ok none
  | some raw =>
    if Text.isBlank raw then .error ⟨key, .blank⟩ else .ok (some (Text.trim raw))

def ofVariables (env : Variables) : Except ConfigError Config := do
  let defaults : Config := {}
  let source ← value? env "EVENTWIRE_SOURCE"
  let environment ← value? env "EVENTWIRE_ENVIRONMENT"
  let topicOverride ← value? env "EVENTWIRE_TOPIC"
  return {
    source := source.getD defaults.source
    environment := environment.getD defaults.environment
    topicOverride }

/-- A text in a member, or a default in its absence. -/
def member? (default : String) : Option Json → Option String
  | none => some default
  | some doc => doc.text?

/-- The configuration that a document sets; its texts are taken as they are. -/
def ofJson? (doc : Json) : Option Config := do
  let defaults : Config := {}
  let fields ← doc.settings? ["source", "environment", "topic"]
  match fields with
  | [source, environment, topic] =>
    return {
      source := ← member? defaults.source source
      environment := ← member? defaults.environment environment
      topicOverride := ← Json.optional? Json.text? topic }
  | _ => none

def ofJson (doc : Json) : Except DocumentError Config :=
  match ofJson? doc with
  | some config => .ok config
  | none => .error .malformed

def ofText (text : String) : Except DocumentError Config :=
  settingsOfText ofJson text

def inspect (config : Config) : String :=
  let topic :=
    match config.topicOverride with
    | some topic => "Some(" ++ Text.quoted topic ++ ")"
    | none => "None"
  "OutboxConfig \x7b source: " ++ Text.quoted config.source ++
    ", environment: " ++ Text.quoted config.environment ++ ", topic: " ++ topic ++ " \x7d"

end Config
end Outbox
end EventCourier
