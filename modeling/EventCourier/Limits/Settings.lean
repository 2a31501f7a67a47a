import EventCourier.Json.Fields
import EventCourier.Limits
import EventCourier.Settings
import EventCourier.Text.Whitespace

/-!
# Limits as settings

Limits that are not set keep their defaults.  No byte may be written or read under a byte limit of
zero, so such a limit is refused; a depth of zero only rules out nested records.
-/

namespace EventCourier
namespace Limits

/-- The limits, if neither byte limit is zero; the keys name the two in an error. -/
def nonZero (limits : Limits) (fieldKey payloadKey : String) : Except ConfigError Limits :=
  if limits.maxFieldBytes = 0 then .error ⟨fieldKey, .zero⟩
  else if limits.maxPayloadBytes = 0 then .error ⟨payloadKey, .zero⟩
  else .ok limits

/-- The number in a variable, or a default when it is not set. -/
def number (env : Variables) (key : String) (default : UInt64) :
    Except ConfigError UInt64 :=
  match env key with
  | none => .ok default
  | some raw =>
    match Text.readNumeral (Text.trim raw) with
    | .ok n => .ok n
    | .error fault => .error ⟨key, .notNatural fault⟩

def ofVariables (env : Variables) : Except ConfigError Limits := do
  let defaults : Limits := {}
  let maxFieldBytes ← number env "EVENTWIRE_MAX_FIELD_BYTES" defaults.maxFieldBytes
  let maxPayloadBytes ← number env "EVENTWIRE_MAX_PAYLOAD_BYTES" defaults.maxPayloadBytes
  let maxDepth ← number env "EVENTWIRE_MAX_DEPTH" defaults.maxDepth
  nonZero { maxFieldBytes, maxPayloadBytes, maxDepth }
    "EVENTWIRE_MAX_FIELD_BYTES" "EVENTWIRE_MAX_PAYLOAD_BYTES"

/-- A 64-bit natural in a member, or a default in its absence. -/
def member? (default : UInt64) : Option Json → Option UInt64
  | none => some default
  | some doc => (doc.natural? UInt64.size).map UInt64.ofNat

def numbersOfJson? (doc : Json) : Option Limits := do
  let defaults : Limits := {}
  let fields ← doc.settings? ["max_field_bytes", "max_payload_bytes", "max_depth"]
  match fields with
  | [maxFieldBytes, maxPayloadBytes, maxDepth] =>
    return {
      maxFieldBytes := ← member? defaults.maxFieldBytes maxFieldBytes
      maxPayloadBytes := ← member? defaults.maxPayloadBytes maxPayloadBytes
      maxDepth := ← member? defaults.maxDepth maxDepth }
  | _ => none

def ofJson (doc : Json) : Except DocumentError Limits :=
  match numbersOfJson? doc with
  | none => .error .malformed
  | some limits =>
    match limits.nonZero "max_field_bytes" "max_payload_bytes" with
    | .ok limits => .ok limits
    | .error error => .error (.setting error)

def ofText (text : String) : Except DocumentError Limits :=
  settingsOfText ofJson text

end Limits
end EventCourier
