import EventCourier.Json.Reader
import EventCourier.Text.Numeral

/-!
# Settings

A program is set up by named variables or by a JSON document.  A value that is there but makes no
sense is an error that names the variable or the member it stands in.
-/

namespace EventCourier

/-- Named variables: the value of each that is set. -/
abbrev Variables := String → Option String

inductive SettingFault where
  | blank
  | zero
  | notNatural (fault : Text.NumeralFault)
  deriving DecidableEq, Repr

def SettingFault.message : SettingFault → String
  | .blank => "must not be blank"
  | .zero => "must be greater than zero"
  | .notNatural fault => "must be a non-negative integer: " ++ fault.message

structure ConfigError where
  key : String
  fault : SettingFault
  deriving DecidableEq, Repr

def ConfigError.message (error : ConfigError) : String :=
  "configuration error: " ++ error.key ++ ": " ++ error.fault.message

inductive DocumentError where
  /-- It is no document, or not of the right form. -/
  | malformed
  | setting (error : ConfigError)
  deriving DecidableEq, Repr

/-- The settings that the text of a document gives.  The document is made sense of as soon as it
ends, before it is seen whether anything follows. -/
def settingsOfText {α : Type} (read : Json → Except DocumentError α) (text : String) :
    Except DocumentError α :=
  match Json.readFirst? text with
  | none => .error .malformed
  | some (doc, rest) =>
    match read doc with
    | .error cause => .error cause
    | .ok settings => if rest.isEmpty then .ok settings else .error .malformed

end EventCourier
