import EventCourier.Json

/-!
# Values in JSON documents

A structured value is an object with its fields as members, in any order and among members of
other names, or an array of its fields in their order.  Each field is then read as what it must be.
-/

namespace EventCourier
namespace Json

/-- The value of a field among an object's members; none when the field is repeated. -/
def member? (members : List (Option String × Json)) (name : String) : Option (Option Json) :=
  match members.filter (·.1 == some name) with
  | [] => some none
  | [(_, value)] => some (some value)
  | _ => none

/-- The fields of an object: refused when a key names no text or a field is repeated. -/
def objectFields? (names : List String) (members : List (Option String × Json)) :
    Option (List (Option Json)) :=
  if members.all (·.1.isSome) then names.mapM (member? members) else none

def fields? (names : List String) : Json → Option (List (Option Json))
  | .object members => objectFields? names members
  | .array items => if items.length = names.length then some (items.map some) else none
  | _ => none

/-- The fields of a value that has a default for each: an array may end early. -/
def settings? (names : List String) : Json → Option (List (Option Json))
  | .object members => objectFields? names members
  | .array items =>
    if items.length ≤ names.length then
      some (items.map some ++ List.replicate (names.length - items.length) none)
    else none
  | _ => none

def text? : Json → Option String
  | .string s => s
  | _ => none

def bool? : Json → Option Bool
  | .bool b => some b
  | _ => none

def natural? (bound : Nat) : Json → Option Nat
  | .natural n => if n < bound then some n else none
  | _ => none

def items? : Json → Option (List Json)
  | .array items => some items
  | _ => none

def required? {α : Type} (read : Json → Option α) (field : Option Json) : Option α :=
  field.bind read

def optional? {α : Type} (read : Json → Option α) : Option Json → Option (Option α)
  | none => some none
  | some .null => some none
  | some value => (read value).map some

end Json
end EventCourier
