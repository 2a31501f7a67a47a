/-!
# JSON documents

Schemas are described, events shown and settings given as JSON documents.  A document keeps what a
reader can tell apart: the order and the repetition of an object's members, whether a number is a
plain natural, and whether a string literal names a text at all.  The compact writer has no white
space and escapes only what it must.
-/

namespace EventCourier

inductive Json where
  | null
  | bool (b : Bool)
  /-- A number written without sign, fraction or exponent. -/
  | natural (n : Nat)
  /-- Any other number, as it is spelled. -/
  | number (literal : String)
  /-- A string; none when an escape in it names half a surrogate pair and so no text. -/
  | string (text : Option String)
  | array (items : List Json)
  /-- Members in their order, a key that names no text included. -/
  | object (members : List (Option String × Json))

namespace Json

def text (s : String) : Json := .string (some s)

def ofMembers (members : List (String × Json)) : Json :=
  .object (members.map fun (key, value) => (some key, value))

/-- A value, or null in its absence. -/
def ofOption (value : Option Json) : Json := value.getD .null

/-- How a character stands in a string: quote, backslash and the controls are escaped, and no
other. -/
def escapedChar (c : Char) : List Char :=
  if c = '"' then ['\\', '"']
  else if c = '\\' then ['\\', '\\']
  else if c = '\x08' then ['\\', 'b']
  else if c = '\x0c' then ['\\', 'f']
  else if c = '\n' then ['\\', 'n']
  else if c = '\r' then ['\\', 'r']
  else if c = '\t' then ['\\', 't']
  else if c.toNat < 0x20 then
    ['\\', 'u', '0', '0'] ++ [Nat.digitChar (c.toNat / 16), Nat.digitChar (c.toNat % 16)]
  else [c]

/-- A string literal; one that names no text is written as the replacement character. -/
def writeString (s : Option String) : String :=
  String.ofList ('"' :: ((s.getD "\ufffd").toList.flatMap escapedChar ++ ['"']))

mutual

def write (out : String) : Json → String
  | .null => out ++ "null"
  | .bool true => out ++ "true"
  | .bool false => out ++ "false"
  | .natural n => out ++ n.repr
  | .number literal => out ++ literal
  | .string s => out ++ writeString s
  | .array [] => out ++ "[]"
  | .array (item :: items) => (writeItems (write (out ++ "[") item) items).push ']'
  | .object [] => out ++ "\x7b\x7d"
  | .object (member :: members) =>
    (writeMembers (writeMember (out ++ "\x7b") member) members).push '\x7d'

/-- Appends further items of an array, each after a comma. -/
def writeItems (out : String) : List Json → String
  | [] => out
  | item :: items => writeItems (write (out ++ ",") item) items

/-- Appends a member: its key, a colon and its value. -/
def writeMember (out : String) : Option String × Json → String
  | (key, value) => write (out ++ writeString key ++ ":") value

/-- Appends further members of an object, each after a comma. -/
def writeMembers (out : String) : List (Option String × Json) → String
  | [] => out
  | member :: members => writeMembers (writeMember (out ++ ",") member) members

end

def compact (doc : Json) : String := write "" doc

end Json
end EventCourier
