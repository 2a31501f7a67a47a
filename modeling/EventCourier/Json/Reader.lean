import EventCourier.Json.Token

/-!
# Reading JSON documents

Tokens are assembled into a document with the containers that are still open on a stack.  Reading
a document stops right after it; whether more may follow is for the caller to say.
-/

namespace EventCourier
namespace Json

/-- A container that is still open: what it holds so far, last first. -/
inductive OpenContainer where
  | array (items : List Json)
  | object (members : List (Option String × Json)) (key : Option String)

/-- Assembles the next document from tokens, inside the open containers and after the value just
read in the innermost of them, if any. -/
def assemble : List OpenContainer → Option Json → List Token → Option (Json × List Token)
  | [], some value, rest => some (value, rest)
  | outer, none, .atom value :: rest => assemble outer (some value) rest
  | outer, none, .string s :: rest => assemble outer (some (.string s)) rest
  | outer, none, .openBracket :: .closeBracket :: rest => assemble outer (some (.array [])) rest
  | outer, none, .openBracket :: rest => assemble (.array [] :: outer) none rest
  | outer, none, .openBrace :: .closeBrace :: rest => assemble outer (some (.object [])) rest
  | outer, none, .openBrace :: .string key :: .colon :: rest =>
    assemble (.object [] key :: outer) none rest
  | .array items :: outer, some value, .comma :: rest =>
    assemble (.array (value :: items) :: outer) none rest
  | .array items :: outer, some value, .closeBracket :: rest =>
    assemble outer (some (.array (value :: items).reverse)) rest
  | .object members key :: outer, some value, .comma :: .string next :: .colon :: rest =>
    assemble (.object ((key, value) :: members) next :: outer) none rest
  | .object members key :: outer, some value, .closeBrace :: rest =>
    assemble outer (some (.object ((key, value) :: members).reverse)) rest
  | _, _, _ => none

/-- The document at the front of a text, and the tokens after it. -/
def readFirst? (text : String) : Option (Json × List Token) :=
  assemble [] none (tokens text)

/-- The document that a text is, with nothing but white space after it. -/
def read? (text : String) : Option Json :=
  match readFirst? text with
  | some (doc, []) => some doc
  | _ => none

end Json
end EventCourier
