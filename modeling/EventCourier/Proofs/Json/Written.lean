import EventCourier.Json
import Mathlib

/-!
# Compact documents

The writer appends to what is written already.  What a document adds is the same wherever it
stands: its characters, which are those of its parts with brackets around and commas between.
-/

namespace EventCourier
namespace Json

mutual

/-- The characters of a document. -/
def chars : Json → List Char
  | .null => ['n', 'u', 'l', 'l']
  | .bool true => ['t', 'r', 'u', 'e']
  | .bool false => ['f', 'a', 'l', 's', 'e']
  | .natural n => Nat.toDigits 10 n
  | .number literal => literal.toList
  | .string s => (writeString s).toList
  | .array [] => ['[', ']']
  | .array (item :: items) => '[' :: (chars item ++ itemChars items ++ [']'])
  | .object [] => ['\x7b', '\x7d']
  | .object (member :: members) =>
    '\x7b' :: (memberChars member ++ membersChars members ++ ['\x7d'])

/-- The characters of further items, a comma before each. -/
def itemChars : List Json → List Char
  | [] => []
  | item :: items => ',' :: (chars item ++ itemChars items)

def memberChars : Option String × Json → List Char
  | (key, value) => (writeString key).toList ++ ':' :: chars value

/-- The characters of further members, a comma before each. -/
def membersChars : List (Option String × Json) → List Char
  | [] => []
  | member :: members => ',' :: (memberChars member ++ membersChars members)

end

mutual

theorem toList_write (out : String) (doc : Json) :
    (write out doc).toList = out.toList ++ doc.chars := by
  cases doc with
  | null => simp [write, chars]
  | bool b => cases b <;> simp [write, chars]
  | natural n => simp [write, chars, Nat.repr]
  | number literal => simp [write, chars]
  | string s => simp [write, chars]
  | array items =>
      cases items with
      | nil => simp [write, chars]
      | cons item items => simp [write, chars, toList_writeItems, toList_write]
  | object members =>
      cases members with
      | nil => simp [write, chars]
      | cons member members => simp [write, chars, toList_writeMembers, toList_writeMember]

theorem toList_writeItems (out : String) (items : List Json) :
    (writeItems out items).toList = out.toList ++ itemChars items := by
  cases items with
  | nil => simp [writeItems, itemChars]
  | cons item items => simp [writeItems, itemChars, toList_writeItems, toList_write]

theorem toList_writeMember (out : String) (member : Option String × Json) :
    (writeMember out member).toList = out.toList ++ memberChars member := by
  cases member with
  | mk key value => simp [writeMember, memberChars, toList_write]

theorem toList_writeMembers (out : String) (members : List (Option String × Json)) :
    (writeMembers out members).toList = out.toList ++ membersChars members := by
  cases members with
  | nil => simp [writeMembers, membersChars]
  | cons member members =>
      simp [writeMembers, membersChars, toList_writeMembers, toList_writeMember]

end

theorem toList_compact (doc : Json) : doc.compact.toList = doc.chars := by
  rw [compact, toList_write]
  simp

end Json
end EventCourier
