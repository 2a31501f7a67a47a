import EventCourier.Bytes

/-!
# Text as octets

Texts travel as UTF-8.  Writing always succeeds; reading refuses octets that are not well-formed
UTF-8 (surrogates, overlong forms and numbers beyond U+10FFFF included) and says where the first
ill-formed sequence stands.
-/

namespace EventCourier
namespace Text

def toUtf8 (s : String) : Bytes :=
  s.toByteArray.data.toList

inductive Utf8Fault where
  /-- The octets end inside the sequence that starts at `index`. -/
  | cutOff (index : Nat)
  /-- At `index` the first `length` octets begin a sequence that the next octet does not go on
  with, or that no sequence begins with. -/
  | illFormed (length index : Nat)
  deriving DecidableEq, Repr

def Utf8Fault.message : Utf8Fault → String
  | .cutOff index => s!"incomplete utf-8 byte sequence from index {index}"
  | .illFormed length index =>
    s!"invalid utf-8 sequence of {length} bytes from index {index}"

/-- What may follow a leading octet: how many octets are owed, and the bounds of the next. -/
structure Owed where
  count : Nat
  low : UInt8 := 0x80
  high : UInt8 := 0xbf

/-- The octets that a leading octet asks for; none for an octet that begins no sequence. -/
def owedAfter (lead : UInt8) : Option Owed :=
  if lead < 0x80 then some { count := 0 }
  else if lead < 0xc2 then none
  else if lead ≤ 0xdf then some { count := 1 }
  else if lead = 0xe0 then some { count := 2, low := 0xa0 }
  else if lead = 0xed then some { count := 2, high := 0x9f }
  else if lead ≤ 0xef then some { count := 2 }
  else if lead = 0xf0 then some { count := 3, low := 0x90 }
  else if lead ≤ 0xf3 then some { count := 3 }
  else if lead = 0xf4 then some { count := 3, high := 0x8f }
  else none

/-- The first fault in octets that are not UTF-8, for a scan at `index` inside a sequence that
started at `start` and still owes octets. -/
def scanFault (start index : Nat) (owed : Owed) : Bytes → Utf8Fault
  | [] => .cutOff start
  | octet :: rest =>
    if owed.count = 0 then
      match owedAfter octet with
      | none => .illFormed 1 index
      | some next => scanFault index (index + 1) next rest
    else if owed.low ≤ octet ∧ octet ≤ owed.high then
      scanFault start (index + 1) { count := owed.count - 1 } rest
    else .illFormed (index - start) start

/-- The text that octets spell, or where they stop being UTF-8. -/
def ofUtf8 (octets : Bytes) : Except Utf8Fault String :=
  match String.fromUTF8? ⟨octets.toArray⟩ with
  | some s => .ok s
  | none => .error (scanFault 0 0 { count := 0 } octets)

theorem toUtf8_injective {s t : String} (h : toUtf8 s = toUtf8 t) : s = t := by
  have harray : s.toByteArray = t.toByteArray := ByteArray.ext (Array.toList_inj.mp h)
  exact String.toByteArray_inj.mp harray

theorem ofUtf8_toUtf8 (s : String) : ofUtf8 (toUtf8 s) = .ok s := by
  have hbytes : (⟨(toUtf8 s).toArray⟩ : ByteArray) = s.toByteArray :=
    ByteArray.ext (Array.toArray_toList)
  simp only [ofUtf8, hbytes, String.fromUTF8?, s.isValidUTF8, dif_pos]
  rfl

theorem toUtf8_of_ofUtf8 {octets : Bytes} {s : String} (h : ofUtf8 octets = .ok s) :
    toUtf8 s = octets := by
  unfold ofUtf8 String.fromUTF8? at h
  split at h
  · rename_i text hread
    split at hread
    · cases h
      cases hread
      rfl
    · cases hread
  · cases h

end Text
end EventCourier
