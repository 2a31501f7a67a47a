import EventCourier.Bytes

/-!
# Universally unique identifiers

An identifier is sixteen octets.  It is written as 32 lower-case hexadecimal digits in hyphenated
groups of 8, 4, 4, 4 and 12; a reader also takes upper-case digits, the digits without hyphens,
and the hyphenated form in braces or after `urn:uuid:`.
-/

namespace EventCourier

structure Uuid where
  octets : Bytes
  sixteen : octets.length = 16
  deriving DecidableEq, Repr

namespace Uuid

def toText (id : Uuid) : String :=
  let group (first count : Nat) := ((id.octets.drop first).take count).flatMap Bytes.hexPair
  String.ofList <|
    group 0 4 ++ '-' :: group 4 2 ++ '-' :: group 6 2 ++ '-' :: group 8 2 ++ '-' :: group 10 6

/-- Why a text is no identifier; lengths and positions count octets of the text. -/
inductive Fault where
  | length (found : Nat)
  | character (found : Char) (index : Nat)
  | groupCount (found : Nat)
  | groupLength (group expected found : Nat)
  deriving DecidableEq, Repr

def Fault.message : Fault → String
  | .length found => s!"invalid length: found {found}"
  | .character found index => s!"invalid character: found `{found}` at {index}"
  | .groupCount found => s!"invalid group count: expected 5, found {found}"
  | .groupLength group expected found =>
    s!"invalid group length in group {group}: expected {expected}, found {found}"

def digitValue? (c : Char) : Option Nat :=
  if '0' ≤ c ∧ c ≤ '9' then some (c.toNat - 48)
  else if 'a' ≤ c ∧ c ≤ 'f' then some (c.toNat - 87)
  else if 'A' ≤ c ∧ c ≤ 'F' then some (c.toNat - 55)
  else none

/-- The positions of the hyphens in a text of hexadecimal digits and hyphens that starts at
`index`, or the first character that is neither. -/
def hyphens (index : Nat) : List Char → Except Fault (List Nat)
  | [] => .ok []
  | c :: rest =>
    if c = '-' then (hyphens (index + 1) rest).map (index :: ·)
    else if (digitValue? c).isSome then hyphens (index + 1) rest
    else .error (.character c index)

def urnStart : List Char := "urn:uuid:".toList

/-- The text after `urn:uuid:` in any letter case. -/
def afterUrn? (chars : List Char) : Option (List Char) :=
  if (chars.take 9).map Char.toLower = urnStart then some (chars.drop 9) else none

def inBraces? : List Char → Option (List Char)
  | '\x7b' :: rest => if rest.getLast? = some '\x7d' then some rest.dropLast else none
  | _ => none

def octetCount (chars : List Char) : Nat :=
  chars.foldl (fun count c => count + c.utf8Size) 0

/-- The hyphenated part of a text whose length calls for one: the text itself, what is in its
braces, or what follows `urn:uuid:`. -/
def hyphenatedPart? (chars : List Char) : Option (List Char) :=
  match octetCount chars with
  | 36 => some chars
  | 38 => inBraces? chars
  | 45 => afterUrn? chars
  | _ => none

/-- The first group that does not have its length, where the hyphens are given; the last group
takes what remains of `size` octets. -/
def groupFault? (size : Nat) : List Nat → Option Fault
  | [h₀, h₁, h₂, h₃] =>
    if h₀ ≠ 8 then some (.groupLength 0 8 h₀)
    else if h₁ ≠ 13 then some (.groupLength 1 4 (h₁ - 9))
    else if h₂ ≠ 18 then some (.groupLength 2 4 (h₂ - 14))
    else if h₃ ≠ 23 then some (.groupLength 3 4 (h₃ - 19))
    else if size ≠ 36 then some (.groupLength 4 12 (size - 24))
    else none
  | found => some (.groupCount (found.length + 1))

/-- Why a text that has no hyphenated part of the right length is not 32 digits either. -/
def looseFault? (chars : List Char) : Option Fault :=
  let size := octetCount chars
  if size = 0 ∨ 45 < size then some (.length size)
  else
    let (offset, body) :=
      match inBraces? chars, afterUrn? chars with
      | some inner, _ => (1, inner)
      | none, some rest => (9, rest)
      | none, none => (0, chars)
    match hyphens offset body with
    | .error fault => some fault
    | .ok found =>
      if offset = 0 ∧ found = [] then if size = 32 then none else some (.length size)
      else groupFault? size (found.map (· - offset))

def pairDigits : List Nat → Bytes
  | high :: low :: rest => UInt8.ofNat (high * 16 + low) :: pairDigits rest
  | _ => []

/-- The identifier whose digits, between any hyphens, a text holds. -/
def ofDigits (chars : List Char) : Except Fault Uuid :=
  let octets := pairDigits (chars.filterMap digitValue?)
  if h : octets.length = 16 then .ok ⟨octets, h⟩ else .error (.length (octetCount chars))

/-- The identifier that a text spells, or the first thing wrong with it. -/
def ofText (s : String) : Except Fault Uuid :=
  let chars := s.toList
  match hyphenatedPart? chars with
  | some part =>
    match hyphens 0 part with
    | .error fault => .error fault
    | .ok found =>
      match groupFault? 36 found with
      | some fault => .error fault
      | none => ofDigits part
  | none =>
    match looseFault? chars with
    | some fault => .error fault
    | none => ofDigits chars

end Uuid
end EventCourier
