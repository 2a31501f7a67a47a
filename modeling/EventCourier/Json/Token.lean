import EventCourier.Json

/-!
# JSON tokens

The text of a document is a sequence of tokens with white space between.  Splitting never fails:
where no token starts, the sequence ends with a mark, so that what stands before it can still be
read.
-/

namespace EventCourier
namespace Json

inductive Token where
  | openBrace
  | closeBrace
  | openBracket
  | closeBracket
  | colon
  | comma
  /-- A string literal; none when it names no text. -/
  | string (text : Option String)
  /-- A number, `true`, `false` or `null`. -/
  | atom (value : Json)
  | broken

def hexValue? (c : Char) : Option Nat :=
  if '0' ≤ c ∧ c ≤ '9' then some (c.toNat - 48)
  else if 'a' ≤ c ∧ c ≤ 'f' then some (c.toNat - 87)
  else if 'A' ≤ c ∧ c ≤ 'F' then some (c.toNat - 55)
  else none

def unit? (a b c d : Char) : Option Nat := do
  let a ← hexValue? a
  let b ← hexValue? b
  let c ← hexValue? c
  let d ← hexValue? d
  return ((a * 16 + b) * 16 + c) * 16 + d

def escapeOf? : Char → Option Char
  | '"' => some '"'
  | '\\' => some '\\'
  | '/' => some '/'
  | 'b' => some '\x08'
  | 'f' => some '\x0c'
  | 'n' => some '\n'
  | 'r' => some '\r'
  | 't' => some '\t'
  | _ => none

/-- What an escaped 16-bit unit contributes to a text. -/
inductive Escaped where
  | char (c : Char)
  | half

/-- Reads the unit in an escape, and with it the second half when it is the first of a pair. -/
def readUnit? (a b c d : Char) (rest : List Char) : Option (Escaped × List Char) := do
  let first ← unit? a b c d
  if first < 0xd800 ∨ 0xdfff < first then some (.char (Char.ofNat first), rest)
  else
    match rest with
    | '\\' :: 'u' :: e :: f :: g :: h :: after =>
      match unit? e f g h with
      | none => none
      | some second =>
        if first < 0xdc00 ∧ 0xdc00 ≤ second ∧ second ≤ 0xdfff then
          some (.char (Char.ofNat (0x10000 + (first - 0xd800) * 0x400 + (second - 0xdc00))), after)
        else some (.half, rest)
    | _ => some (.half, rest)

theorem readUnit?_length {a b c d : Char} {rest after : List Char} {escaped : Escaped}
    (h : readUnit? a b c d rest = some (escaped, after)) : after.length ≤ rest.length := by
  unfold readUnit? at h
  cases hunit : unit? a b c d with
  | none => simp [hunit] at h
  | some first =>
    simp only [hunit, Option.bind_eq_bind, Option.bind_some] at h
    split at h
    · simp only [Option.some.injEq, Prod.mk.injEq] at h
      simp [← h.2]
    · split at h
      · split at h
        · cases h
        · split at h
          · simp only [Option.some.injEq, Prod.mk.injEq] at h
            simp only [← h.2, List.length_cons]
            omega
          · simp only [Option.some.injEq, Prod.mk.injEq] at h
            simp [← h.2]
      · simp only [Option.some.injEq, Prod.mk.injEq] at h
        simp [← h.2]

/-- Reads a string literal after its opening quote: the characters so far are given in reverse,
and whether they are a text.  A control character must be escaped. -/
def scanString (whole : Bool) (read : List Char) (chars : List Char) :
    Option (Option String × List Char) :=
  match chars with
  | [] => none
  | '"' :: rest => some (if whole then some (String.ofList read.reverse) else none, rest)
  | '\\' :: 'u' :: a :: b :: c :: d :: rest =>
    match _hunit : readUnit? a b c d rest with
    | some (.char c, after) => scanString whole (c :: read) after
    | some (.half, after) => scanString false read after
    | none => none
  | '\\' :: c :: rest =>
    match escapeOf? c with
    | some c => scanString whole (c :: read) rest
    | none => none
  | c :: rest => if c.toNat < 0x20 then none else scanString whole (c :: read) rest
termination_by chars.length
decreasing_by
  all_goals first
    | (have hshorter := readUnit?_length _hunit; simp only [List.length_cons]; omega)
    | (simp only [List.length_cons]; omega)

def digitsOf (chars : List Char) : List Char × List Char :=
  (chars.takeWhile Char.isDigit, chars.dropWhile Char.isDigit)

def someDigits? (chars : List Char) : Option (List Char × List Char) :=
  let (digits, rest) := digitsOf chars
  if digits.isEmpty then none else some (digits, rest)

/-- The digits before the point: a zero alone, or digits that do not start with one. -/
def wholePart? : List Char → Option (List Char × List Char)
  | '0' :: rest => some (['0'], rest)
  | chars => someDigits? chars

/-- A point and digits, or nothing. -/
def fractionPart? : List Char → Option (List Char × List Char)
  | '.' :: rest => (someDigits? rest).map fun (digits, rest) => ('.' :: digits, rest)
  | rest => some ([], rest)

/-- An exponent mark, an optional sign and digits, or nothing. -/
def exponentPart? : List Char → Option (List Char × List Char)
  | mark :: rest =>
    if mark = 'e' ∨ mark = 'E' then
      match rest with
      | '+' :: rest => (someDigits? rest).map fun (digits, rest) => (mark :: '+' :: digits, rest)
      | '-' :: rest => (someDigits? rest).map fun (digits, rest) => (mark :: '-' :: digits, rest)
      | _ => (someDigits? rest).map fun (digits, rest) => (mark :: digits, rest)
    else some ([], mark :: rest)
  | [] => some ([], [])

def naturalOf (digits : List Char) : Nat :=
  digits.foldl (fun value c => value * 10 + (c.toNat - 48)) 0

/-- A number literal: a plain natural, or any other with its spelling. -/
def scanNumber (chars : List Char) : Option (Json × List Char) := do
  let (sign, unsigned) := match chars with
    | '-' :: rest => (['-'], rest)
    | _ => ([], chars)
  let (whole, rest) ← wholePart? unsigned
  let (fraction, rest) ← fractionPart? rest
  let (exponent, rest) ← exponentPart? rest
  if sign.isEmpty && fraction.isEmpty && exponent.isEmpty then
    return (.natural (naturalOf whole), rest)
  else return (.number (String.ofList (sign ++ whole ++ fraction ++ exponent)), rest)

/-- The token at the front of a text that starts with no white space, and what follows it. -/
def nextToken? (chars : List Char) : Option (Token × List Char) :=
  match chars with
  | '\x7b' :: rest => some (.openBrace, rest)
  | '\x7d' :: rest => some (.closeBrace, rest)
  | '[' :: rest => some (.openBracket, rest)
  | ']' :: rest => some (.closeBracket, rest)
  | ':' :: rest => some (.colon, rest)
  | ',' :: rest => some (.comma, rest)
  | 'n' :: 'u' :: 'l' :: 'l' :: rest => some (.atom .null, rest)
  | 't' :: 'r' :: 'u' :: 'e' :: rest => some (.atom (.bool true), rest)
  | 'f' :: 'a' :: 'l' :: 's' :: 'e' :: rest => some (.atom (.bool false), rest)
  | '"' :: rest => (scanString true [] rest).map fun (s, rest) => (.string s, rest)
  | _ => (scanNumber chars).map fun (value, rest) => (.atom value, rest)

def isSpace (c : Char) : Bool :=
  c = ' ' || c = '\t' || c = '\n' || c = '\r'

/-- The tokens of a text after those already split off, which are given in reverse.  Every token
takes a character, so as many steps as there are characters split all of it. -/
def splitTokens : Nat → List Token → List Char → List Token
  | 0, split, _ => split.reverse
  | steps + 1, split, chars =>
    match chars.dropWhile isSpace with
    | [] => split.reverse
    | c :: rest =>
      match nextToken? (c :: rest) with
      | none => (.broken :: split).reverse
      | some (token, after) => splitTokens steps (token :: split) after

/-- The tokens of a text, up to where no token starts. -/
def tokens (text : String) : List Token :=
  let chars := text.toList
  splitTokens (chars.length + 1) [] chars

end Json
end EventCourier
