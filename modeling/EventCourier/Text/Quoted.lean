import EventCourier.Text.Unprintable
import EventCourier.Text.Extending

/-!
# Text shown for inspection

A diagnostic shows a text between double quotes, with every character that would be invisible,
ambiguous or confusing written as an escape, so that the reader sees exactly which text it is.
-/

namespace EventCourier
namespace Text

/-- The half-width sound marks of Katakana.  They extend the grapheme before them, and yet each is
a letter with a width of its own, which shows by itself. -/
def isSoundMark (c : Char) : Bool :=
  c = '\uff9e' || c = '\uff9f'

/-- The Hangul fillers: the only letters that are ignorable by default, and so show as nothing. -/
def isFiller (c : Char) : Bool :=
  c = '\u115f' || c = '\u1160' || c = '\u3164' || c = '\uffa0'

/-- Whether a character, shown as it is, would not be seen or would merge with the one before it. -/
def isHidden (c : Char) : Bool :=
  isUnprintable c || isFiller c || (isExtending c && !isSoundMark c)

/-- How one character stands inside quotes: short escapes for the common controls, the quote and
the backslash, the code point in hexadecimal for whatever would be hidden, else itself. -/
def quotedChar (c : Char) : List Char :=
  if c = '\x00' then ['\\', '0']
  else if c = '\t' then ['\\', 't']
  else if c = '\r' then ['\\', 'r']
  else if c = '\n' then ['\\', 'n']
  else if c = '"' then ['\\', '"']
  else if c = '\\' then ['\\', '\\']
  else if isHidden c then
    ['\\', 'u', '\x7b'] ++ Nat.toDigits 16 c.toNat ++ ['\x7d']
  else [c]

/-- A text between double quotes, escaped for inspection. -/
def quoted (s : String) : String :=
  String.ofList ('"' :: (s.toList.flatMap quotedChar ++ ['"']))

/-- A list of texts, each quoted, between square brackets. -/
def quotedList (texts : List String) : String :=
  "[" ++ String.intercalate ", " (texts.map quoted) ++ "]"

end Text
end EventCourier
