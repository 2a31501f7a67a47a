/-!
# White space

The characters with the Unicode property `White_Space`, and trimming by them.  The zero-width
space, the byte-order mark and the information separators do not have the property.
-/

namespace EventCourier
namespace Text

/-- The property `White_Space`: twenty-five characters. -/
def isWhiteSpace (c : Char) : Bool :=
  let n := c.toNat
  (9 ≤ n && n ≤ 13) || n == 0x20 || n == 0x85 || n == 0xa0 || n == 0x1680 ||
    (0x2000 ≤ n && n ≤ 0x200a) || n == 0x2028 || n == 0x2029 || n == 0x202f || n == 0x205f ||
    n == 0x3000

def trimStart (chars : List Char) : List Char :=
  chars.dropWhile isWhiteSpace

def trim (s : String) : String :=
  String.ofList (trimStart (trimStart s.toList).reverse).reverse

def isBlank (s : String) : Bool :=
  s.toList.all isWhiteSpace

theorem trimStart_eq_nil_iff {chars : List Char} :
    trimStart chars = [] ↔ chars.all isWhiteSpace = true := by
  induction chars with
  | nil => simp [trimStart]
  | cons c rest ih =>
    by_cases hc : isWhiteSpace c = true
    · rw [List.all_cons, hc, Bool.true_and, ← ih, trimStart, List.dropWhile_cons_of_pos hc,
        trimStart]
    · simp [trimStart, hc]

end Text
end EventCourier
