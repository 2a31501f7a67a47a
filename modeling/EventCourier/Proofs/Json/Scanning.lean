import EventCourier.Json.Token
import Mathlib

/-!
# Literals read back

A string literal is read back as the text that it was written for, whatever stands behind its
closing quote.  A natural number is read back from its digits as long as no further digit, point or
exponent follows, and in a document none does.
-/

namespace EventCourier
namespace Json

/-! ## String literals -/

theorem hexValue?_digitChar {d : Nat} (hd : d < 16) : hexValue? (Nat.digitChar d) = some d := by
  interval_cases d <;> rfl

theorem readUnit?_control {c : Char} (hc : c.toNat < 0x20) (rest : List Char) :
    readUnit? '0' '0' (Nat.digitChar (c.toNat / 16)) (Nat.digitChar (c.toNat % 16)) rest =
      some (.char c, rest) := by
  have hhigh := hexValue?_digitChar (show c.toNat / 16 < 16 by omega)
  have hlow := hexValue?_digitChar (show c.toNat % 16 < 16 by omega)
  have hzero : hexValue? '0' = some 0 := rfl
  have hunit : unit? '0' '0' (Nat.digitChar (c.toNat / 16)) (Nat.digitChar (c.toNat % 16)) =
      some c.toNat := by
    simp only [unit?, hzero, hhigh, hlow, Option.bind_eq_bind, Option.bind_some, Option.pure_def,
      Option.some.injEq]
    omega
  simp only [readUnit?, hunit, Option.bind_eq_bind, Option.bind_some]
  rw [if_pos (.inl (by omega)), Char.ofNat_toNat]

section Literal

variable {whole : Bool} {read rest : List Char} {c : Char}

theorem scanString_escape {mark : Char} (hescape : escapeOf? mark = some c) (hmark : mark ≠ 'u') :
    scanString whole read ('\\' :: mark :: rest) = scanString whole (c :: read) rest := by
  rw [scanString]
  · simp [hescape]
  · exact fun _ _ _ _ _ hunit _ => hmark hunit

theorem scanString_control (hc : c.toNat < 0x20) :
    scanString whole read ('\\' :: 'u' :: '0' :: '0' :: Nat.digitChar (c.toNat / 16) ::
      Nat.digitChar (c.toNat % 16) :: rest) = scanString whole (c :: read) rest := by
  rw [scanString, readUnit?_control hc]

theorem scanString_plain (hquote : c ≠ '"') (hbackslash : c ≠ '\\') (hc : ¬ c.toNat < 0x20) :
    scanString whole read (c :: rest) = scanString whole (c :: read) rest := by
  rw [scanString, if_neg hc]
  · exact hquote
  · exact fun _ _ _ _ _ h _ => hbackslash h
  · exact fun _ _ h _ => hbackslash h

theorem scanString_escapedChar (whole : Bool) (read : List Char) (c : Char) (rest : List Char) :
    scanString whole read (escapedChar c ++ rest) = scanString whole (c :: read) rest := by
  unfold escapedChar
  split_ifs with hquote hbackslash _ _ _ _ _ hcontrol
  rotate_left 7
  · exact scanString_control hcontrol
  · exact scanString_plain hquote hbackslash hcontrol
  all_goals
    subst c
    exact scanString_escape rfl (by decide)

end Literal

theorem scanString_escaped (read s rest : List Char) :
    scanString true read (s.flatMap escapedChar ++ '"' :: rest) =
      some (some (String.ofList (read.reverse ++ s)), rest) := by
  induction s generalizing read with
  | nil => simp [scanString]
  | cons c s ih =>
      rw [List.flatMap_cons, List.append_assoc, scanString_escapedChar, ih]
      simp

theorem nextToken?_writeString (s : String) (rest : List Char) :
    nextToken? ((writeString (some s)).toList ++ rest) = some (.string (some s), rest) := by
  have hscan := scanString_escaped [] s.toList rest
  simp [writeString, nextToken?, hscan]

/-! ## Natural numbers -/

/-- What follows a value in a document: nothing, a comma or a closing bracket. -/
def Ends (rest : List Char) : Prop :=
  ∀ c ∈ rest.head?, c = ',' ∨ c = ']' ∨ c = '\x7d'

theorem Ends.not_isDigit {rest : List Char} (hends : Ends rest) :
    ∀ c ∈ rest.head?, c.isDigit = false := by
  intro c hc
  rcases hends c hc with rfl | rfl | rfl <;> rfl

theorem head?_toDigits_ne_zero {n : Nat} (hn : n ≠ 0) :
    (Nat.toDigits 10 n).head? ≠ some '0' := by
  induction n using Nat.strongRecOn with
  | ind n ih =>
      by_cases hsmall : n < 10
      · rw [Nat.toDigits_of_lt_base hsmall]
        simpa using hn
      · rw [Nat.toDigits_of_base_le (by decide) (by omega),
          List.head?_append_of_ne_nil _ Nat.toDigits_ne_nil]
        exact ih (n / 10) (by omega) (by omega)

theorem naturalOf_toDigits (n : Nat) : naturalOf (Nat.toDigits 10 n) = n := by
  have hvalue : Nat.ofDigitChars 10 (Nat.toDigits 10 n) 0 = n := Nat.ofDigitChars_ten_toDigits
  have hzero : '0'.toNat = 48 := rfl
  rw [Nat.ofDigitChars_eq_foldl, hzero] at hvalue
  simpa only [naturalOf, mul_comm] using hvalue

theorem isDigit_of_mem_toDigits {n : Nat} : ∀ c ∈ Nat.toDigits 10 n, c.isDigit = true :=
  fun _ => Nat.isDigit_of_mem_toDigits (by decide) (by decide)

theorem exists_toDigits_eq_cons (n : Nat) :
    ∃ c digits, Nat.toDigits 10 n = c :: digits ∧ c.isDigit = true := by
  obtain ⟨c, digits, hdigits⟩ := List.exists_cons_of_ne_nil (Nat.toDigits_ne_nil (b := 10) (n := n))
  exact ⟨c, digits, hdigits, isDigit_of_mem_toDigits c (hdigits ▸ List.mem_cons_self)⟩

theorem digitsOf_append
    {digits rest : List Char} (hdigits : ∀ c ∈ digits, c.isDigit = true) (hends : Ends rest) :
    digitsOf (digits ++ rest) = (digits, rest) := by
  rw [digitsOf, List.takeWhile_append_of_pos hdigits, List.dropWhile_append_of_pos hdigits]
  cases rest with
  | nil => simp
  | cons c rest => simp [hends.not_isDigit c rfl]

theorem wholePart?_toDigits {n : Nat} {rest : List Char} (hends : Ends rest) :
    wholePart? (Nat.toDigits 10 n ++ rest) = some (Nat.toDigits 10 n, rest) := by
  by_cases hn : n = 0
  · subst n
    rfl
  · have hdigits := digitsOf_append (isDigit_of_mem_toDigits (n := n)) hends
    unfold wholePart?
    split
    next heq =>
      have hhead := head?_toDigits_ne_zero hn
      rw [← List.head?_append_of_ne_nil _ Nat.toDigits_ne_nil, heq] at hhead
      exact absurd rfl hhead
    next =>
      simp [someDigits?, hdigits]

theorem fractionPart?_of_ends {rest : List Char} (hends : Ends rest) :
    fractionPart? rest = some ([], rest) := by
  unfold fractionPart?
  split
  next => simp [Ends] at hends
  next => rfl

theorem exponentPart?_of_ends {rest : List Char} (hends : Ends rest) :
    exponentPart? rest = some ([], rest) := by
  cases rest with
  | nil => rfl
  | cons c rest =>
      rcases hends c rfl with rfl | rfl | rfl <;> simp [exponentPart?]

theorem scanNumber_toDigits {n : Nat} {rest : List Char} (hends : Ends rest) :
    scanNumber (Nat.toDigits 10 n ++ rest) = some (.natural n, rest) := by
  have hwhole := wholePart?_toDigits (n := n) hends
  have hvalue := naturalOf_toDigits n
  obtain ⟨c, digits, hdigits, hc⟩ := exists_toDigits_eq_cons n
  have hsign : c ≠ '-' := fun h => by simp [h] at hc
  rw [hdigits] at hwhole hvalue ⊢
  rw [List.cons_append] at hwhole ⊢
  simp [scanNumber, hsign, hwhole, fractionPart?_of_ends hends, exponentPart?_of_ends hends, hvalue]

theorem nextToken?_of_isDigit {c : Char} (hc : c.isDigit = true) (rest : List Char) :
    nextToken? (c :: rest) =
      (scanNumber (c :: rest)).map fun (value, rest) => (.atom value, rest) := by
  -- No other kind of token begins with a digit.
  rw [nextToken?]
  all_goals
    intro _ hmark
    cases hmark
    simp at hc

theorem nextToken?_toDigits {n : Nat} {rest : List Char} (hends : Ends rest) :
    nextToken? (Nat.toDigits 10 n ++ rest) = some (.atom (.natural n), rest) := by
  have hscan := scanNumber_toDigits (n := n) hends
  obtain ⟨c, digits, hdigits, hc⟩ := exists_toDigits_eq_cons n
  rw [hdigits] at hscan ⊢
  rw [List.cons_append, nextToken?_of_isDigit hc, ← List.cons_append, hscan]
  rfl

end Json
end EventCourier
