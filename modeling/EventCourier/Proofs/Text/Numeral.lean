import EventCourier.Proofs.Text.Whitespace
import EventCourier.Text.Numeral

/-!
# What a numeral says

A text denotes a number when decimal digits of that value stand alone in it, with or without a plus
sign before them.  Once trimmed, the texts that are read are those that denote a number of 64 bits,
and each is read as that number.
-/

namespace EventCourier
namespace Text

/-- Digits of the number, however many zeros they begin with. -/
structure Spells (digits : List Char) (n : Nat) : Prop where
  some : digits ≠ []
  decimal : ∀ c ∈ digits, c.isDigit = true
  value : Nat.ofDigitChars 10 digits 0 = n

theorem spells_toDigits (zeros n : Nat) :
    Spells (List.replicate zeros '0' ++ Nat.toDigits 10 n) n := by
  constructor
  case some => simp [Nat.toDigits_ne_nil]
  case decimal =>
    intro c hc
    rcases List.mem_append.mp hc with hzero | hdigit
    · rw [List.eq_of_mem_replicate hzero]
      rfl
    · exact Nat.isDigit_of_mem_toDigits (by decide) (by decide) hdigit
  case value =>
    rw [Nat.ofDigitChars_append, Nat.ofDigitChars_replicate_zero, Nat.mul_zero,
      Nat.ofDigitChars_ten_toDigits]

def Denotes (s : String) (n : Nat) : Prop :=
  ∃ digits, Spells digits n ∧ (StandsAlone digits s ∨ StandsAlone ('+' :: digits) s)

theorem isDigit_iff {c : Char} : c.isDigit = true ↔ '0' ≤ c ∧ c ≤ '9' := by
  simp [Char.isDigit, Char.le_def]

theorem le_ofDigitChars (value : Nat) (digits : List Char) :
    value ≤ Nat.ofDigitChars 10 digits value := by
  induction digits generalizing value with
  | nil => exact Nat.le_refl value
  | cons c rest ih =>
      rw [Nat.ofDigitChars_cons]
      have hrest := ih (10 * value + (c.toNat - '0'.toNat))
      omega

/-- Digits are read after a value as long as the number they make with it has 64 bits. -/
theorem readDigits_eq_ok_iff {value n : Nat} {digits : List Char} (hvalue : value < UInt64.size) :
    readDigits value digits = .ok n ↔
      (∀ c ∈ digits, c.isDigit = true) ∧ Nat.ofDigitChars 10 digits value = n ∧
        n < UInt64.size := by
  induction digits generalizing value with
  | nil =>
      simp only [readDigits, Except.ok.injEq, Nat.ofDigitChars_nil, List.not_mem_nil,
        false_implies, implies_true, true_and]
      constructor
      · intro h
        subst h
        exact ⟨rfl, hvalue⟩
      · intro h
        exact h.1
  | cons c rest ih =>
      have hnext : value * 10 + (c.toNat - 48) = 10 * value + (c.toNat - '0'.toNat) := by
        rw [Nat.mul_comm]
        rfl
      rw [readDigits, List.forall_mem_cons, isDigit_iff, Nat.ofDigitChars_cons, ← hnext]
      by_cases hdigit : '0' ≤ c ∧ c ≤ '9'
      · by_cases hsize : value * 10 + (c.toNat - 48) < UInt64.size
        · simp only [hdigit, hsize, if_true, and_self, true_and]
          exact ih hsize
        · -- What is too large already only grows.
          have hgrows := le_ofDigitChars (value * 10 + (c.toNat - 48)) rest
          simp only [hdigit, hsize, if_true, if_false, and_self, true_and, reduceCtorEq, false_iff]
          intro h
          rcases h with ⟨_, hn, hlarge⟩
          omega
      · simp [hdigit]

theorem map_readDigits_eq_ok_iff {digits : List Char} {n : UInt64} :
    (readDigits 0 digits).map UInt64.ofNat = .ok n ↔
      (∀ c ∈ digits, c.isDigit = true) ∧ Nat.ofDigitChars 10 digits 0 = n.toNat := by
  have hread := @readDigits_eq_ok_iff 0 n.toNat digits (by decide)
  rw [and_iff_left n.toNat_lt] at hread
  rw [← hread]
  cases hvalue : readDigits 0 digits with
  | error fault => simp [Except.map]
  | ok value =>
      have hsize := ((readDigits_eq_ok_iff (by decide)).mp hvalue).2.2
      simp only [Except.map, Except.ok.injEq]
      constructor
      · intro h
        rw [← h, UInt64.toNat_ofNat_of_lt' hsize]
      · intro h
        rw [h, UInt64.ofNat_toNat]

theorem readNumeral_eq_ok_iff {s : String} {n : UInt64} :
    readNumeral s = .ok n ↔
      ∃ digits, Spells digits n.toNat ∧ (s.toList = digits ∨ s.toList = '+' :: digits) := by
  constructor
  · intro h
    have hspells : ∀ digits, digits ≠ [] →
        (readDigits 0 digits).map UInt64.ofNat = .ok n → Spells digits n.toNat := by
      intro digits hsome hread
      rcases map_readDigits_eq_ok_iff.mp hread with ⟨hdecimal, hvalue⟩
      exact ⟨hsome, hdecimal, hvalue⟩
    unfold readNumeral at h
    dsimp only at h
    split at h
    · cases h
    · cases h
    next digits hsome hs =>
      exact ⟨digits, hspells digits hsome h, .inr hs⟩
    next hsome _ _ =>
      exact ⟨s.toList, hspells _ hsome h, .inl rfl⟩
  · intro h
    rcases h with ⟨digits, hspells, hs⟩
    have hread := map_readDigits_eq_ok_iff.mpr ⟨hspells.decimal, hspells.value⟩
    rcases List.exists_cons_of_ne_nil hspells.some with ⟨c, rest, rfl⟩
    rcases hs with hs | hs
    · have hsign : c ≠ '+' := by
        intro hplus
        have hdecimal := hspells.decimal c List.mem_cons_self
        rw [hplus] at hdecimal
        cases hdecimal
      simpa [readNumeral, hs, hsign] using hread
    · simpa [readNumeral, hs] using hread

theorem isWhiteSpace_of_isDigit {c : Char} (hc : c.isDigit = true) : isWhiteSpace c = false := by
  rcases Char.isDigit_iff_toNat.mp hc with ⟨hlow, hhigh⟩
  have hfirst : '0'.toNat = 48 := rfl
  have hlast : '9'.toNat = 57 := rfl
  simp only [isWhiteSpace, Bool.or_eq_false_iff, Bool.and_eq_false_iff, decide_eq_false_iff_not,
    beq_eq_false_iff_ne]
  omega

theorem Spells.bare
    {digits : List Char} {n : Nat} (hspells : Spells digits n) :
    Bare digits ∧ Bare ('+' :: digits) := by
  have hdigits : ∀ c ∈ digits, isWhiteSpace c = false := by
    intro c hc
    exact isWhiteSpace_of_isDigit (hspells.decimal c hc)
  constructor
  · exact .of_forall hdigits
  · exact .of_forall (List.forall_mem_cons.mpr ⟨rfl, hdigits⟩)

/-- Of the texts, those that denote a number of 64 bits are read once they are trimmed. -/
theorem readNumeral_trim_eq_ok_iff {s : String} {n : UInt64} :
    readNumeral (trim s) = .ok n ↔ Denotes s n.toNat := by
  rw [readNumeral_eq_ok_iff]
  simp only [toList_trim_eq_iff]
  constructor
  · intro h
    rcases h with ⟨digits, hspells, hs | hs⟩
    · exact ⟨digits, hspells, .inl hs.2⟩
    · exact ⟨digits, hspells, .inr hs.2⟩
  · intro h
    rcases h with ⟨digits, hspells, hs | hs⟩
    · exact ⟨digits, hspells, .inl ⟨hspells.bare.1, hs⟩⟩
    · exact ⟨digits, hspells, .inr ⟨hspells.bare.2, hs⟩⟩

end Text
end EventCourier
