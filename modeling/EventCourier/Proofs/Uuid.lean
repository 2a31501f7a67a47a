import EventCourier.Text.Utf8
import EventCourier.Uuid
import Mathlib

/-!
# Identifiers and their texts

The text of an identifier is 36 octets long, and reading it gives the identifier back.  Other
spellings of an identifier are longer or shorter, but never written.
-/

namespace EventCourier
namespace Uuid

open Bytes

theorem octetCount_eq_sum (chars : List Char) :
    octetCount chars = (chars.map Char.utf8Size).sum := by
  rw [octetCount, List.sum_eq_foldl, List.foldl_map]

theorem length_toUtf8_ofList (chars : List Char) :
    (Text.toUtf8 (String.ofList chars)).length = octetCount chars := by
  rw [octetCount_eq_sum]
  induction chars with
  | nil => rfl
  | cons c rest ih =>
      rw [List.map_cons, List.sum_cons, ← ih]
      simp [Text.toUtf8, List.utf8Encode_singleton]

section Digits

variable {n : Nat}

theorem digitValue?_hexDigit (hn : n < 16) : digitValue? (hexDigit n) = some n := by
  have hall : ∀ m < 16, digitValue? (hexDigit m) = some m := by decide
  exact hall n hn

theorem utf8Size_hexDigit (hn : n < 16) : (hexDigit n).utf8Size = 1 := by
  have hall : ∀ m < 16, (hexDigit m).utf8Size = 1 := by decide
  exact hall n hn

theorem hexDigit_ne_hyphen (hn : n < 16) : hexDigit n ≠ '-' := by
  have hall : ∀ m < 16, hexDigit m ≠ '-' := by decide
  exact hall n hn

end Digits

theorem halves_lt (byte : UInt8) : byte.toNat / 16 < 16 ∧ byte.toNat % 16 < 16 := by
  have hlt := byte.toNat_lt
  omega

theorem hyphens_hyphen (index : Nat) (rest : List Char) :
    hyphens index ('-' :: rest) = (hyphens (index + 1) rest).map (index :: ·) := by
  simp [hyphens]

theorem hyphens_digits (bytes : Bytes) (index : Nat) (rest : List Char) :
    hyphens index (bytes.flatMap hexPair ++ rest) =
      hyphens (index + 2 * bytes.length) rest := by
  induction bytes generalizing index with
  | nil => rfl
  | cons byte others ih =>
      obtain ⟨hhigh, hlow⟩ := halves_lt byte
      have hnext : index + 1 + 1 + 2 * others.length = index + 2 * (others.length + 1) := by omega
      simp only [List.flatMap_cons, hexPair, List.cons_append, List.nil_append, hyphens,
        hexDigit_ne_hyphen hhigh, hexDigit_ne_hyphen hlow, digitValue?_hexDigit hhigh,
        digitValue?_hexDigit hlow, Option.isSome_some, if_true, if_false, ih, hnext,
        List.length_cons]

theorem octetCount_digits (bytes : Bytes) :
    octetCount (bytes.flatMap hexPair) = 2 * bytes.length := by
  rw [octetCount_eq_sum]
  induction bytes with
  | nil => rfl
  | cons byte others ih =>
      obtain ⟨hhigh, hlow⟩ := halves_lt byte
      simp only [List.flatMap_cons, List.map_append, List.sum_append, ih, hexPair, List.map_cons,
        List.map_nil, List.sum_cons, List.sum_nil, utf8Size_hexDigit hhigh, utf8Size_hexDigit hlow,
        List.length_cons]
      omega

theorem pairDigits_digits (bytes : Bytes) :
    pairDigits ((bytes.flatMap hexPair).filterMap digitValue?) = bytes := by
  induction bytes with
  | nil => rfl
  | cons byte others ih =>
      obtain ⟨hhigh, hlow⟩ := halves_lt byte
      have hwhole : byte.toNat / 16 * 16 + byte.toNat % 16 = byte.toNat := by omega
      simp only [List.flatMap_cons, hexPair, List.cons_append, List.nil_append,
        List.filterMap_cons, digitValue?_hexDigit hhigh, digitValue?_hexDigit hlow, pairDigits, ih,
        hwhole, UInt8.ofNat_toNat]

/-- The digits of five groups of octets with hyphens between them. -/
def hyphenated (a b c d e : Bytes) : List Char :=
  a.flatMap hexPair ++ '-' :: (b.flatMap hexPair ++ '-' :: (c.flatMap hexPair ++
    '-' :: (d.flatMap hexPair ++ '-' :: e.flatMap hexPair)))

theorem toText_eq (id : Uuid) :
    ∃ a b c d e : Bytes,
      (a.length = 4 ∧ b.length = 2 ∧ c.length = 2 ∧ d.length = 2 ∧ e.length = 6) ∧
        id.octets = a ++ (b ++ (c ++ (d ++ e))) ∧
          id.toText = String.ofList (hyphenated a b c d e) := by
  rcases id with ⟨octets, hsixteen⟩
  match octets, hsixteen with
  | [o₀, o₁, o₂, o₃, o₄, o₅, o₆, o₇, o₈, o₉, o₁₀, o₁₁, o₁₂, o₁₃, o₁₄, o₁₅], _ =>
      exact ⟨[o₀, o₁, o₂, o₃], [o₄, o₅], [o₆, o₇], [o₈, o₉], [o₁₀, o₁₁, o₁₂, o₁₃, o₁₄, o₁₅],
        by simp, rfl, rfl⟩

theorem ofDigits_hyphenated
    {id : Uuid} {a b c d e : Bytes} (hoctets : id.octets = a ++ (b ++ (c ++ (d ++ e)))) :
    ofDigits (hyphenated a b c d e) = .ok id := by
  have hhyphen : digitValue? '-' = none := rfl
  have hdigits : (hyphenated a b c d e).filterMap digitValue? =
      (id.octets.flatMap hexPair).filterMap digitValue? := by
    simp [hyphenated, hoctets, hhyphen]
  unfold ofDigits
  simp [hdigits, pairDigits_digits, id.sixteen]

section Hyphenated

variable {a b c d e : Bytes}
  (hlength : a.length = 4 ∧ b.length = 2 ∧ c.length = 2 ∧ d.length = 2 ∧ e.length = 6)

include hlength

theorem octetCount_hyphenated : octetCount (hyphenated a b c d e) = 36 := by
  have happend : ∀ xs ys, octetCount (xs ++ '-' :: ys) = octetCount xs + 1 + octetCount ys := by
    intro xs ys
    have hhyphen : '-'.utf8Size = 1 := rfl
    simp only [octetCount_eq_sum, List.map_append, List.map_cons, List.sum_append, List.sum_cons,
      hhyphen]
    omega
  simp only [hyphenated, happend, octetCount_digits]
  omega

theorem hyphens_hyphenated : hyphens 0 (hyphenated a b c d e) = .ok [8, 13, 18, 23] := by
  obtain ⟨ha, hb, hc, hd, _⟩ := hlength
  have hlast : ∀ index, hyphens index (e.flatMap hexPair) = .ok [] := by
    intro index
    have hdigits := hyphens_digits e index []
    rwa [List.append_nil] at hdigits
  simp [hyphenated, hyphens_digits, hyphens_hyphen, hlast, ha, hb, hc, hd, Except.map]

end Hyphenated

/-- The text of an identifier has 36 octets. -/
theorem length_toUtf8_toText (id : Uuid) : (Text.toUtf8 id.toText).length = 36 := by
  obtain ⟨a, b, c, d, e, hlength, _, htext⟩ := toText_eq id
  rw [htext, length_toUtf8_ofList, octetCount_hyphenated hlength]

theorem ofText_toText (id : Uuid) : ofText id.toText = .ok id := by
  obtain ⟨a, b, c, d, e, hlength, hoctets, htext⟩ := toText_eq id
  have hpart : hyphenatedPart? (hyphenated a b c d e) = some (hyphenated a b c d e) := by
    simp [hyphenatedPart?, octetCount_hyphenated hlength]
  rw [htext]
  unfold ofText
  simp [hpart, hyphens_hyphenated hlength, groupFault?, ofDigits_hyphenated hoctets]

theorem toText_injective {id other : Uuid} (htext : id.toText = other.toText) : id = other := by
  have hid := ofText_toText id
  rw [htext, ofText_toText] at hid
  exact (Except.ok.inj hid).symm

theorem toText_ne_empty (id : Uuid) : id.toText ≠ "" := by
  intro hempty
  have hlength := length_toUtf8_toText id
  rw [hempty] at hlength
  cases hlength

end Uuid
end EventCourier
