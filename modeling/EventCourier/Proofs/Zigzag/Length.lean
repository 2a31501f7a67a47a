import EventCourier.Proofs.Varint
import EventCourier.Proofs.Zigzag

/-!
# Small magnitudes take few octets

A word lies within a bound on either side of zero exactly when its position is below twice the
bound.  Seven bits of a position go into each octet, so the words that take at most `k` octets are
those of `7 k` bits, the sign among them.
-/

namespace EventCourier
namespace Zigzag

theorem toNat_encode (n : Int64) :
    ((encode n).toNat : Int) = if 0 ≤ n.toInt then 2 * n.toInt else -2 * n.toInt - 1 := by
  split
  next hsign => exact toNat_encode_of_nonneg hsign
  next hsign => exact toNat_encode_of_neg (Int.not_le.mp hsign)

theorem toNat_encode_lt_iff {n : Int64} {bound : Nat} :
    (encode n).toNat < 2 * bound ↔ -(bound : Int) ≤ n.toInt ∧ n.toInt < bound := by
  have hposition := toNat_encode n
  by_cases hsign : 0 ≤ n.toInt
  · rw [if_pos hsign] at hposition
    omega
  · rw [if_neg hsign] at hposition
    omega

theorem groups_eq_two_mul (k : Nat) : 128 ^ (k + 1) = 2 * 2 ^ (7 * (k + 1) - 1) := by
  calc
    128 ^ (k + 1) = 2 ^ (7 * (k + 1)) := by rw [pow_mul]; rfl
    _ = 2 ^ (7 * (k + 1) - 1 + 1) := by congr 1
    _ = 2 * 2 ^ (7 * (k + 1) - 1) := pow_succ' 2 _

theorem length_encode_position_le_iff {n : Int64} {k : Nat} (hk : 1 ≤ k) :
    (Varint.encode (encode n).toNat).length ≤ k ↔
      -(2 ^ (7 * k - 1)) ≤ n.toInt ∧ n.toInt < 2 ^ (7 * k - 1) := by
  cases k with
  | zero => cases hk
  | succ k =>
      rw [Varint.length_encode_le_iff, groups_eq_two_mul, toNat_encode_lt_iff]
      push_cast
      rfl

/-- Words and positions correspond one to one, in the order 0, -1, 1, -2, 2, …, and a position
takes as many octets as the magnitude of its word needs. -/
theorem encode_orders_by_magnitude :
    (∀ n, decode (encode n) = n) ∧ (∀ position, encode (decode position) = position) ∧
      ∀ n : Int64,
        ((encode n).toNat : Int) = (if 0 ≤ n.toInt then 2 * n.toInt else -2 * n.toInt - 1) ∧
          ∀ k, 1 ≤ k →
            ((Varint.encode (encode n).toNat).length ≤ k ↔
              -(2 ^ (7 * k - 1)) ≤ n.toInt ∧ n.toInt < 2 ^ (7 * k - 1)) := by
  refine ⟨decode_encode, encode_decode, ?_⟩
  intro n
  refine ⟨toNat_encode n, ?_⟩
  intro k hk
  exact length_encode_position_le_iff hk

/-- Nine octets are enough for the words of 63 bits, and for no others. -/
theorem octets_of_long_words :
    1 ≤ 9 ∧ (Varint.encode (encode (-4611686018427387904)).toNat).length ≤ 9 ∧
      ¬ (Varint.encode (encode 4611686018427387904).toNat).length ≤ 9 ∧
      encode Int64.minValue = 18446744073709551615 ∧
      decode 18446744073709551615 = Int64.minValue := by
  rcases encode_orders_by_magnitude with ⟨hdecode, -, hlengths⟩
  have hleast : encode Int64.minValue = 18446744073709551615 := by decide
  refine ⟨by decide, ?_, ?_, hleast, ?_⟩
  · rw [(hlengths _).2 9 (by decide)]
    decide
  · rw [(hlengths _).2 9 (by decide)]
    decide
  · rw [← hleast]
    exact hdecode Int64.minValue

end Zigzag
end EventCourier
