import EventCourier.Zigzag
import Mathlib

/-!
# Zigzag numbering is a bijection

The position of a word `n` is `2 n` when the word is not negative and `-2 n - 1` when it is, as an
exact integer.  The word at a position is found by halving.  Both inverse laws are then arithmetic.
-/

namespace EventCourier
namespace Zigzag

/-! ## Positions of words -/

theorem toInt_sign (n : Int64) : (n >>> 63).toInt = n.toInt / 2 ^ 63 := by
  have hshift : (n >>> 63).toBitVec = n.toBitVec.sshiftRight 63 := by
    rw [Int64.toBitVec_shiftRight]
    rfl
  rw [← Int64.toInt_toBitVec, hshift, BitVec.toInt_sshiftRight, Int.shiftRight_eq_div_pow]
  rfl

theorem sign_of_nonneg {n : Int64} (hsign : 0 ≤ n.toInt) : n >>> 63 = 0 := by
  apply Int64.toInt_inj.mp
  have hlt := n.toInt_lt
  rw [toInt_sign, Int64.toInt_zero]
  omega

theorem sign_of_neg {n : Int64} (hsign : n.toInt < 0) : n >>> 63 = -1 := by
  apply Int64.toInt_inj.mp
  have hle := n.le_toInt
  rw [toInt_sign, show (-1 : Int64).toInt = -1 from rfl]
  omega

theorem toNat_double (n : Int64) :
    ((n <<< 1).toUInt64.toNat : Int) = 2 * n.toInt % 2 ^ 64 := by
  have hshift : (n <<< 1).toBitVec = n.toBitVec <<< 1 := by
    rw [Int64.toBitVec_shiftLeft]
    rfl
  have hword : (n <<< 1).toUInt64.toNat = 2 * n.toBitVec.toNat % 2 ^ 64 := by
    change (n <<< 1).toBitVec.toNat = _
    rw [hshift, BitVec.toNat_shiftLeft, Nat.shiftLeft_eq, Nat.pow_one, Nat.mul_comm]
  have hint := BitVec.toInt_eq_toNat_cond n.toBitVec
  rw [hword, ← Int64.toInt_toBitVec, hint]
  split <;> omega

theorem toNat_encode_of_nonneg {n : Int64} (hsign : 0 ≤ n.toInt) :
    ((encode n).toNat : Int) = 2 * n.toInt := by
  have hlt := n.toInt_lt
  rw [encode, sign_of_nonneg hsign, Int64.xor_zero, toNat_double]
  omega

theorem toNat_encode_of_neg {n : Int64} (hsign : n.toInt < 0) :
    ((encode n).toNat : Int) = -2 * n.toInt - 1 := by
  have hle := n.le_toInt
  have hdouble := toNat_double n
  have hflip : (~~~(n <<< 1)).toUInt64.toNat = 2 ^ 64 - 1 - (n <<< 1).toUInt64.toNat := by
    change (~~~(n <<< 1).toBitVec).toNat = _
    rw [BitVec.toNat_not]
    rfl
  rw [encode, sign_of_neg hsign, Int64.xor_neg_one, hflip]
  omega

/-! ## Words at positions -/

theorem toInt_half (position : UInt64) :
    (position >>> 1).toInt64.toInt = position.toNat / 2 := by
  have hlt := position.toNat_lt
  have hhalf : (position >>> 1).toNat = position.toNat / 2 := by
    rw [UInt64.toNat_shiftRight, Nat.shiftRight_eq_div_pow]
    rfl
  have hint := BitVec.toInt_eq_toNat_cond (position >>> 1).toBitVec
  rw [UInt64.toNat_toBitVec, hhalf, if_pos (by omega)] at hint
  exact hint

theorem lowBit_eq (position : UInt64) : (position &&& 1).toNat = position.toNat % 2 := by
  rw [UInt64.toNat_and]
  exact Nat.and_one_is_mod _

theorem toInt_decode_of_even {position : UInt64} (heven : position.toNat % 2 = 0) :
    (decode position).toInt = position.toNat / 2 := by
  have hbit : position &&& 1 = 0 := UInt64.toNat_inj.mp (by rw [lowBit_eq, heven]; rfl)
  rw [decode, hbit, show -(0 : UInt64).toInt64 = 0 from rfl, Int64.xor_zero, toInt_half]

theorem toInt_decode_of_odd {position : UInt64} (hodd : position.toNat % 2 = 1) :
    (decode position).toInt = -(position.toNat / 2) - 1 := by
  have hlt := position.toNat_lt
  have hbit : position &&& 1 = 1 := UInt64.toNat_inj.mp (by rw [lowBit_eq, hodd]; rfl)
  rw [decode, hbit, show -(1 : UInt64).toInt64 = -1 from rfl, Int64.xor_neg_one,
    Int64.toInt_not, toInt_half]
  rw [Int.bmod_eq_of_le] <;> omega

/-! ## Inverse laws -/

theorem encode_decode (position : UInt64) : encode (decode position) = position := by
  apply UInt64.toNat_inj.mp
  rcases Nat.mod_two_eq_zero_or_one position.toNat with heven | hodd
  · have hword := toInt_decode_of_even heven
    have hposition := toNat_encode_of_nonneg (n := decode position) (by omega)
    omega
  · have hword := toInt_decode_of_odd hodd
    have hposition := toNat_encode_of_neg (n := decode position) (by omega)
    omega

theorem decode_encode (n : Int64) : decode (encode n) = n := by
  apply Int64.toInt_inj.mp
  by_cases hsign : 0 ≤ n.toInt
  · have hposition := toNat_encode_of_nonneg hsign
    rw [toInt_decode_of_even (by omega)]
    omega
  · have hposition := toNat_encode_of_neg (Int.not_le.mp hsign)
    rw [toInt_decode_of_odd (by omega)]
    omega

end Zigzag
end EventCourier
