import EventCourier.Bytes
import Mathlib

/-!
# Words of eight bytes

Writing a word most significant byte first and reading eight bytes back undo one another.
-/

namespace EventCourier
namespace Bytes

theorem length_ofWord (word : UInt64) : (ofWord word).length = 8 := rfl

theorem toNat_ofWord (word : UInt64) : (ofWord word).toNat = word.toNat := by
  have hlt := word.toNat_lt
  simp only [ofWord, toNat, List.foldl_cons, List.foldl_nil, UInt64.toNat_toUInt8,
    UInt64.toNat_shiftRight, Nat.shiftRight_eq_div_pow, UInt64.reduceToNat, Nat.reduceMod,
    Nat.reducePow]
  omega

theorem toWord_ofWord (word : UInt64) : (ofWord word).toWord = word := by
  unfold toWord
  rw [toNat_ofWord, UInt64.ofNat_toNat]

theorem ofWord_toUInt64_injective
    {a b : Int64} (hsame : ofWord a.toUInt64 = ofWord b.toUInt64) : a = b := by
  have hwords : a.toUInt64 = b.toUInt64 := by
    rw [← toWord_ofWord a.toUInt64, hsame, toWord_ofWord]
  rw [← Int64.toInt64_toUInt64 a, hwords, Int64.toInt64_toUInt64]

theorem ofWord_toWord {octets : Bytes} (hlength : octets.length = 8) :
    ofWord octets.toWord = octets := by
  match octets, hlength with
  | [a, b, c, d, e, f, g, h], _ =>
      have ha := a.toNat_lt
      have hb := b.toNat_lt
      have hc := c.toNat_lt
      have hd := d.toNat_lt
      have he := e.toNat_lt
      have hf := f.toNat_lt
      have hg := g.toNat_lt
      have hh := h.toNat_lt
      simp only [ofWord, toWord, toNat, List.foldl_cons, List.foldl_nil, List.cons.injEq,
        ← UInt8.toNat_inj, UInt64.toNat_toUInt8, UInt64.toNat_shiftRight, UInt64.toNat_ofNat',
        Nat.shiftRight_eq_div_pow, UInt64.reduceToNat, Nat.reduceMod, Nat.reducePow, and_true]
      omega

end Bytes
end EventCourier
