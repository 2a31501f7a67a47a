import EventCourier.Proofs.Envelope.RoundTrip

/-!
# The length of envelopes

A writer asks for the room that an envelope takes before it writes the first octet.  The length of a
number is computed from its bits, those of the blocks are added up, and the sum is the length of
what is then written.
-/

namespace EventCourier
namespace Varint

theorem encodedLen_pos (n : Nat) : 1 ≤ encodedLen n := by
  rw [← length_encode]
  exact length_encode_pos n

theorem encodedLen_le_maxBytes (value : UInt64) : encodedLen value.toNat ≤ maxBytes := by
  rw [← length_encode]
  exact (spells_encode value).2

theorem encodedLen_mono {m n : Nat} (hle : m ≤ n) : encodedLen m ≤ encodedLen n := by
  rw [← length_encode, ← length_encode]
  exact length_encode_mono hle

end Varint

namespace Envelope

theorem length_written (envelope : Envelope) :
    envelope.written.length = envelope.encodedLen := by
  rw [written_eq]
  simp only [List.length_append, Piece.length_encode_block, Bytes.length_ofWord]
  dsimp only [encodedLen, Piece.blockLen]
  omega

/-- The length that is computed from a number is that of its written form, at least one and at most
ten, and no smaller for a larger number.  What is computed from an envelope is the length of its
octets, under whatever limits they are written. -/
theorem encodedLen_predicts :
    (∀ value : UInt64,
      Varint.encodedLen value.toNat = (Varint.encode value.toNat).length ∧
        1 ≤ Varint.encodedLen value.toNat ∧ Varint.encodedLen value.toNat ≤ Varint.maxBytes) ∧
      (∀ value larger : UInt64, value ≤ larger →
        Varint.encodedLen value.toNat ≤ Varint.encodedLen larger.toNat) ∧
      ∀ (envelope : Envelope) limits bytes, envelope.encode limits = .ok bytes →
        bytes.length = envelope.encodedLen := by
  refine ⟨?_, ?_, ?_⟩
  · intro value
    exact ⟨(Varint.length_encode _).symm, Varint.encodedLen_pos _,
      Varint.encodedLen_le_maxBytes value⟩
  · intro value larger hle
    exact Varint.encodedLen_mono (UInt64.le_iff_toNat_le.mp hle)
  · intro envelope limits bytes hwritten
    rcases encode_eq_ok_iff.mp hwritten with ⟨_, rfl⟩
    exact envelope.length_written

/-- An octet more is taken from the number 128 on. -/
theorem encodedLen_parcel :
    (127 : UInt64) ≤ 128 ∧
      Varint.encodedLen (127 : UInt64).toNat ≤ Varint.encodedLen (128 : UInt64).toNat ∧
      parcel.encode ⟨10, 3, 0⟩ = .ok parcelOctets ∧ parcelOctets.length = parcel.encodedLen := by
  rcases encodedLen_predicts with ⟨_, hmono, hlength⟩
  have hle : (127 : UInt64) ≤ 128 := by decide
  exact ⟨hle, hmono _ _ hle, encode_parcel, hlength _ _ _ encode_parcel⟩

end Envelope
end EventCourier
