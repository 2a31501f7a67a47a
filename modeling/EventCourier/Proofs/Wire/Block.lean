import EventCourier.Proofs.Wire.Reading
import EventCourier.Wire.Piece

/-!
# Written blocks

A block is written with the shortest spelling of its length.  A reader whose limit allows the
content accepts it so, finds the end of it whatever follows, and accepts no shorter octets for the
same content.
-/

namespace EventCourier

/-- How many octets a block takes, the number that says its size included. -/
def Piece.blockLen (size : Nat) : Nat :=
  Varint.encodedLen size + size

theorem Piece.length_encode_block (octets : Bytes) :
    (Piece.block octets).encode.length = blockLen octets.length := by
  rw [Piece.encode, List.length_append, Varint.length_encode, blockLen]

theorem BlockForm.length_le
    {limit : UInt64} {octets content : Bytes} (hblock : BlockForm limit octets content) :
    content.length ≤ limit.toNat := by
  rcases hblock with ⟨_, value, _, _, hlength, hle⟩
  rw [hlength]
  exact UInt64.le_iff_toNat_le.mp hle

theorem BlockForm.length_content_le
    {limit : UInt64} {octets content : Bytes} (hblock : BlockForm limit octets content) :
    content.length ≤ octets.length := by
  rcases hblock with ⟨size, value, _, rfl, _, _⟩
  simp

/-- A block is a block for every limit that allows its content. -/
theorem BlockForm.within
    {limit limit' : UInt64} {octets content : Bytes} (hblock : BlockForm limit octets content)
    (hfits : content.length ≤ limit'.toNat) : BlockForm limit' octets content := by
  rcases hblock with ⟨size, value, hspells, hoctets, hlength, _⟩
  refine ⟨size, value, hspells, hoctets, hlength, ?_⟩
  rw [UInt64.le_iff_toNat_le, ← hlength]
  exact hfits

theorem blockForm_encode
    {limit : UInt64} {content : Bytes} (hfits : content.length ≤ limit.toNat) :
    BlockForm limit (Piece.block content).encode content := by
  have hlt := Nat.lt_of_le_of_lt hfits limit.toNat_lt
  have hlength : (UInt64.ofNat content.length).toNat = content.length :=
    UInt64.toNat_ofNat_of_lt' hlt
  have hspells := Varint.spells_encode (UInt64.ofNat content.length)
  rw [hlength] at hspells
  refine ⟨_, _, hspells, rfl, hlength.symm, ?_⟩
  rw [UInt64.le_iff_toNat_le, hlength]
  exact hfits

theorem BlockForm.append_inj
    {limit : UInt64} {octets content written r s : Bytes} (hblock : BlockForm limit octets content)
    (heq : octets ++ r = (Piece.block written).encode ++ s) : content = written ∧ r = s := by
  rcases hblock with ⟨size, value, hspells, rfl, hlength, _⟩
  rw [Piece.encode, List.append_assoc, List.append_assoc] at heq
  obtain ⟨_, hsame, hrest⟩ := hspells.1.append_inj (Varint.groups_encode _) heq
  exact List.append_inj hrest (hlength.trans hsame)

/-- The only octets that begin with a block and with its written form are those written. -/
theorem BlockForm.append_eq_append_iff
    {limit : UInt64} {octets content r s : Bytes} (hblock : BlockForm limit octets content) :
    octets ++ r = (Piece.block content).encode ++ s ↔
      octets = (Piece.block content).encode ∧ r = s := by
  constructor
  · intro heq
    obtain ⟨_, rfl⟩ := hblock.append_inj heq
    exact ⟨List.append_cancel_right heq, rfl⟩
  · rintro ⟨heq, rfl⟩
    rw [heq]

theorem BlockForm.length_encode_le
    {limit : UInt64} {octets content written : Bytes} (hblock : BlockForm limit octets content)
    (hshorter : written.length ≤ content.length) :
    (Piece.block written).encode.length ≤ octets.length := by
  rcases hblock with ⟨size, value, hspells, rfl, hlength, _⟩
  have hsize : (Varint.encode content.length).length ≤ size.length := by
    rw [hlength]
    exact hspells.1.length_encode_le
  have hmono := Varint.length_encode_mono hshorter
  rw [Piece.encode, List.length_append, List.length_append]
  omega

end EventCourier
