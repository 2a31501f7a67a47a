import EventCourier.Proofs.Envelope.RoundTrip

/-!
# Envelopes written again

A reader accepts envelopes that nobody wrote: with a length spelled at length, with octets behind
the end.  What it finds can be written under the same limits all the same, in no more octets than
were read, and is read back from there.  The octets read begin with the written ones unless one of
the lengths in them has a shorter spelling.
-/

namespace EventCourier

/-- The spellings of the lengths of blocks as they stand in a byte string, when the given numbers
of octets lie in front of the blocks and between them. -/
def blockLengths : List Nat → Bytes → List Bytes
  | [], _ => []
  | gap :: gaps, bytes =>
    let ahead := bytes.drop gap
    match Varint.decode ahead with
    | .error _ => []
    | .ok (length, used) =>
      ahead.take used :: blockLengths gaps (ahead.drop (used + length.toNat))

theorem blockLengths_append
    {front : Bytes} {gap : Nat} (hlength : front.length = gap) (gaps : List Nat) (rest : Bytes) :
    blockLengths (gap :: gaps) (front ++ rest) = blockLengths (0 :: gaps) rest := by
  simp [blockLengths, ← hlength]

theorem BlockForm.shortest_iff
    {limit : UInt64} {octets content : Bytes} (hblock : BlockForm limit octets content)
    (gaps : List Nat) (rest : Bytes) :
    (∀ spelling ∈ blockLengths (0 :: gaps) (octets ++ rest), Varint.Shortest spelling) ↔
      octets = (Piece.block content).encode ∧
        ∀ spelling ∈ blockLengths gaps rest, Varint.Shortest spelling := by
  rcases hblock with ⟨size, value, hspells, rfl, hlength, _⟩
  have hread := Varint.decode_append hspells (content ++ rest)
  have hbehind : (size ++ (content ++ rest)).drop (size.length + value.toNat) = rest := by
    rw [← hlength, ← List.append_assoc, ← List.length_append, List.drop_left]
  rw [blockLengths, List.append_assoc, List.drop_zero, hread]
  simp only [List.forall_mem_cons, List.take_left, hbehind]
  rw [hspells.shortest_iff, Piece.encode, hlength, List.append_left_inj]

namespace Envelope

/-- The spellings of the lengths as they stand in the octets of an envelope. -/
def lengths : Bytes → List Bytes :=
  blockLengths [marker.length, 8, 0, 0, 0, 0]

theorem Form.eq_written_iff
    {limits : Limits} {octets : Bytes} {envelope : Envelope} (hform : Form limits octets envelope)
    (rest : Bytes) :
    octets = envelope.written ↔
      ∀ spelling ∈ lengths (octets ++ rest), Varint.Shortest spelling := by
  cases hform with
  | @intro _ millis _ _ _ _ _ _ heventId hmillis hsource haggregateType haggregateId heventType
      hpayload =>
      have hword := (Instant.exactMillis_eq_ok_iff.mp
        (Instant.exactMillis_eq_ok_iff_ofMillis?.mpr hmillis)).2.2
      have hwidth := Bytes.length_ofWord millis.toUInt64
      -- Both sides come apart at the blocks, and say the same of each.
      rw [written_eq, ← hword, List.append_right_inj, heventId.1.append_eq_append_iff,
        List.append_right_inj, hsource.1.append_eq_append_iff,
        haggregateType.1.append_eq_append_iff, haggregateId.1.append_eq_append_iff,
        heventType.1.append_eq_append_iff]
      simp only [lengths, List.append_assoc]
      rw [blockLengths_append rfl, heventId.1.shortest_iff, blockLengths_append hwidth,
        hsource.1.shortest_iff, haggregateType.1.shortest_iff, haggregateId.1.shortest_iff,
        heventType.1.shortest_iff, hpayload.shortest_iff]
      simp [blockLengths]

theorem Form.length_written_le
    {limits : Limits} {octets : Bytes} {envelope : Envelope}
    (hform : Form limits octets envelope) : envelope.written.length ≤ octets.length := by
  rw [written_eq]
  cases hform with
  | intro heventId _ hsource haggregateType haggregateId heventType hpayload =>
      have heventId := heventId.1.length_encode_le (Nat.le_refl _)
      have hsource := hsource.1.length_encode_le (Nat.le_refl _)
      have haggregateType := haggregateType.1.length_encode_le (Nat.le_refl _)
      have haggregateId := haggregateId.1.length_encode_le (Nat.le_refl _)
      have heventType := heventType.1.length_encode_le (Nat.le_refl _)
      have hpayload := hpayload.length_encode_le (Nat.le_refl _)
      simp only [List.length_append, Bytes.length_ofWord]
      omega

/-- What is read from any octets can be written under the limits of the reader, in no more octets,
and those are read as the same envelope.  They are the front of the octets read exactly if every
length there has its shortest spelling. -/
theorem canonical_of_decode
    {bytes : Bytes} {limits : Limits} {envelope : Envelope}
    (hread : decode bytes limits = .ok envelope) :
    envelope.Fits limits ∧
      ∃ canonical, envelope.encode limits = .ok canonical ∧
        canonical.length ≤ bytes.length ∧ decode canonical limits = .ok envelope ∧
        ((∀ spelling ∈ lengths bytes, Varint.Shortest spelling) ↔
          ∃ rest, bytes = canonical ++ rest) := by
  obtain ⟨octets, rest, rfl, hform⟩ := decode_eq_ok_iff.mp hread
  have hfits := hform.fits
  have hlength : envelope.written.length ≤ (octets ++ rest).length :=
    hform.length_written_le.trans (by simp)
  have hagain : decode envelope.written limits = .ok envelope :=
    decode_eq_ok_iff.mpr ⟨_, [], (List.append_nil _).symm, hfits.form⟩
  refine ⟨hfits, envelope.written, encode_eq_ok_iff.mpr ⟨hfits, rfl⟩, hlength, hagain, ?_⟩
  rw [← hform.eq_written_iff rest]
  constructor
  · intro hwritten
    exact ⟨rest, by rw [← hwritten]⟩
  · rintro ⟨rest', heq⟩
    obtain ⟨_, rfl⟩ := hform.append_inj hfits.exact heq
    exact List.append_cancel_right heq

/-- Two lengths in the long octets of the parcel have shorter spellings, and none has in the
written ones, with two octets behind them. -/
theorem canonical_of_longParcelOctets :
    decode longParcelOctets ⟨10, 3, 0⟩ = .ok parcel ∧
      lengths longParcelOctets = [[133, 128, 0], [7], [6], [3], [10], [131, 0]] ∧
      parcel.encode ⟨10, 3, 0⟩ = .ok parcelOctets ∧
      ¬ (∀ spelling ∈ lengths longParcelOctets, Varint.Shortest spelling) ∧
      decode (parcelOctets ++ [7, 7]) ⟨10, 3, 0⟩ = .ok parcel ∧
      ∀ spelling ∈ lengths (parcelOctets ++ [7, 7]), Varint.Shortest spelling := by
  have hfollowed : decode (parcelOctets ++ [7, 7]) ⟨10, 3, 0⟩ = .ok parcel := by decide +kernel
  obtain ⟨-, canonical, hwritten, -, -, hlong⟩ := canonical_of_decode decode_longParcelOctets
  obtain ⟨-, again, hwritten', -, -, hshort⟩ := canonical_of_decode hfollowed
  obtain rfl : parcelOctets = canonical := Except.ok.inj (encode_parcel.symm.trans hwritten)
  obtain rfl : parcelOctets = again := Except.ok.inj (encode_parcel.symm.trans hwritten')
  refine ⟨decode_longParcelOctets, by decide +kernel, encode_parcel, fun hshortest => ?_,
    hfollowed, hshort.mpr ⟨[7, 7], rfl⟩⟩
  obtain ⟨rest, heq⟩ := hlong.mp hshortest
  have hfront : longParcelOctets.take 5 = parcelOctets.take 5 := by
    rw [heq]
    rfl
  cases hfront

end Envelope
end EventCourier
