import EventCourier.Proofs.Envelope.Written

/-!
# Envelopes there and back

A reader gives back the envelope that was written, under its own limits: it accepts exactly the
envelopes that it would have written itself.  Whatever octets it accepts, it finds their end by
itself.  A cut before the end is refused, and what follows the end is left alone.
-/

namespace EventCourier
namespace Envelope

/-- A reader gives back the envelope that was written if it could have written it within its own
limits, and then in the same octets.  Otherwise it refuses them as undecodable. -/
theorem decode_encode_between_limits
    {envelope : Envelope} {limits limits' : Limits} {bytes : Bytes}
    (hwritten : envelope.encode limits = .ok bytes) :
    (∀ again, envelope.encode limits' = .ok again →
      again = bytes ∧ decode bytes limits' = .ok envelope) ∧
      ∀ refusal, envelope.encode limits' = .error refusal →
        ∃ cause, decode bytes limits' = .error (.decoding cause) := by
  obtain ⟨hfits, rfl⟩ := encode_eq_ok_iff.mp hwritten
  have hdecode := fun found => @decode_written_eq_ok_iff envelope found limits' [] hfits.exact
  simp only [List.append_nil] at hdecode
  constructor
  · intro again hagain
    obtain ⟨hfits', rfl⟩ := encode_eq_ok_iff.mp hagain
    exact ⟨rfl, (hdecode envelope).mpr ⟨hfits', rfl⟩⟩
  · intro refusal hrefused
    cases hread : decode envelope.written limits' with
    | ok found =>
        have hfits' := ((hdecode found).mp hread).1
        rw [encode_eq_ok_iff.mpr ⟨hfits', rfl⟩] at hrefused
        cases hrefused
    | error error =>
        obtain ⟨cause, rfl⟩ := exists_decoding_of_decode_error hread
        exact ⟨cause, rfl⟩

def parcel : Envelope where
  eventId := "n° 7"
  timestamp := ⟨-86400, 250000000, by decide⟩
  source := "dépôt"
  aggregateType := "Parcel"
  aggregateId := "p-1"
  eventType := "ParcelSent"
  payload := [1, 0, 255]

def parcelOctets : Bytes :=
  [69, 86, 84, 49, 5, 110, 194, 176, 32, 55, 255, 255, 255, 255, 250, 217, 164, 250, 7, 100, 195,
    169, 112, 195, 180, 116, 6, 80, 97, 114, 99, 101, 108, 3, 112, 45, 49, 10, 80, 97, 114, 99,
    101, 108, 83, 101, 110, 116, 3, 1, 0, 255]

theorem encode_parcel : parcel.encode ⟨10, 3, 0⟩ = .ok parcelOctets := by
  cbv

/-- A field limit of ten octets just allows the event type, and one of nine does not. -/
theorem decode_parcelOctets :
    parcel.encode ⟨10, 3, 0⟩ = .ok parcelOctets ∧
      decode parcelOctets ⟨10, 3, 0⟩ = .ok parcel ∧
      parcel.encode ⟨9, 64, 8⟩ =
        .error (.encoding (.envelopeFieldTooLong "event_type" 10 9)) ∧
      ∃ cause, decode parcelOctets ⟨9, 64, 8⟩ = .error (.decoding cause) := by
  have hrefused : parcel.encode ⟨9, 64, 8⟩ =
      .error (.encoding (.envelopeFieldTooLong "event_type" 10 9)) := by
    cbv
  have hread := ((decode_encode_between_limits encode_parcel).1 _ encode_parcel).2
  exact ⟨encode_parcel, hread, hrefused,
    (decode_encode_between_limits encode_parcel).2 _ hrefused⟩

/-! ## The end of an envelope -/

theorem Form.exists_decoding_of_cut
    {limits : Limits} {octets rest : Bytes} {envelope : Envelope}
    (hform : Form limits octets envelope) {k : Nat} (hcut : k < octets.length) :
    ∃ cause, decode ((octets ++ rest).take k) limits = .error (.decoding cause) := by
  obtain ⟨cause, hrun⟩ := (accepts_reading limits).exists_error_of_cut hform hcut
  exact ⟨cause, by rw [decode, hrun]⟩

/-- The end of written octets is where the writer stopped, for every reader. -/
theorem Form.eq_nil_of_written
    {limits limits' : Limits} {octets rest : Bytes} {found envelope : Envelope}
    (hform : Form limits octets found)
    (hwritten : envelope.encode limits' = .ok (octets ++ rest)) : rest = [] := by
  obtain ⟨hfits, heq⟩ := encode_eq_ok_iff.mp hwritten
  rw [← List.append_nil envelope.written] at heq
  exact (hform.append_inj hfits.exact heq).2

theorem exists_decoding_of_cut_of_encode
    {envelope : Envelope} {limits limits' : Limits} {bytes : Bytes}
    (hwritten : envelope.encode limits' = .ok bytes) {k : Nat} (hcut : k < bytes.length) :
    ∃ cause, decode (bytes.take k) limits = .error (.decoding cause) := by
  cases hread : decode (bytes.take k) limits with
  | error error =>
      obtain ⟨cause, rfl⟩ := exists_decoding_of_decode_error hread
      exact ⟨cause, rfl⟩
  | ok found =>
      obtain ⟨octets, rest, hfront, hform⟩ := decode_eq_ok_iff.mp hread
      have hwhole : bytes = octets ++ (rest ++ bytes.drop k) := by
        rw [← List.append_assoc, ← hfront, List.take_append_drop]
      rw [hwhole] at hwritten
      have hnil := hform.eq_nil_of_written hwritten
      have hlength := congrArg List.length hnil
      simp only [List.length_append, List.length_drop, List.length_nil] at hlength
      omega

/-- Octets that a reader accepts have an end: every cut before it is refused, and whatever follows
it the same envelope is read.  Written octets end with their last octet.  So every cut of them is
refused, and octets appended to them make no difference, whether the reader accepts them or not. -/
theorem decode_selfDelimiting {bytes : Bytes} {limits : Limits} :
    (∀ envelope, decode bytes limits = .ok envelope →
      ∃ n ≤ bytes.length,
        (∀ k < n, ∃ cause, decode (bytes.take k) limits = .error (.decoding cause)) ∧
        (∀ rest, decode (bytes.take n ++ rest) limits = .ok envelope) ∧
        ∀ (written : Envelope) limits', written.encode limits' = .ok bytes → n = bytes.length) ∧
      ∀ (written : Envelope) limits', written.encode limits' = .ok bytes →
        (∀ k < bytes.length, ∃ cause, decode (bytes.take k) limits = .error (.decoding cause)) ∧
        ∀ rest found, decode (bytes ++ rest) limits = .ok found ↔
          decode bytes limits = .ok found := by
  constructor
  · intro envelope hread
    obtain ⟨octets, back, rfl, hform⟩ := decode_eq_ok_iff.mp hread
    refine ⟨octets.length, by simp, ?_, ?_, ?_⟩
    · intro k hcut
      exact hform.exists_decoding_of_cut hcut
    · intro rest
      rw [List.take_left]
      exact decode_eq_ok_iff.mpr ⟨octets, rest, rfl, hform⟩
    · intro written limits' hwritten
      simp [hform.eq_nil_of_written hwritten]
  · intro written limits' hwritten
    refine ⟨fun k hcut => exists_decoding_of_cut_of_encode hwritten hcut, fun rest found => ?_⟩
    obtain ⟨hfits, rfl⟩ := encode_eq_ok_iff.mp hwritten
    have hbare := @decode_written_eq_ok_iff written found limits [] hfits.exact
    rw [List.append_nil] at hbare
    rw [decode_written_eq_ok_iff rest hfits.exact, hbare]

/-- The parcel with two lengths spelled at length, and an octet behind it. -/
def longParcelOctets : Bytes :=
  [69, 86, 84, 49, 133, 128, 0, 110, 194, 176, 32, 55, 255, 255, 255, 255, 250, 217, 164, 250, 7,
    100, 195, 169, 112, 195, 180, 116, 6, 80, 97, 114, 99, 101, 108, 3, 112, 45, 49, 10, 80, 97,
    114, 99, 101, 108, 83, 101, 110, 116, 131, 0, 1, 0, 255, 7]

theorem decode_longParcelOctets : decode longParcelOctets ⟨10, 3, 0⟩ = .ok parcel := by
  decide +kernel

theorem exists_end_longParcelOctets :
    decode longParcelOctets ⟨10, 3, 0⟩ = .ok parcel ∧
      ∃ n ≤ 56,
        (∀ k < n, ∃ cause,
          decode (longParcelOctets.take k) ⟨10, 3, 0⟩ = .error (.decoding cause)) ∧
        ∀ rest, decode (longParcelOctets.take n ++ rest) ⟨10, 3, 0⟩ = .ok parcel := by
  obtain ⟨n, hn, hcut, hrest, _⟩ := decode_selfDelimiting.1 parcel decode_longParcelOctets
  exact ⟨decode_longParcelOctets, n, hn, hcut, hrest⟩

end Envelope
end EventCourier
