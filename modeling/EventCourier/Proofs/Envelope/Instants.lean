import EventCourier.Proofs.Envelope.RoundTrip

/-!
# Instants of envelopes

The instants that can be read from envelopes are those that have exact milliseconds.  An envelope
whose milliseconds have no date is refused for them, whatever stands behind them.
-/

namespace EventCourier
namespace Envelope

/-- Some reader reads the instant from some envelope. -/
def Gives (t : Instant) : Prop :=
  ∃ bytes limits envelope, decode bytes limits = .ok envelope ∧ envelope.timestamp = t

theorem gives_iff {t : Instant} : Gives t ↔ ∃ millis, t.exactMillis = .ok millis := by
  constructor
  · intro hgives
    rcases hgives with ⟨bytes, limits, envelope, hread, rfl⟩
    rcases decode_eq_ok_iff.mp hread with ⟨octets, rest, _, hform⟩
    exact hform.fits.exact
  · intro hexact
    have hparcel := (encode_eq_ok_iff.mp encode_parcel).1
    have hfits : Fits ⟨10, 3, 0⟩ { parcel with timestamp := t } :=
      ⟨hparcel.texts, hparcel.payload_le, hexact⟩
    have hread := decode_eq_ok_iff.mpr ⟨_, [], (List.append_nil _).symm, hfits.form⟩
    exact ⟨_, _, _, hread, rfl⟩

/-- The octets begin with the marker, an event id, and the time as so many milliseconds. -/
def StatesMillis (limits : Limits) (bytes : Bytes) (millis : Int64) : Prop :=
  ∃ octets eventId rest, TextForm limits octets eventId ∧
    bytes = marker ++ (octets ++ (Bytes.ofWord millis.toUInt64 ++ rest))

theorem readTimestamp_undated
    {millis : Int64} (hundated : ¬ Instant.Dated millis) (offset : Nat) (rest : Bytes) :
    readTimestamp ⟨offset, Bytes.ofWord millis.toUInt64 ++ rest⟩ =
      (.error (.envelopeTimestamp millis), ⟨offset + 8, rest⟩) := by
  refine (Reading.accepts_word "timestamp").refuses_at rfl (by rfl) ?_ offset rest
  rw [Instant.ofMillis?_eq_none_iff.mpr hundated]

theorem StatesMillis.decode_eq
    {limits : Limits} {bytes : Bytes} {millis : Int64} (hstates : StatesMillis limits bytes millis)
    (hundated : ¬ Instant.Dated millis) :
    decode bytes limits = .error (.decoding (.envelopeTimestamp millis)) := by
  rcases hstates with ⟨octets, eventId, rest, hid, rfl⟩
  have hsteps : ∃ next : String → Instant → Reading Envelope,
      reading limits = readMarker.andThen fun _ =>
        (readText limits "event_id").andThen fun eventId => readTimestamp.andThen (next eventId) :=
    ⟨_, rfl⟩
  rcases hsteps with ⟨next, hnext⟩
  have hread : (reading limits).run (marker ++ (octets ++ (Bytes.ofWord millis.toUInt64 ++ rest))) =
      .error (.envelopeTimestamp millis) := by
    rw [Reading.run, Cursor.start, hnext,
      @Reading.Accepts.andThen_at Unit _ _ _ accepts_readMarker _ () rfl,
      (accepts_readText limits "event_id").andThen_at hid, Reading.andThen,
      readTimestamp_undated hundated]
  rw [decode, hread]

/-- The front of an envelope, with milliseconds that have no date. -/
def undatedOctets : Bytes :=
  marker ++ ((Piece.block (Text.toUtf8 "e")).encode ++
    (Bytes.ofWord Instant.firstUndated.toUInt64 ++ []))

theorem statesMillis_undatedOctets : StatesMillis {} undatedOctets Instant.firstUndated :=
  ⟨_, "e", [], textForm_encode ⟨by decide, by decide⟩, rfl⟩

end Envelope
end EventCourier
