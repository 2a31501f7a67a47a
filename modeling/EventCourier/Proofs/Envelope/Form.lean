import EventCourier.Envelope
import EventCourier.Proofs.Instant
import EventCourier.Proofs.Wire.Block
import EventCourier.Proofs.Wire.Extent

/-!
# The form of envelopes

The form below says which octets are an envelope for a reader with some limits, without saying how
they are read: the marker and the seven parts, each right behind the one before it.  Reading
accepts exactly the octets that begin with an envelope in this form.
-/

namespace EventCourier
namespace Envelope

/-- The octets are a text of an envelope. -/
def TextForm (limits : Limits) (octets : Bytes) (s : String) : Prop :=
  BlockForm limits.maxFieldBytes octets (Text.toUtf8 s) ∧ s ≠ ""

/-- The octets are an envelope, up to the last octet of its payload. -/
inductive Form (limits : Limits) : Bytes → Envelope → Prop
  | intro {envelope : Envelope} {millis : Int64}
      {eventId source aggregateType aggregateId eventType payload : Bytes}
      (heventId : TextForm limits eventId envelope.eventId)
      (hmillis : Instant.ofMillis? millis.toInt = some envelope.timestamp)
      (hsource : TextForm limits source envelope.source)
      (haggregateType : TextForm limits aggregateType envelope.aggregateType)
      (haggregateId : TextForm limits aggregateId envelope.aggregateId)
      (heventType : TextForm limits eventType envelope.eventType)
      (hpayload : BlockForm limits.maxPayloadBytes payload envelope.payload) :
      Form limits
        (marker ++ (eventId ++ (Bytes.ofWord millis.toUInt64 ++ (source ++
          (aggregateType ++ (aggregateId ++ (eventType ++ payload)))))))
        envelope

/-! ## Reading -/

theorem accepts_readMarker : readMarker.Accepts fun octets _ => octets = marker := by
  have htake : readMarker.Accepts fun octets _ =>
      ∃ found, (octets.length = marker.length ∧ found = octets) ∧ found = marker := by
    refine (Reading.accepts_take _ _).refine fun found => ?_
    by_cases hfound : found = marker
    · rw [if_pos hfound]
      exact (Reading.accepts_give ()).congr fun octets _ => by simp [hfound]
    · rw [if_neg hfound]
      exact (Reading.accepts_refuse _).congr fun octets _ => by simp [hfound]
  refine htake.congr fun octets _ => ?_
  constructor
  · rintro ⟨_, ⟨_, rfl⟩, hmarker⟩
    exact hmarker
  · rintro rfl
    exact ⟨marker, ⟨rfl, rfl⟩, rfl⟩

theorem accepts_readText (limits : Limits) (name : String) :
    (readText limits name).Accepts (TextForm limits) := by
  have htext : (readText limits name).Accepts fun octets s =>
      ∃ found, BlockForm limits.maxFieldBytes octets (Text.toUtf8 found) ∧
        found ≠ "" ∧ s = found := by
    refine (Reading.accepts_text name limits.maxFieldBytes).refine fun found => ?_
    by_cases hempty : found = ""
    · rw [if_pos hempty]
      exact (Reading.accepts_refuse _).congr fun octets s => by simp [hempty]
    · rw [if_neg hempty]
      exact (Reading.accepts_give found).congr fun octets s => by simp [hempty]
  refine htext.congr fun octets s => ?_
  constructor
  · rintro ⟨_, hblock, hnonempty, rfl⟩
    exact ⟨hblock, hnonempty⟩
  · rintro ⟨hblock, hnonempty⟩
    exact ⟨s, hblock, hnonempty, rfl⟩

theorem accepts_readTimestamp :
    readTimestamp.Accepts fun octets t =>
      ∃ millis : Int64, octets = Bytes.ofWord millis.toUInt64 ∧
        Instant.ofMillis? millis.toInt = some t := by
  refine (Reading.accepts_word _).refine fun millis => ?_
  cases hmillis : Instant.ofMillis? millis.toInt with
  | none => exact (Reading.accepts_refuse _).congr fun octets t => by simp
  | some found => exact (Reading.accepts_give found).congr fun octets t => by simp [eq_comm]

theorem accepts_reading (limits : Limits) : (reading limits).Accepts (Form limits) := by
  have hparts := accepts_readMarker.andThen fun _ =>
    (accepts_readText limits "event_id").andThen fun eventId =>
    accepts_readTimestamp.andThen fun timestamp =>
    (accepts_readText limits "source").andThen fun source =>
    (accepts_readText limits "aggregate_type").andThen fun aggregateType =>
    (accepts_readText limits "aggregate_id").andThen fun aggregateId =>
    (accepts_readText limits "event_type").andThen fun eventType =>
    (Reading.accepts_block "payload" limits.maxPayloadBytes).map fun payload =>
      ({ eventId, timestamp, source, aggregateType, aggregateId, eventType, payload } : Envelope)
  refine Reading.Accepts.congr hparts fun octets envelope => ?_
  constructor
  · intro h
    obtain ⟨_, _, _, rfl, h, rfl⟩ := h
    obtain ⟨_, _, _, heventId, h, rfl⟩ := h
    obtain ⟨_, _, _, ⟨_, rfl, hmillis⟩, h, rfl⟩ := h
    obtain ⟨_, _, _, hsource, h, rfl⟩ := h
    obtain ⟨_, _, _, haggregateType, h, rfl⟩ := h
    obtain ⟨_, _, _, haggregateId, h, rfl⟩ := h
    obtain ⟨_, _, _, heventType, ⟨_, hpayload, rfl⟩, rfl⟩ := h
    exact .intro heventId hmillis hsource haggregateType haggregateId heventType hpayload
  · intro hform
    cases hform with
    | intro heventId hmillis hsource haggregateType haggregateId heventType hpayload =>
        refine ⟨(), _, _, rfl, ?_, rfl⟩
        refine ⟨_, _, _, heventId, ?_, rfl⟩
        refine ⟨_, _, _, ⟨_, rfl, hmillis⟩, ?_, rfl⟩
        refine ⟨_, _, _, hsource, ?_, rfl⟩
        refine ⟨_, _, _, haggregateType, ?_, rfl⟩
        refine ⟨_, _, _, haggregateId, ?_, rfl⟩
        exact ⟨_, _, _, heventType, ⟨_, hpayload, rfl⟩, rfl⟩

theorem decode_eq_ok_iff_run {bytes : Bytes} {limits : Limits} {envelope : Envelope} :
    decode bytes limits = .ok envelope ↔ (reading limits).run bytes = .ok envelope := by
  unfold decode
  cases (reading limits).run bytes <;> simp

theorem decode_eq_ok_iff {bytes : Bytes} {limits : Limits} {envelope : Envelope} :
    decode bytes limits = .ok envelope ↔
      ∃ octets rest, bytes = octets ++ rest ∧ Form limits octets envelope := by
  rw [decode_eq_ok_iff_run, (accepts_reading limits).run_eq_ok_iff]

/-- What is refused is called undecodable. -/
theorem exists_decoding_of_decode_error
    {bytes : Bytes} {limits : Limits} {error : CodecError}
    (hrefused : decode bytes limits = .error error) : ∃ cause, error = .decoding cause := by
  unfold decode at hrefused
  split at hrefused
  · cases hrefused
  · cases hrefused
    exact ⟨_, rfl⟩

end Envelope
end EventCourier
