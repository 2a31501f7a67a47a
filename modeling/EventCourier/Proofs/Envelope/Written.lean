import EventCourier.Proofs.Envelope.Form

/-!
# The written form of envelopes

What an envelope is written as depends on nothing but the envelope; limits only decide whether it
may be written.  The written form has the form that a reader with those limits expects.  A reader
with other limits finds in it the same envelope, or refuses it, and it does so exactly where it
would not have written it itself.
-/

namespace EventCourier

theorem Text.toUtf8_eq_nil_iff {s : String} : toUtf8 s = [] ↔ s = "" := by
  constructor
  · intro hnil
    exact toUtf8_injective hnil
  · rintro rfl
    rfl

namespace Envelope

/-- What may be written under the limits: texts that are neither empty nor too long, a payload
that is not too long, and a whole millisecond. -/
structure Fits (limits : Limits) (envelope : Envelope) : Prop where
  texts : ∀ entry ∈ envelope.texts,
    entry.2 ≠ "" ∧ (Text.toUtf8 entry.2).length ≤ limits.maxFieldBytes.toNat
  payload_le : envelope.payload.length ≤ limits.maxPayloadBytes.toNat
  exact : ∃ millis, envelope.timestamp.exactMillis = .ok millis

/-- The octets that an envelope is written as, whatever the limits. -/
def written (envelope : Envelope) : Bytes :=
  Piece.encodeAll (envelope.pieces (Int64.ofInt envelope.timestamp.millis))

theorem written_eq (envelope : Envelope) :
    envelope.written =
      marker ++ ((Piece.block (Text.toUtf8 envelope.eventId)).encode ++
        (Bytes.ofWord (Int64.ofInt envelope.timestamp.millis).toUInt64 ++
          ((Piece.block (Text.toUtf8 envelope.source)).encode ++
            ((Piece.block (Text.toUtf8 envelope.aggregateType)).encode ++
              ((Piece.block (Text.toUtf8 envelope.aggregateId)).encode ++
                ((Piece.block (Text.toUtf8 envelope.eventType)).encode ++
                  (Piece.block envelope.payload).encode)))))) := by
  simp [written, pieces, Piece.encode]

theorem textFault?_eq_none_iff {limits : Limits} {name s : String} :
    textFault? limits name s = none ↔
      s ≠ "" ∧ (Text.toUtf8 s).length ≤ limits.maxFieldBytes.toNat := by
  unfold textFault?
  by_cases hempty : s = ""
  · simp [hempty, Text.toUtf8_eq_nil_iff]
  · simp [hempty, Text.toUtf8_eq_nil_iff]

theorem findSome?_textFault?_eq_none_iff {limits : Limits} {envelope : Envelope} :
    (envelope.texts.findSome? fun (name, s) => textFault? limits name s) = none ↔
      ∀ entry ∈ envelope.texts,
        entry.2 ≠ "" ∧ (Text.toUtf8 entry.2).length ≤ limits.maxFieldBytes.toNat := by
  rw [List.findSome?_eq_none_iff]
  exact forall₂_congr fun entry _ => textFault?_eq_none_iff

theorem encode_eq_ok_iff {envelope : Envelope} {limits : Limits} {bytes : Bytes} :
    envelope.encode limits = .ok bytes ↔ envelope.Fits limits ∧ bytes = envelope.written := by
  unfold encode
  split
  next cause hfault =>
    have hnot : ¬ envelope.Fits limits := by
      intro hfits
      rw [findSome?_textFault?_eq_none_iff.mpr hfits.texts] at hfault
      cases hfault
    simp [hnot]
  next hnone =>
    have htexts := findSome?_textFault?_eq_none_iff.mp hnone
    by_cases hpayload : limits.maxPayloadBytes.toNat < envelope.payload.length
    · have hnot : ¬ envelope.Fits limits := fun hfits =>
        Nat.not_le.mpr hpayload hfits.payload_le
      simp [hpayload, hnot]
    · cases hexact : envelope.timestamp.exactMillis with
      | error reason =>
          have hnot : ¬ envelope.Fits limits := by
            intro hfits
            obtain ⟨millis, hmillis⟩ := hfits.exact
            rw [hexact] at hmillis
            cases hmillis
          simp [hpayload, hnot]
      | ok millis =>
          have hfits : envelope.Fits limits := ⟨htexts, Nat.not_lt.mp hpayload, millis, hexact⟩
          obtain rfl := (Instant.exactMillis_eq_ok_iff.mp hexact).2.2
          simp [hpayload, hfits, written, eq_comm]

/-! ## The written form read -/

theorem textForm_encode
    {limits : Limits} {s : String}
    (hs : s ≠ "" ∧ (Text.toUtf8 s).length ≤ limits.maxFieldBytes.toNat) :
    TextForm limits (Piece.block (Text.toUtf8 s)).encode s :=
  ⟨blockForm_encode hs.2, hs.1⟩

theorem Fits.form
    {limits : Limits} {envelope : Envelope} (hfits : envelope.Fits limits) :
    Form limits envelope.written envelope := by
  have htexts := hfits.texts
  simp only [Envelope.texts, List.forall_mem_cons] at htexts
  obtain ⟨heventId, hsource, haggregateType, haggregateId, heventType, _⟩ := htexts
  rw [written_eq]
  exact .intro (textForm_encode heventId) (Instant.ofMillis?_millis hfits.exact)
    (textForm_encode hsource) (textForm_encode haggregateType) (textForm_encode haggregateId)
    (textForm_encode heventType) (blockForm_encode hfits.payload_le)

theorem TextForm.append_inj
    {limits : Limits} {octets r s : Bytes} {found held : String}
    (hform : TextForm limits octets found)
    (heq : octets ++ r = (Piece.block (Text.toUtf8 held)).encode ++ s) : found = held ∧ r = s := by
  obtain ⟨hcontent, hrest⟩ := hform.1.append_inj heq
  exact ⟨Text.toUtf8_injective hcontent, hrest⟩

/-- Where an envelope was written, a reader with any limits finds that envelope or none. -/
theorem Form.append_inj
    {limits : Limits} {octets r s : Bytes} {found held : Envelope}
    (hform : Form limits octets found)
    (hexact : ∃ millis, held.timestamp.exactMillis = .ok millis)
    (heq : octets ++ r = held.written ++ s) : found = held ∧ r = s := by
  cases hform with
  | intro heventId hmillis hsource haggregateType haggregateId heventType hpayload =>
      rw [written_eq] at heq
      simp only [List.append_assoc] at heq
      obtain ⟨_, heq⟩ := List.append_inj heq rfl
      obtain ⟨heventId, heq⟩ := heventId.append_inj heq
      obtain ⟨hwords, heq⟩ := List.append_inj heq rfl
      obtain ⟨hsource, heq⟩ := hsource.append_inj heq
      obtain ⟨haggregateType, heq⟩ := haggregateType.append_inj heq
      obtain ⟨haggregateId, heq⟩ := haggregateId.append_inj heq
      obtain ⟨heventType, heq⟩ := heventType.append_inj heq
      obtain ⟨hpayload, hrest⟩ := hpayload.append_inj heq
      rw [Bytes.ofWord_toUInt64_injective hwords, Instant.ofMillis?_millis hexact] at hmillis
      have htimestamp := Option.some.inj hmillis
      refine ⟨?_, hrest⟩
      rcases found with ⟨⟩
      rcases held with ⟨⟩
      simp_all

/-- A reader finds only what it could have written itself. -/
theorem Form.fits
    {limits : Limits} {octets : Bytes} {envelope : Envelope} (hform : Form limits octets envelope) :
    envelope.Fits limits := by
  have htext : ∀ {octets : Bytes} {s : String}, TextForm limits octets s →
      s ≠ "" ∧ (Text.toUtf8 s).length ≤ limits.maxFieldBytes.toNat :=
    fun hform => ⟨hform.2, hform.1.length_le⟩
  cases hform with
  | intro heventId hmillis hsource haggregateType haggregateId heventType hpayload =>
      refine ⟨?_, hpayload.length_le, _, Instant.exactMillis_eq_ok_iff_ofMillis?.mpr hmillis⟩
      simp only [texts, List.forall_mem_cons]
      exact ⟨htext heventId, htext hsource, htext haggregateType, htext haggregateId,
        htext heventType, by simp⟩

/-- Reading the written form of an envelope, under any limits and with anything behind it. -/
theorem decode_written_eq_ok_iff
    {envelope found : Envelope} {limits : Limits} (rest : Bytes)
    (hexact : ∃ millis, envelope.timestamp.exactMillis = .ok millis) :
    decode (envelope.written ++ rest) limits = .ok found ↔
      envelope.Fits limits ∧ found = envelope := by
  rw [decode_eq_ok_iff]
  constructor
  · rintro ⟨octets, back, heq, hform⟩
    obtain ⟨rfl, _⟩ := hform.append_inj hexact heq.symm
    exact ⟨hform.fits, rfl⟩
  · rintro ⟨hfits, rfl⟩
    exact ⟨_, rest, rfl, hfits.form⟩

/-- Different envelopes are written differently. -/
theorem written_injective
    {envelope other : Envelope} {limits : Limits} (hfits : envelope.Fits limits)
    (hexact : ∃ millis, other.timestamp.exactMillis = .ok millis)
    (hwritten : envelope.written = other.written) : envelope = other :=
  (hfits.form.append_inj hexact (congrArg (· ++ []) hwritten)).1

end Envelope
end EventCourier
