import EventCourier.Proofs.Codec
import EventCourier.Proofs.User.Fitting

/-!
# Payloads of facts

The codec of user events encodes the facts that are within its limits, but for the size of the
whole payload.  No record of a fact has more than seven texts besides identifiers, and an
identifier is written in 36 octets.  So limits that leave room for seven of the longest texts, with
something over for what stands around them, leave room for every fact within them.  From a payload
and its event type the fact can be told.
-/

namespace EventCourier
namespace User

open Record

section Extent

variable {longest : Nat}

theorem Address.writtenWithin_toRecord
    {address : Address} (htexts : ∀ s ∈ address.texts, (Text.toUtf8 s).length ≤ longest)
    (hlongest : longest < 128 ^ 10) : address.toRecord.WrittenWithin (7 * longest + 126) := by
  simp only [texts, List.forall_mem_cons, List.forall_mem_append, Option.mem_toList] at htexts
  obtain ⟨_, hstreet, hdetail, hzip, hname, hcity, hstate, hcountry⟩ := htexts
  have hbuilt : address.toRecord.WrittenWithin (0 + 39 + (longest + 12) + (longest + 12) +
      (longest + 12) + 3 + (longest + 12) + (longest + 12) + (longest + 12) + (longest + 12)) :=
    writtenWithin_empty
      |>.insert (Nat.le_of_eq (length_entryWritten_uuid (by decide) address.addressId))
      |>.insert (length_entryWritten_text_le (by decide) hstreet hlongest)
      |>.insertIfSome (length_entryWritten_optionalText_le (by decide) hdetail hlongest)
      |>.insert (length_entryWritten_text_le (by decide) hzip hlongest)
      |>.insert (Nat.le_of_eq (length_entryWritten_bool (by decide) address.isDefault))
      |>.insertIfSome (length_entryWritten_optionalText_le (by decide) hname hlongest)
      |>.insertIfSome (length_entryWritten_optionalText_le (by decide) hcity hlongest)
      |>.insertIfSome (length_entryWritten_optionalText_le (by decide) hstate hlongest)
      |>.insertIfSome (length_entryWritten_optionalText_le (by decide) hcountry hlongest)
  exact Nat.le_trans hbuilt (by omega)

theorem Change.writtenWithin_intoRecord
    {change : Change} {record : Record} {count : Nat} (hrecord : record.WrittenWithin count)
    (htexts : ∀ s ∈ change.texts, (Text.toUtf8 s).length ≤ longest) (hlongest : longest < 2 ^ 64) :
    (change.intoRecord record).WrittenWithin (count + (7 * longest + 138)) := by
  have htext : longest < 128 ^ 10 := by omega
  have haddress : ∀ address : Address,
      (∀ s ∈ address.texts, (Text.toUtf8 s).length ≤ longest) →
        (record.insert 2 (.record address.toRecord)).WrittenWithin
          (count + (7 * longest + 138)) := by
    intro address htexts
    have hinner := Address.writtenWithin_toRecord htexts htext
    exact hrecord.insert (length_entryWritten_record_le (by decide) hinner (by omega))
  cases change with
  | created registration =>
      simp only [texts, List.forall_mem_cons, List.forall_mem_append, Option.mem_toList] at htexts
      obtain ⟨husername, hemail, hname, hphone, hkind, _⟩ := htexts
      have hbuilt : (intoRecord record (.created registration)).WrittenWithin (count +
          (longest + 12) + (longest + 12) + (longest + 12) + (longest + 12) + (longest + 12)) :=
        hrecord
          |>.insert (length_entryWritten_text_le (by decide) husername htext)
          |>.insert (length_entryWritten_text_le (by decide) hemail htext)
          |>.insert (length_entryWritten_text_le (by decide) hname htext)
          |>.insertIfSome (length_entryWritten_optionalText_le (by decide) hphone htext)
          |>.insert (length_entryWritten_text_le (by decide) hkind htext)
      exact Nat.le_trans hbuilt (by omega)
  | profileUpdated name phoneNumber =>
      simp only [texts, List.forall_mem_cons, Option.mem_toList] at htexts
      have hbuilt : (intoRecord record (.profileUpdated name phoneNumber)).WrittenWithin
          (count + (longest + 12) + (longest + 12)) :=
        hrecord
          |>.insert (length_entryWritten_text_le (by decide) htexts.1 htext)
          |>.insertIfSome (length_entryWritten_optionalText_le (by decide) htexts.2 htext)
      exact Nat.le_trans hbuilt (by omega)
  | addressAdded address | addressUpdated address => exact haddress address htexts
  | addressDeleted addressId =>
      have hbuilt : (intoRecord record (.addressDeleted addressId)).WrittenWithin (count + 39) :=
        hrecord.insert (Nat.le_of_eq (length_entryWritten_uuid (by decide) addressId))
      exact Nat.le_trans hbuilt (by omega)
  | deleted | passwordChanged | withdrawn | deactivated | activated =>
      exact Nat.le_trans hrecord (Nat.le_add_right _ _)

end Extent

theorem EventType.timeField_lt (eventType : EventType) : eventType.timeField < 128 := by
  cases eventType <;> decide

/-- What the record of a fact can take at most, with seven texts of the longest kind in it. -/
theorem Fact.Within.length_written_le
    {limits : Limits} {fact : Fact} (hwithin : fact.Within limits) :
    fact.toRecord.written.length ≤ 7 * limits.maxFieldBytes.toNat + 187 := by
  have htexts : ∀ s ∈ fact.change.texts,
      (Text.toUtf8 s).length ≤ limits.maxFieldBytes.toNat := fun s hs =>
    hwithin.texts s (List.mem_cons_of_mem _ hs)
  have huser : (Record.empty.insert userIdField (.uuid fact.userId)).WrittenWithin (0 + 39) :=
    writtenWithin_empty.insert (Nat.le_of_eq (length_entryWritten_uuid (by decide) fact.userId))
  have htime := length_entryWritten_timestamp fact.change.eventType.timeField_lt fact.time
  have hchange := Change.writtenWithin_intoRecord huser htexts limits.maxFieldBytes.toNat_lt
  have hbuilt := hchange.insert (Nat.le_of_eq htime)
  exact Nat.le_trans hbuilt (by omega)

/-! ## Encoding -/

section Encoding

variable {limits : Limits} {eventCodec : Codec Fact} {fact : Fact}

theorem find?_eventType (hcodec : codec limits = .ok eventCodec) (fact : Fact) :
    eventCodec.registry.find? fact.eventType = some fact.change.eventType.schema := by
  obtain ⟨_, _, hfind⟩ := codec_eq_ok hcodec
  rw [hfind, Fact.eventType, EventType.ofName?_name]
  rfl

theorem encodePayload_eq (hcodec : codec limits = .ok eventCodec) :
    eventCodec.encodePayload fact =
      Payload.encode fact.change.eventType.schema fact.toRecord limits := by
  rcases codec_eq_ok hcodec with ⟨hfamily, hlimits, _⟩
  have hschema := Registry.lookup_eq_ok_iff.mpr (find?_eventType hcodec fact)
  rw [Codec.encodePayload, hfamily, hlimits]
  simp only [Fact.family, hschema]
  rfl

/-- Facts are encoded exactly when they are within the limits and their payloads are. -/
theorem encodePayload_eq_ok_iff
    {payload : Bytes} (hcodec : codec limits = .ok eventCodec) :
    eventCodec.encodePayload fact = .ok payload ↔
      fact.Within limits ∧
        payload = Varint.encode fact.change.eventType.version.toNat ++ fact.toRecord.written ∧
        payload.length ≤ limits.maxPayloadBytes.toNat := by
  rw [encodePayload_eq hcodec, ← Fact.fits_toRecord_iff]
  exact Payload.encode_eq_ok_iff

theorem length_encode_version (eventType : EventType) :
    (Varint.encode eventType.version.toNat).length = 1 :=
  Varint.length_encode_of_lt (by cases eventType <;> decide)

theorem exists_encodePayload
    (hcodec : codec limits = .ok eventCodec) (hwithin : fact.Within limits)
    (hroom : 7 * limits.maxFieldBytes.toNat + 188 ≤ limits.maxPayloadBytes.toNat) :
    ∃ payload, eventCodec.encodePayload fact = .ok payload := by
  have hversion := length_encode_version fact.change.eventType
  have hfields := hwithin.length_written_le
  simp only [encodePayload_eq_ok_iff hcodec]
  refine ⟨_, hwithin, rfl, ?_⟩
  rw [List.length_append]
  omega

end Encoding

/-! ## What is told from a payload -/

theorem EventType.name_injective {eventType other : EventType}
    (hname : eventType.name = other.name) : eventType = other := by
  have hfound := ofName?_name eventType
  rw [hname, ofName?_name] at hfound
  exact (Option.some.inj hfound).symm

section Payloads

variable {limits limits' : Limits} {eventCodec eventCodec' : Codec Fact} {fact other : Fact}
variable {payload payload' : Bytes}

theorem payload_eq_of_encodePayload
    (hcodec : codec limits = .ok eventCodec) (hcodec' : codec limits' = .ok eventCodec')
    (hwritten : eventCodec.encodePayload fact = .ok payload)
    (hwritten' : eventCodec'.encodePayload fact = .ok payload') : payload = payload' := by
  obtain ⟨_, hpayload, _⟩ := (encodePayload_eq_ok_iff hcodec).mp hwritten
  obtain ⟨_, hpayload', _⟩ := (encodePayload_eq_ok_iff hcodec').mp hwritten'
  rw [hpayload, hpayload']

/-- Facts of one type with the same payload are the same. -/
theorem fact_eq_of_encodePayload
    (hcodec : codec limits = .ok eventCodec) (hcodec' : codec limits' = .ok eventCodec')
    (htype : fact.eventType = other.eventType)
    (hwritten : eventCodec.encodePayload fact = .ok payload)
    (hwritten' : eventCodec'.encodePayload other = .ok payload) : fact = other := by
  rw [encodePayload_eq hcodec] at hwritten
  rw [encodePayload_eq hcodec', ← EventType.name_injective htype] at hwritten'
  have hsame := Payload.record_eq_of_encode hwritten hwritten'
  have hrebuilt := fact.ofRecord_toRecord
  rw [hsame, htype, other.ofRecord_toRecord] at hrebuilt
  exact (Except.ok.inj hrebuilt).symm

end Payloads

end User
end EventCourier
