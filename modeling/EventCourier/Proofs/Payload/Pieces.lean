import EventCourier.Proofs.Payload.Grammar
import EventCourier.Proofs.Payload.Written
import EventCourier.Proofs.Wire.Block
import EventCourier.Proofs.Zigzag

/-!
# Written values in the grammar

The written form of a value has the form that a reader expects, if the reader's limits allow it.
No other octets at the same place do: where a reader finds a value of the kind that was written,
it finds the end of the value that was written, and a value that it knows is that value.
-/

namespace EventCourier
namespace Payload

/-- Where a value was written, a reader that steps over it finds its end. -/
theorem SkippedForm.append_inj
    {limits : Limits} {octets r s : Bytes} {held : Value}
    (hform : SkippedForm limits held.kind octets) (heq : octets ++ r = held.piece.encode ++ s) :
    r = s := by
  have hblocks : ∀ {kind : Kind} {content : Bytes},
      kind = .text ∨ kind = .bytes ∨ kind = .record → SkippedForm limits kind octets →
        octets ++ r = (Piece.block content).encode ++ s → r = s := by
    intro kind content hkind hform heq
    cases hform with
    | block _ hblock => exact (hblock.append_inj heq).2
    | bool _ => simp at hkind
    | int _ => simp at hkind
    | timestamp _ => simp at hkind
  cases held with
  | bool b =>
      cases hform with
      | bool octet => exact (List.cons.inj heq).2
      | block hkind _ => simp [Value.kind] at hkind
  | int n =>
      cases hform with
      | int hspells =>
          rw [Value.piece, Piece.encode] at heq
          exact (hspells.append_inj (Varint.spells_encode _) heq).2.2
      | block hkind _ => simp [Value.kind] at hkind
  | timestamp t =>
      cases hform with
      | timestamp hlength =>
          rw [Value.piece, Piece.encode] at heq
          exact (List.append_inj heq (hlength.trans (Bytes.length_ofWord _).symm)).2
      | block hkind _ => simp [Value.kind] at hkind
  | text s => exact hblocks (.inl rfl) hform heq
  | bytes content => exact hblocks (.inr (.inl rfl)) hform heq
  | record inner =>
      rw [Value.piece] at heq
      exact hblocks (.inr (.inr rfl)) hform heq

theorem ScalarForm.ne_record
    {limits : Limits} {kind : Kind} {octets : Bytes} {value : Value}
    (hform : ScalarForm limits kind octets value) (inner : Record) : value ≠ .record inner := by
  rintro rfl
  cases hform

theorem ScalarForm.append_inj
    {limits : Limits} {octets r s : Bytes} {held found : Value}
    (hexact : ∀ t, held = .timestamp t → ∃ millis, t.exactMillis = .ok millis)
    (hform : ScalarForm limits held.kind octets found)
    (heq : octets ++ r = held.piece.encode ++ s) : found = held ∧ held.Within limits ∧ r = s := by
  cases held with
  | bool b =>
      cases hform with
      | bool found =>
          obtain ⟨hoctet, hrest⟩ := List.cons.inj heq
          refine ⟨?_, trivial, hrest⟩
          cases found <;> cases b <;> first | rfl | cases hoctet
  | int n =>
      cases hform with
      | int hspells =>
          rw [Value.piece, Piece.encode] at heq
          obtain ⟨_, rfl, hrest⟩ := hspells.append_inj (Varint.spells_encode _) heq
          exact ⟨by rw [Zigzag.decode_encode], trivial, hrest⟩
  | text s =>
      cases hform with
      | text hblock =>
          rw [Value.piece] at heq
          obtain ⟨hcontent, hrest⟩ := hblock.append_inj heq
          obtain rfl := Text.toUtf8_injective hcontent
          exact ⟨rfl, hblock.length_le, hrest⟩
  | bytes content =>
      cases hform with
      | bytes hblock =>
          rw [Value.piece] at heq
          obtain ⟨rfl, hrest⟩ := hblock.append_inj heq
          exact ⟨rfl, hblock.length_le, hrest⟩
  | timestamp t =>
      cases hform with
      | timestamp hmillis =>
          rw [Value.piece, Piece.encode] at heq
          obtain ⟨hwords, hrest⟩ := List.append_inj heq rfl
          have hwhole := hexact t rfl
          obtain rfl := Bytes.ofWord_toUInt64_injective hwords
          rw [Instant.ofMillis?_millis hwhole] at hmillis
          exact ⟨by rw [Option.some.inj hmillis], hwhole, hrest⟩
  | record inner => cases hform

theorem skippedForm_piece
    {limits : Limits} {value : Value}
    (hfits : value.piece.encode.length ≤ limits.maxPayloadBytes.toNat) :
    SkippedForm limits value.kind value.piece.encode := by
  have hblock : ∀ {content : Bytes},
      (Piece.block content).encode.length ≤ limits.maxPayloadBytes.toNat →
        BlockForm limits.maxPayloadBytes (Piece.block content).encode content := by
    intro content hfits
    rw [Piece.encode, List.length_append] at hfits
    exact blockForm_encode (by omega)
  cases value with
  | bool b => exact .bool _
  | int n => exact .int (Varint.spells_encode _)
  | text s => exact .block (.inl rfl) (hblock hfits)
  | bytes content => exact .block (.inr (.inl rfl)) (hblock hfits)
  | timestamp t => exact .timestamp (Bytes.length_ofWord _)
  | record inner => exact .block (.inr (.inr rfl)) (hblock hfits)

theorem scalarForm_piece
    {limits : Limits} {value : Value} (hscalar : value.kind ≠ .record)
    (hwithin : value.Within limits) : ScalarForm limits value.kind value.piece.encode value := by
  cases value with
  | bool b => exact .bool b
  | int n =>
      have hform := @ScalarForm.int limits _ _ (Varint.spells_encode (Zigzag.encode n))
      rwa [Zigzag.decode_encode] at hform
  | text s => exact .text (blockForm_encode hwithin)
  | bytes content => exact .bytes (blockForm_encode hwithin)
  | timestamp t =>
      rw [Value.piece, Piece.encode]
      exact .timestamp (Instant.ofMillis?_millis hwithin)
  | record inner => exact absurd rfl hscalar

end Payload
end EventCourier
