import EventCourier.Payload.Decoder
import EventCourier.Proofs.Wire.Reading

/-!
# The grammar of payloads

The forms below say which octets are a payload for a reader with some layout and limits, and which
record they hold, without saying how they are read.  A field is its id, the octet of its kind and
its value; the ids ascend; what a field that the layout does not have holds does not matter, so
long as its end can be found.
-/

namespace EventCourier
namespace Payload

/-- The octets are a value that can be stepped over by its kind alone. -/
inductive SkippedForm (limits : Limits) : Kind → Bytes → Prop
  | bool (octet : UInt8) : SkippedForm limits .bool [octet]
  | int {octets : Bytes} {number : UInt64} (hspells : Varint.Spells octets number) :
      SkippedForm limits .int octets
  | timestamp {octets : Bytes} (hlength : octets.length = 8) :
      SkippedForm limits .timestamp octets
  | block {kind : Kind} {octets content : Bytes}
      (hkind : kind = .text ∨ kind = .bytes ∨ kind = .record)
      (hblock : BlockForm limits.maxPayloadBytes octets content) :
      SkippedForm limits kind octets

/-- The octets are a value, not a record, of a field that the layout has. -/
inductive ScalarForm (limits : Limits) : Kind → Bytes → Value → Prop
  | bool (b : Bool) : ScalarForm limits .bool [if b then 1 else 0] (.bool b)
  | int {octets : Bytes} {position : UInt64} (hspells : Varint.Spells octets position) :
      ScalarForm limits .int octets (.int (Zigzag.decode position))
  | text {octets : Bytes} {s : String}
      (hblock : BlockForm limits.maxFieldBytes octets (Text.toUtf8 s)) :
      ScalarForm limits .text octets (.text s)
  | bytes {octets content : Bytes} (hblock : BlockForm limits.maxFieldBytes octets content) :
      ScalarForm limits .bytes octets (.bytes content)
  | timestamp {millis : Int64} {t : Instant} (hmillis : Instant.ofMillis? millis.toInt = some t) :
      ScalarForm limits .timestamp (Bytes.ofWord millis.toUInt64) (.timestamp t)

end Payload

/-- The record has every field that its layout requires of a payload written at the version. -/
def Record.Carries (layout : Layout) (version : UInt32) (record : Record) : Prop :=
  ∀ field ∈ layout.fields, field.required = true → field.since ≤ version →
    ∃ value, (field.id, value) ∈ record.entries

namespace Payload

/-- The octets are fields with ids above `last` of a record `depth` records deep, and hold the
entries for a reader with the layout. -/
inductive FieldsForm (limits : Limits) (version : UInt32) :
    Layout → Nat → UInt32 → Bytes → List (UInt32 × Value) → Prop
  | done {layout : Layout} {depth : Nat} {last : UInt32} :
      FieldsForm limits version layout depth last [] []
  | unknown {layout : Layout} {depth : Nat} {last id : UInt32} {kind : Kind}
      {number value rest : Bytes} {entries : List (UInt32 × Value)}
      (hlast : last < id) (hnumber : Varint.Spells number id.toUInt64)
      (hfield : layout.field? id = none)
      (hvalue : SkippedForm limits kind value)
      (hrest : FieldsForm limits version layout depth id rest entries) :
      FieldsForm limits version layout depth last
        (number ++ kind.tag :: (value ++ rest)) entries
  | scalar {layout : Layout} {depth : Nat} {last id : UInt32} {field : Field} {held : Value}
      {number value rest : Bytes} {entries : List (UInt32 × Value)}
      (hlast : last < id) (hnumber : Varint.Spells number id.toUInt64)
      (hfield : layout.field? id = some field)
      (hvalue : ScalarForm limits field.kind value held)
      (hrest : FieldsForm limits version layout depth id rest entries) :
      FieldsForm limits version layout depth last
        (number ++ field.kind.tag :: (value ++ rest)) ((id, held) :: entries)
  | record {layout nested : Layout} {depth : Nat} {last id : UInt32} {field : Field}
      {inner : Record} {number value content rest : Bytes} {entries : List (UInt32 × Value)}
      (hlast : last < id) (hnumber : Varint.Spells number id.toUInt64)
      (hfield : layout.field? id = some field)
      (hkind : field.kind = .record) (hnested : field.layout = some nested)
      (hblock : BlockForm limits.maxPayloadBytes value content)
      (hdepth : depth + 1 ≤ limits.maxDepth.toNat)
      (hinner : FieldsForm limits version nested (depth + 1) 0 content inner.entries)
      (hcarries : inner.Carries nested version)
      (hrest : FieldsForm limits version layout depth id rest entries) :
      FieldsForm limits version layout depth last
        (number ++ Kind.record.tag :: (value ++ rest)) ((id, .record inner) :: entries)

/-- The octets are a payload that was written at the version, and hold the record for a reader with
the schema. -/
structure PayloadForm (limits : Limits) (schema : Schema) (payload : Bytes) (version : UInt32)
    (record : Record) : Prop where
  length_le : payload.length ≤ limits.maxPayloadBytes.toNat
  version_ne_zero : version ≠ 0
  splits : ∃ number fields, payload = number ++ fields ∧
    Varint.Spells number version.toUInt64 ∧
    FieldsForm limits version schema.layout 0 0 fields record.entries
  carries : record.Carries schema.layout version

/-! ## Reading the parts of a field -/

theorem toUInt64_toUInt32 {raw : UInt64} (hlt : raw.toNat < UInt32.size) :
    raw.toUInt32.toUInt64 = raw := by
  apply UInt64.toNat_inj.mp
  rw [UInt32.toNat_toUInt64, UInt64.toNat_toUInt32, Nat.mod_eq_of_lt hlt]

theorem accepts_version :
    version.Accepts fun octets number =>
      number ≠ 0 ∧ Varint.Spells octets number.toUInt64 := by
  have hvarint : version.Accepts fun octets number =>
      ∃ raw : UInt64, Varint.Spells octets raw ∧ number ≠ 0 ∧ raw = number.toUInt64 := by
    refine (Reading.accepts_varint _).refine fun raw => ?_
    split
    next hzero =>
      refine (Reading.accepts_refuse _).congr fun octets number => ⟨False.elim, ?_⟩
      rintro ⟨_, hnumber, hraw⟩
      apply hnumber
      apply UInt32.toUInt64_inj.mp
      rw [← hraw, hzero]
      rfl
    next hnonzero =>
      split
      next hlt =>
        refine (Reading.accepts_give _).congr fun octets number => and_congr_right fun _ => ?_
        constructor
        · rintro rfl
          refine ⟨fun hzero => hnonzero ?_, (toUInt64_toUInt32 hlt).symm⟩
          rw [← toUInt64_toUInt32 hlt, hzero]
          rfl
        · intro h
          rcases h with ⟨_, rfl⟩
          exact (UInt32.toUInt32_toUInt64 number).symm
      next hge =>
        refine (Reading.accepts_refuse _).congr fun octets number => ⟨False.elim, ?_⟩
        rintro ⟨_, _, rfl⟩
        exact hge number.toNat_lt
  refine hvarint.congr fun octets number => ?_
  constructor
  · intro h
    rcases h with ⟨_, hspells, hnumber, rfl⟩
    exact ⟨hnumber, hspells⟩
  · intro h
    rcases h with ⟨hnumber, hspells⟩
    exact ⟨_, hspells, hnumber, rfl⟩

theorem accepts_fieldId (path : String) (last : UInt32) :
    (fieldId path last).Accepts fun octets id =>
      last < id ∧ Varint.Spells octets id.toUInt64 := by
  have hvarint : (fieldId path last).Accepts fun octets id =>
      ∃ raw : UInt64, Varint.Spells octets raw ∧ last < id ∧ raw = id.toUInt64 := by
    refine (Reading.accepts_varint _).refine fun raw => ?_
    split
    next hrange =>
      have hraw := toUInt64_toUInt32 hrange.2
      refine (Reading.accepts_give _).congr fun octets id => and_congr_right fun _ => ?_
      constructor
      · rintro rfl
        refine ⟨?_, hraw.symm⟩
        rw [UInt32.lt_iff_toNat_lt, ← UInt32.toNat_toUInt64 raw.toUInt32, hraw]
        exact hrange.1
      · intro h
        rcases h with ⟨_, rfl⟩
        exact (UInt32.toUInt32_toUInt64 id).symm
    next hrange =>
      refine (Reading.accepts_refuse _).congr fun octets id => ⟨False.elim, ?_⟩
      rintro ⟨_, hlast, rfl⟩
      exact hrange ⟨UInt32.lt_iff_toNat_lt.mp hlast, id.toNat_lt⟩
  refine hvarint.congr fun octets id => ?_
  constructor
  · intro h
    rcases h with ⟨_, hspells, hlast, rfl⟩
    exact ⟨hlast, hspells⟩
  · intro h
    rcases h with ⟨hlast, hspells⟩
    exact ⟨_, hspells, hlast, rfl⟩

theorem accepts_fieldKind (path : String) (id : UInt32) :
    (fieldKind path id).Accepts fun octets kind => octets = [kind.tag] := by
  have hbyte : (fieldKind path id).Accepts fun octets kind =>
      ∃ tag, octets = [tag] ∧ tag = kind.tag := by
    refine (Reading.accepts_byte _).refine fun tag => ?_
    cases htag : Kind.ofTag? tag with
    | none =>
        refine (Reading.accepts_refuse _).congr fun octets kind => ⟨False.elim, ?_⟩
        rintro ⟨_, rfl⟩
        rw [Kind.ofTag?_tag] at htag
        cases htag
    | some known =>
        refine (Reading.accepts_give _).congr fun octets kind => and_congr_right fun _ => ?_
        constructor
        · rintro rfl
          exact Kind.tag_of_ofTag? htag
        · rintro rfl
          rw [Kind.ofTag?_tag] at htag
          exact Option.some.inj htag
  refine hbyte.congr fun octets kind => ?_
  constructor
  · intro h
    rcases h with ⟨_, rfl, rfl⟩
    rfl
  · rintro rfl
    exact ⟨_, rfl, rfl⟩

theorem accepts_fieldHead (path : String) (last : UInt32) :
    (fieldHead path last).Accepts fun octets head =>
      ∃ number, last < head.1 ∧ Varint.Spells number head.1.toUInt64 ∧
        octets = number ++ [head.2.tag] := by
  have hnext := fun id : UInt32 => (accepts_fieldKind path id).map fun kind => (id, kind)
  refine ((accepts_fieldId path last).andThen hnext).congr fun octets head => ?_
  constructor
  · intro h
    rcases h with ⟨id, number, _, ⟨hlast, hspells⟩, ⟨kind, rfl, rfl⟩, rfl⟩
    exact ⟨number, hlast, hspells, rfl⟩
  · intro h
    rcases h with ⟨number, hlast, hspells, rfl⟩
    exact ⟨head.1, number, _, ⟨hlast, hspells⟩, ⟨head.2, rfl, rfl⟩, rfl⟩

theorem accepts_skipValue (limits : Limits) (kind : Kind) :
    (skipValue limits kind).Accepts fun octets _ => SkippedForm limits kind octets := by
  have hblock : ∀ kind : Kind, kind = .text ∨ kind = .bytes ∨ kind = .record →
      ((Reading.block "unknown field" limits.maxPayloadBytes).andThen fun _ =>
        Reading.give ()).Accepts fun octets _ => SkippedForm limits kind octets := by
    intro kind hkind
    refine ((Reading.accepts_block _ _).map fun _ => ()).congr fun octets _ => ?_
    constructor
    · intro h
      rcases h with ⟨content, hblock, _⟩
      exact .block hkind hblock
    · intro hform
      cases hform with
      | block _ hblock => exact ⟨_, hblock, rfl⟩
      | bool _ => simp at hkind
      | int _ => simp at hkind
      | timestamp _ => simp at hkind
  cases kind with
  | bool =>
      refine ((Reading.accepts_byte _).map fun _ => ()).congr fun octets _ => ?_
      constructor
      · intro h
        rcases h with ⟨octet, rfl, _⟩
        exact .bool octet
      · intro hform
        cases hform with
        | bool octet => exact ⟨octet, rfl, rfl⟩
        | block hkind _ => simp at hkind
  | int =>
      refine ((Reading.accepts_varint _).map fun _ => ()).congr fun octets _ => ?_
      constructor
      · intro h
        rcases h with ⟨_, hspells, _⟩
        exact .int hspells
      · intro hform
        cases hform with
        | int hspells => exact ⟨_, hspells, rfl⟩
        | block hkind _ => simp at hkind
  | timestamp =>
      refine ((Reading.accepts_take _ 8).map fun _ => ()).congr fun octets _ => ?_
      constructor
      · intro h
        rcases h with ⟨_, ⟨hlength, _⟩, _⟩
        exact .timestamp hlength
      · intro hform
        cases hform with
        | timestamp hlength => exact ⟨_, ⟨hlength, rfl⟩, rfl⟩
        | block hkind _ => simp at hkind
  | text => exact hblock .text (by simp)
  | bytes => exact hblock .bytes (by simp)
  | record => exact hblock .record (by simp)

theorem accepts_scalar (limits : Limits) (path : String) (kind : Kind) :
    (scalar limits path kind).Accepts (ScalarForm limits kind) := by
  cases kind with
  | bool =>
      have hbyte : (scalar limits path .bool).Accepts fun octets value =>
          ∃ octet, octets = [octet] ∧ ∃ b, octet = (if b then 1 else 0) ∧ value = .bool b := by
        refine (Reading.accepts_byte _).refine fun octet => ?_
        split
        next hzero =>
          refine (Reading.accepts_give _).congr fun octets value => and_congr_right fun _ => ?_
          simp [hzero]
        next hnonzero =>
          split
          next hone =>
            refine (Reading.accepts_give _).congr fun octets value => and_congr_right fun _ => ?_
            simp [hone]
          next hother =>
            refine (Reading.accepts_refuse _).congr fun octets value => ?_
            simp [hnonzero, hother]
      refine hbyte.congr fun octets value => ?_
      constructor
      · intro h
        rcases h with ⟨_, rfl, b, rfl, rfl⟩
        exact .bool b
      · intro hform
        cases hform with
        | bool b => exact ⟨_, rfl, b, rfl, rfl⟩
  | int =>
      refine ((Reading.accepts_varint _).map fun position =>
        Value.int (Zigzag.decode position)).congr fun octets value => ?_
      constructor
      · intro h
        rcases h with ⟨_, hspells, rfl⟩
        exact .int hspells
      · intro hform
        cases hform with
        | int hspells => exact ⟨_, hspells, rfl⟩
  | text =>
      refine ((Reading.accepts_text _ _).map Value.text).congr fun octets value => ?_
      constructor
      · intro h
        rcases h with ⟨_, hblock, rfl⟩
        exact .text hblock
      · intro hform
        cases hform with
        | text hblock => exact ⟨_, hblock, rfl⟩
  | bytes =>
      refine ((Reading.accepts_block _ _).map Value.bytes).congr fun octets value => ?_
      constructor
      · intro h
        rcases h with ⟨_, hblock, rfl⟩
        exact .bytes hblock
      · intro hform
        cases hform with
        | bytes hblock => exact ⟨_, hblock, rfl⟩
  | timestamp =>
      have hword : (scalar limits path .timestamp).Accepts fun octets value =>
          ∃ millis : Int64, octets = Bytes.ofWord millis.toUInt64 ∧
            ∃ t, Instant.ofMillis? millis.toInt = some t ∧ value = .timestamp t := by
        refine (Reading.accepts_word _).refine fun millis => ?_
        cases hmillis : Instant.ofMillis? millis.toInt with
        | none => exact (Reading.accepts_refuse _).congr fun octets value => by simp
        | some t => exact (Reading.accepts_give _).congr fun octets value => by simp
      refine hword.congr fun octets value => ?_
      constructor
      · intro h
        rcases h with ⟨_, rfl, t, hmillis, rfl⟩
        exact .timestamp hmillis
      · intro hform
        cases hform with
        | timestamp hmillis => exact ⟨_, rfl, _, hmillis, rfl⟩
  | record =>
      refine (Reading.accepts_refuse _).congr fun octets value => ⟨False.elim, ?_⟩
      intro hform
      cases hform

end Payload
end EventCourier
