import EventCourier.Proofs.Varint
import EventCourier.Proofs.Wire.Word
import EventCourier.Wire.Cursor

/-!
# What readings accept

A reading accepts a form when it gives a value exactly where the front of what is left has that
form for the value, and then stops right behind it.  The readings of a message are put together
from a few elementary ones, and so are the forms that they accept.
-/

namespace EventCourier

/-- The octets are a block: the length of the content, no more than the limit, and the content. -/
def BlockForm (limit : UInt64) (octets content : Bytes) : Prop :=
  ∃ size value, Varint.Spells size value ∧ octets = size ++ content ∧
    content.length = value.toNat ∧ value ≤ limit

namespace Reading

/-- The reading gives exactly the values of the form, and stops behind the octets of the form. -/
def Accepts {α : Type} (reading : Reading α) (Form : Bytes → α → Prop) : Prop :=
  ∀ cursor value after, reading cursor = (.ok value, after) ↔
    ∃ octets, Form octets value ∧ cursor.rest = octets ++ after.rest ∧
      after.offset = cursor.offset + octets.length

theorem Accepts.congr
    {α : Type} {reading : Reading α} {Form Form' : Bytes → α → Prop}
    (haccepts : reading.Accepts Form)
    (hform : ∀ octets value, Form octets value ↔ Form' octets value) :
    reading.Accepts Form' := by
  intro cursor value after
  rw [haccepts]
  simp only [hform]

theorem accepts_give {α : Type} (value : α) :
    (give value).Accepts fun octets given => octets = [] ∧ given = value := by
  intro cursor given after
  rcases cursor with ⟨offset, rest⟩
  rcases after with ⟨offset', rest'⟩
  constructor
  · intro hread
    cases hread
    exact ⟨[], ⟨rfl, rfl⟩, rfl, rfl⟩
  · intro h
    rcases h with ⟨octets, ⟨rfl, rfl⟩, hrest, hoffset⟩
    cases hrest
    cases hoffset
    rfl

theorem accepts_refuse {α : Type} (cause : DecodingError) :
    (refuse cause : Reading α).Accepts fun _ _ => False := by
  intro cursor given after
  constructor
  · intro hread
    cases hread
  · intro h
    rcases h with ⟨_, hfalse, _⟩
    exact hfalse.elim

theorem Accepts.andThen
    {α β : Type} {first : Reading α} {next : α → Reading β}
    {Front : Bytes → α → Prop} {Back : α → Bytes → β → Prop}
    (hfirst : first.Accepts Front) (hnext : ∀ value, (next value).Accepts (Back value)) :
    (first.andThen next).Accepts fun octets result =>
      ∃ value front back, Front front value ∧ Back value back result ∧ octets = front ++ back := by
  intro cursor result after
  constructor
  · intro hread
    unfold Reading.andThen at hread
    split at hread
    next value middle hvalue =>
      obtain ⟨front, hfront, hrest, hoffset⟩ := (hfirst _ _ _).mp hvalue
      obtain ⟨back, hback, hrest', hoffset'⟩ := (hnext value _ _ _).mp hread
      refine ⟨front ++ back, ⟨value, front, back, hfront, hback, rfl⟩, ?_, ?_⟩
      · rw [hrest, hrest', List.append_assoc]
      · rw [hoffset', hoffset, List.length_append, Nat.add_assoc]
    · cases hread
  · intro h
    rcases h with ⟨_, ⟨value, front, back, hfront, hback, rfl⟩, hrest, hoffset⟩
    have hvalue : first cursor =
        (.ok value, ⟨cursor.offset + front.length, back ++ after.rest⟩) :=
      (hfirst _ _ _).mpr ⟨front, hfront, by rw [hrest, List.append_assoc], rfl⟩
    have hresult : next value ⟨cursor.offset + front.length, back ++ after.rest⟩ =
        (.ok result, after) :=
      (hnext value _ _ _).mpr
        ⟨back, hback, rfl, by rw [hoffset, List.length_append, Nat.add_assoc]⟩
    unfold Reading.andThen
    rw [hvalue]
    exact hresult

theorem Accepts.refine
    {α β : Type} {first : Reading α} {next : α → Reading β}
    {Front : Bytes → α → Prop} {Goes : α → β → Prop}
    (hfirst : first.Accepts Front)
    (hnext : ∀ value, (next value).Accepts fun octets result => octets = [] ∧ Goes value result) :
    (first.andThen next).Accepts fun octets result =>
      ∃ value, Front octets value ∧ Goes value result := by
  refine (hfirst.andThen hnext).congr fun octets result => ?_
  constructor
  · intro h
    rcases h with ⟨value, front, back, hfront, ⟨rfl, hgoes⟩, rfl⟩
    rw [List.append_nil]
    exact ⟨value, hfront, hgoes⟩
  · intro h
    rcases h with ⟨value, hfront, hgoes⟩
    exact ⟨value, octets, [], hfront, ⟨rfl, hgoes⟩, (List.append_nil _).symm⟩

theorem Accepts.map
    {α β : Type} {first : Reading α} {Front : Bytes → α → Prop}
    (hfirst : first.Accepts Front) (f : α → β) :
    (first.andThen fun value => give (f value)).Accepts fun octets result =>
      ∃ value, Front octets value ∧ result = f value :=
  hfirst.refine fun value => accepts_give (f value)

/-! ## The elementary readings -/

theorem accepts_take (what : String) (count : Nat) :
    (take what count).Accepts fun octets given => octets.length = count ∧ given = octets := by
  intro cursor given after
  rcases cursor with ⟨offset, rest⟩
  rcases after with ⟨offset', rest'⟩
  unfold take
  constructor
  · intro hread
    split at hread
    next hreach =>
      cases hread
      have hlength : (rest.take count).length = count :=
        List.length_take_of_le (Bytes.reaches_iff.mp hreach)
      exact ⟨rest.take count, ⟨hlength, rfl⟩, (List.take_append_drop count rest).symm,
        by rw [hlength]⟩
    · cases hread
  · intro h
    rcases h with ⟨octets, ⟨rfl, rfl⟩, hrest, hoffset⟩
    dsimp only at hrest hoffset
    subst hrest hoffset
    have hreach : Bytes.reaches given.length (given ++ rest') = true :=
      Bytes.reaches_iff.mpr (by simp)
    simp [hreach, Cursor.advance]

theorem accepts_byte (what : String) :
    (byte what).Accepts fun octets given => octets = [given] := by
  intro cursor given after
  rcases cursor with ⟨offset, rest⟩
  rcases after with ⟨offset', rest'⟩
  unfold byte
  cases rest with
  | nil => simp
  | cons octet rest =>
      simp only [Cursor.advance, List.drop_succ_cons, List.drop_zero, Prod.mk.injEq,
        Except.ok.injEq, Cursor.mk.injEq, exists_eq_left, List.singleton_append,
        List.cons.injEq, List.length_singleton]
      constructor
      · intro h
        rcases h with ⟨rfl, rfl, rfl⟩
        exact ⟨⟨rfl, rfl⟩, rfl⟩
      · intro h
        rcases h with ⟨⟨rfl, rfl⟩, rfl⟩
        exact ⟨rfl, rfl, rfl⟩

theorem accepts_varint (what : String) : (varint what).Accepts Varint.Spells := by
  intro cursor given after
  rcases cursor with ⟨offset, rest⟩
  rcases after with ⟨offset', rest'⟩
  unfold varint
  constructor
  · intro hread
    split at hread
    next value used hdecode =>
      cases hread
      obtain ⟨front, back, hrest, hspells, rfl⟩ := Varint.exists_spells_of_decode hdecode
      dsimp only at hrest
      subst hrest
      exact ⟨front, hspells, by simp, rfl⟩
    · cases hread
  · intro h
    rcases h with ⟨octets, hspells, hrest, hoffset⟩
    dsimp only at hrest hoffset
    subst hrest hoffset
    simp [Varint.decode_append hspells rest', Cursor.advance]

theorem accepts_word (what : String) :
    (word what).Accepts fun octets given => octets = Bytes.ofWord given.toUInt64 := by
  refine ((accepts_take what 8).map fun octets => octets.toWord.toInt64).congr ?_
  intro octets given
  constructor
  · intro h
    rcases h with ⟨_, ⟨hlength, rfl⟩, rfl⟩
    exact (Bytes.ofWord_toWord hlength).symm
  · rintro rfl
    refine ⟨_, ⟨Bytes.length_ofWord _, rfl⟩, ?_⟩
    rw [Bytes.toWord_ofWord, Int64.toInt64_toUInt64]

theorem accepts_block (what : String) (limit : UInt64) :
    (block what limit).Accepts (BlockForm limit) := by
  have hvarint : (block what limit).Accepts fun octets given =>
      ∃ declared size content, Varint.Spells size declared ∧
        (declared ≤ limit ∧ content.length = declared.toNat ∧ given = content) ∧
        octets = size ++ content := by
    refine (accepts_varint what).andThen fun declared => ?_
    split
    next hle =>
      exact (accepts_take what _).congr fun _ _ => by simp [hle]
    next hgt =>
      exact (accepts_refuse _).congr fun _ _ => by simp [hgt]
  refine hvarint.congr fun octets given => ?_
  constructor
  · intro h
    rcases h with ⟨declared, size, content, hspells, ⟨hle, hlength, rfl⟩, rfl⟩
    exact ⟨size, declared, hspells, rfl, hlength, hle⟩
  · intro h
    rcases h with ⟨size, declared, hspells, rfl, hlength, hle⟩
    exact ⟨declared, size, given, hspells, ⟨hle, hlength, rfl⟩, rfl⟩

theorem accepts_text (what : String) (limit : UInt64) :
    (text what limit).Accepts fun octets given => BlockForm limit octets (Text.toUtf8 given) := by
  have hblock : (text what limit).Accepts fun octets given =>
      ∃ content, BlockForm limit octets content ∧ content = Text.toUtf8 given := by
    refine (accepts_block what limit).refine fun content => ?_
    cases hread : Text.ofUtf8 content with
    | ok s =>
        have hcontent := Text.toUtf8_of_ofUtf8 hread
        refine (accepts_give s).congr fun octets given => ?_
        rw [← hcontent]
        exact and_congr_right fun _ =>
          ⟨fun hsame => hsame ▸ rfl, fun hsame => (Text.toUtf8_injective hsame).symm⟩
    | error fault =>
        refine (accepts_refuse _).congr fun octets given => ?_
        refine ⟨False.elim, ?_⟩
        rintro ⟨_, rfl⟩
        rw [Text.ofUtf8_toUtf8] at hread
        cases hread
  refine hblock.congr fun octets given => ?_
  constructor
  · intro h
    rcases h with ⟨_, hform, rfl⟩
    exact hform
  · intro hform
    exact ⟨_, hform, rfl⟩

end Reading
end EventCourier
