import EventCourier.Proofs.Wire.Reading

/-!
# Where a refused reading stops

A form says where a reading stops when it gives a value.  This file says the same of refusals: what
lies between the place where the reading began and the place where it was refused, and what it had
before it there.  The readings of a byte, of bytes, of a number and of a word are refused where they
begin.  A block is refused there or behind its length, and a text also behind its octets.
-/

namespace EventCourier

namespace Cursor

/-- The octets are those from one place to another. -/
def Passes (before : Cursor) (octets : Bytes) (after : Cursor) : Prop :=
  before.rest = octets ++ after.rest ∧ after.offset = before.offset + octets.length

variable {before after : Cursor}

theorem passes_nil_iff : before.Passes [] after ↔ after = before := by
  constructor
  · intro hpasses
    rcases before with ⟨offset, rest⟩
    rcases after with ⟨offset', rest'⟩
    rcases hpasses with ⟨hrest, hoffset⟩
    cases hrest
    cases hoffset
    rfl
  · rintro rfl
    exact ⟨rfl, rfl⟩

theorem passes_append_iff {front back : Bytes} :
    before.Passes (front ++ back) after ↔
      ∃ middle, before.Passes front middle ∧ middle.Passes back after := by
  constructor
  · intro hpasses
    rcases hpasses with ⟨hrest, hoffset⟩
    rw [List.append_assoc] at hrest
    rw [List.length_append, ← Nat.add_assoc] at hoffset
    exact ⟨⟨before.offset + front.length, back ++ after.rest⟩, ⟨hrest, rfl⟩, rfl, hoffset⟩
  · intro h
    rcases h with ⟨middle, ⟨hfront, hoffset⟩, hback, hoffset'⟩
    constructor
    · rw [hfront, hback, List.append_assoc]
    · rw [hoffset', hoffset, List.length_append, Nat.add_assoc]

end Cursor

namespace Varint

/-- No number stands at the front of the octets. -/
def Unspelled (octets : Bytes) : Prop :=
  ∀ front value, Spells front value → ¬ front <+: octets

theorem exists_error_iff_unspelled {octets : Bytes} :
    (∃ fault, decode octets = .error fault) ↔ Unspelled octets := by
  constructor
  · intro hfails front value hspells hfront
    rcases hfails with ⟨fault, hfault⟩
    rcases hfront with ⟨rest, rfl⟩
    rw [decode_append hspells] at hfault
    cases hfault
  · intro hunspelled
    cases hread : decode octets with
    | error fault => exact ⟨fault, rfl⟩
    | ok found =>
        rcases exists_spells_of_decode hread with ⟨front, rest, hoctets, hspells, _⟩
        exact absurd ⟨rest, hoctets.symm⟩ (hunspelled front _ hspells)

end Varint

/-- Where a block is refused: where it begins, if no number stands there, or behind a length that is
above the limit or is not left. -/
def BlockRefused (limit : UInt64) (passed left : Bytes) : Prop :=
  passed = [] ∧ Varint.Unspelled left ∨
    ∃ declared, Varint.Spells passed declared ∧ (limit < declared ∨ left.length < declared.toNat)

/-- Where a text is refused: where its block is, or behind a block that is not UTF-8. -/
def TextRefused (limit : UInt64) (passed left : Bytes) : Prop :=
  BlockRefused limit passed left ∨
    ∃ content, BlockForm limit passed content ∧ ∀ s, Text.toUtf8 s ≠ content

namespace Reading

/-- The reading is refused exactly where the octets it has passed by then and the octets that are
left are so related. -/
def Refuses {α : Type} (reading : Reading α) (Refused : Bytes → Bytes → Prop) : Prop :=
  ∀ cursor after, (∃ cause, reading cursor = (.error cause, after)) ↔
    ∃ passed, Refused passed after.rest ∧ cursor.Passes passed after

theorem Refuses.congr
    {α : Type} {reading : Reading α} {Refused Refused' : Bytes → Bytes → Prop}
    (hrefuses : reading.Refuses Refused)
    (hsame : ∀ passed left, Refused passed left ↔ Refused' passed left) :
    reading.Refuses Refused' := by
  intro cursor after
  rw [hrefuses]
  simp only [hsame]

/-- A reading that is refused only where it begins has passed nothing by then. -/
theorem refuses_of_inPlace
    {α : Type} {reading : Reading α} {Lacks : Bytes → Prop}
    (hinPlace : ∀ cursor after, (∃ cause, reading cursor = (.error cause, after)) ↔
      after = cursor ∧ Lacks cursor.rest) :
    reading.Refuses fun passed left => passed = [] ∧ Lacks left := by
  intro cursor after
  rw [hinPlace]
  constructor
  · intro h
    rcases h with ⟨rfl, hlacks⟩
    exact ⟨[], ⟨rfl, hlacks⟩, Cursor.passes_nil_iff.mpr rfl⟩
  · intro h
    rcases h with ⟨_, ⟨rfl, hlacks⟩, hpasses⟩
    rw [Cursor.passes_nil_iff] at hpasses
    subst hpasses
    exact ⟨rfl, hlacks⟩

theorem refuses_give {α : Type} (value : α) : (give value).Refuses fun _ _ => False := by
  intro cursor after
  constructor
  · intro h
    rcases h with ⟨cause, hread⟩
    cases hread
  · intro h
    rcases h with ⟨_, hfalse, _⟩
    exact hfalse.elim

theorem refuses_refuse {α : Type} (cause : DecodingError) :
    (refuse cause : Reading α).Refuses fun passed _ => passed = [] := by
  have hinPlace : (refuse cause : Reading α).Refuses fun passed _ => passed = [] ∧ True := by
    apply refuses_of_inPlace
    intro cursor after
    simp [refuse, eq_comm]
  exact hinPlace.congr fun _ _ => and_iff_left trivial

/-- A sequence is refused where its first reading is, or where the next one is behind it. -/
theorem Refuses.andThen
    {α β : Type} {first : Reading α} {next : α → Reading β} {Front : Bytes → α → Prop}
    {Early : Bytes → Bytes → Prop} {Late : α → Bytes → Bytes → Prop}
    (hfirst : first.Refuses Early) (haccepts : first.Accepts Front)
    (hnext : ∀ value, (next value).Refuses (Late value)) :
    (first.andThen next).Refuses fun passed left => Early passed left ∨
      ∃ value front back, Front front value ∧ Late value back left ∧ passed = front ++ back := by
  intro cursor after
  constructor
  · intro h
    rcases h with ⟨cause, hread⟩
    unfold Reading.andThen at hread
    -- The first reading gives a value behind what it accepts, or its refusal is that of the whole.
    split at hread
    next value middle hvalue =>
      rcases (haccepts _ _ _).mp hvalue with ⟨front, hfront, hmiddle⟩
      rcases (hnext value _ _).mp ⟨cause, hread⟩ with ⟨back, hlate, hafter⟩
      exact ⟨front ++ back, .inr ⟨value, front, back, hfront, hlate, rfl⟩,
        Cursor.passes_append_iff.mpr ⟨middle, hmiddle, hafter⟩⟩
    next cause' middle hrefused =>
      cases hread
      rcases (hfirst _ _).mp ⟨cause, hrefused⟩ with ⟨passed, hearly, hpasses⟩
      exact ⟨passed, .inl hearly, hpasses⟩
  · intro h
    rcases h with ⟨passed, hearly | ⟨value, front, back, hfront, hlate, rfl⟩, hpasses⟩
    · rcases (hfirst _ _).mpr ⟨passed, hearly, hpasses⟩ with ⟨cause, hrefused⟩
      exact ⟨cause, by rw [Reading.andThen, hrefused]⟩
    · rcases Cursor.passes_append_iff.mp hpasses with ⟨middle, hmiddle, hafter⟩
      have hvalue : first cursor = (.ok value, middle) :=
        (haccepts _ _ _).mpr ⟨front, hfront, hmiddle⟩
      rcases (hnext value _ _).mpr ⟨back, hlate, hafter⟩ with ⟨cause, hrefused⟩
      refine ⟨cause, ?_⟩
      rw [Reading.andThen, hvalue]
      exact hrefused

theorem Refuses.refine
    {α β : Type} {first : Reading α} {next : α → Reading β} {Front : Bytes → α → Prop}
    {Early : Bytes → Bytes → Prop} {Why : α → Bytes → Prop}
    (hfirst : first.Refuses Early) (haccepts : first.Accepts Front)
    (hnext : ∀ value, (next value).Refuses fun passed left => passed = [] ∧ Why value left) :
    (first.andThen next).Refuses fun passed left =>
      Early passed left ∨ ∃ value, Front passed value ∧ Why value left := by
  refine (hfirst.andThen haccepts hnext).congr fun passed left => or_congr_right ?_
  constructor
  · intro h
    rcases h with ⟨value, front, back, hfront, ⟨rfl, hwhy⟩, rfl⟩
    rw [List.append_nil]
    exact ⟨value, hfront, hwhy⟩
  · intro h
    rcases h with ⟨value, hfront, hwhy⟩
    exact ⟨value, passed, [], hfront, ⟨rfl, hwhy⟩, (List.append_nil _).symm⟩

theorem Refuses.map
    {α β : Type} {first : Reading α} {Front : Bytes → α → Prop} {Early : Bytes → Bytes → Prop}
    (hfirst : first.Refuses Early) (haccepts : first.Accepts Front) (f : α → β) :
    (first.andThen fun value => give (f value)).Refuses Early := by
  have hgive : ∀ value, (give (f value)).Refuses fun passed _ => passed = [] ∧ False := by
    intro value
    exact (refuses_give (f value)).congr fun passed left => by simp
  refine (hfirst.refine haccepts hgive).congr fun passed left => ?_
  simp

/-! ## The elementary readings -/

theorem refuses_take (what : String) (count : Nat) :
    (take what count).Refuses fun passed left => passed = [] ∧ left.length < count := by
  apply refuses_of_inPlace
  intro cursor after
  unfold take
  by_cases hreach : cursor.rest.reaches count
  · have hlength := Bytes.reaches_iff.mp hreach
    simp [hreach, hlength]
  · have hlength : cursor.rest.length < count :=
      Nat.lt_of_not_le fun hle => hreach (Bytes.reaches_iff.mpr hle)
    simp [hreach, hlength, eq_comm]

theorem refuses_byte (what : String) :
    (byte what).Refuses fun passed left => passed = [] ∧ left = [] := by
  apply refuses_of_inPlace
  intro cursor after
  rcases cursor with ⟨offset, rest⟩
  cases rest with
  | nil => simp [byte, eq_comm]
  | cons octet rest => simp [byte]

theorem refuses_varint (what : String) :
    (varint what).Refuses fun passed left => passed = [] ∧ Varint.Unspelled left := by
  apply refuses_of_inPlace
  intro cursor after
  rw [← Varint.exists_error_iff_unspelled]
  cases hread : Varint.decode cursor.rest with
  | ok found => simp [varint, hread]
  | error fault => simp [varint, hread, eq_comm]

theorem refuses_word (what : String) :
    (word what).Refuses fun passed left => passed = [] ∧ left.length < 8 :=
  (refuses_take what 8).map (accepts_take what 8) fun octets => octets.toWord.toInt64

theorem refuses_block (what : String) (limit : UInt64) :
    (block what limit).Refuses (BlockRefused limit) := by
  apply (refuses_varint what).refine (accepts_varint what)
  intro declared
  by_cases hle : declared ≤ limit
  · have hallowed : ¬ limit < declared := UInt64.not_lt.mpr hle
    simpa [hle, hallowed] using refuses_take what declared.toNat
  · have habove : limit < declared := UInt64.not_le.mp hle
    simpa [hle, habove] using refuses_refuse (.declared what declared limit)

theorem refuses_text (what : String) (limit : UInt64) :
    (text what limit).Refuses (TextRefused limit) := by
  apply (refuses_block what limit).refine (accepts_block what limit)
  intro content
  cases hread : Text.ofUtf8 content with
  | ok s =>
      have hcontent := Text.toUtf8_of_ofUtf8 hread
      refine (refuses_give s).congr fun passed left => ?_
      exact ⟨False.elim, fun h => h.2 s hcontent⟩
  | error fault =>
      have hnot : ∀ s, Text.toUtf8 s ≠ content := by
        intro s hsame
        rw [← hsame, Text.ofUtf8_toUtf8] at hread
        cases hread
      exact (refuses_refuse _).congr fun passed left => (and_iff_left hnot).symm

end Reading
end EventCourier
