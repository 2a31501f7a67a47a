import EventCourier.Error

/-!
# Reading from a byte string

A cursor is a position in a byte string.  A reading looks at what is left, and either gives a value
and moves past the bytes it took, or refuses and says what was missing.  No reading looks beyond
the end, and none moves back.
-/

namespace EventCourier

/-- A place in a byte string: how many bytes lie before it, and the ones that are left. -/
structure Cursor where
  offset : Nat
  rest : Bytes

namespace Cursor

def start (bytes : Bytes) : Cursor := ⟨0, bytes⟩

def remaining (cursor : Cursor) : Nat := cursor.rest.length

def atEnd (cursor : Cursor) : Bool := cursor.rest.isEmpty

def advance (cursor : Cursor) (count : Nat) : Cursor :=
  ⟨cursor.offset + count, cursor.rest.drop count⟩

@[simp] theorem advance_zero (cursor : Cursor) : cursor.advance 0 = cursor := rfl

theorem advance_advance (cursor : Cursor) (m n : Nat) :
    (cursor.advance m).advance n = cursor.advance (m + n) := by
  simp [advance, Nat.add_assoc]

end Cursor

/-- What reading does at a place: a value or the reason for its refusal, and the place where it
stops. -/
def Reading (α : Type) : Type := Cursor → Except DecodingError α × Cursor

namespace Reading

def give {α : Type} (value : α) : Reading α := fun cursor => (.ok value, cursor)

def refuse {α : Type} (cause : DecodingError) : Reading α := fun cursor => (.error cause, cursor)

/-- Reads, and goes on with what the value calls for. -/
def andThen {α β : Type} (first : Reading α) (next : α → Reading β) : Reading β := fun cursor =>
  match first cursor with
  | (.ok value, after) => next value after
  | (.error cause, after) => (.error cause, after)

instance : Monad Reading where
  pure := give
  bind := andThen

def take (what : String) (count : Nat) : Reading Bytes := fun cursor =>
  if cursor.rest.reaches count then (.ok (cursor.rest.take count), cursor.advance count)
  else (.error (.short what count cursor.offset cursor.remaining), cursor)

def byte (what : String) : Reading UInt8 := fun cursor =>
  match cursor.rest with
  | octet :: _ => (.ok octet, cursor.advance 1)
  | [] => (.error (.short what 1 cursor.offset 0), cursor)

def varint (what : String) : Reading UInt64 := fun cursor =>
  match Varint.decode cursor.rest with
  | .ok (value, used) => (.ok value, cursor.advance used)
  | .error fault => (.error (.varintAt what cursor.offset fault), cursor)

/-- Takes a signed 64-bit word, most significant byte first. -/
def word (what : String) : Reading Int64 := do
  let octets ← take what 8
  return octets.toWord.toInt64

/-- Takes a block: its length as a variable-length natural, then that many bytes. -/
def block (what : String) (limit : UInt64) : Reading Bytes := do
  let declared ← varint what
  if declared ≤ limit then take what declared.toNat
  else refuse (.declared what declared limit)

def text (what : String) (limit : UInt64) : Reading String := do
  let octets ← block what limit
  match Text.ofUtf8 octets with
  | .ok s => give s
  | .error fault => refuse (.notUtf8 what fault)

/-- The value that a reading gives at the front of a byte string; what follows is left alone. -/
def run {α : Type} (reading : Reading α) (bytes : Bytes) : Except DecodingError α :=
  (reading (.start bytes)).1

/-! ## Readings only move on -/

/-- The reading stops at or after the place where it starts, and not beyond the end. -/
def MovesOn {α : Type} (reading : Reading α) : Prop :=
  ∀ cursor, ∃ count ≤ cursor.rest.length, (reading cursor).2 = cursor.advance count

theorem movesOn_give {α : Type} (value : α) : MovesOn (give value) :=
  fun _ => ⟨0, Nat.zero_le _, rfl⟩

theorem movesOn_refuse {α : Type} (cause : DecodingError) :
    MovesOn (refuse cause : Reading α) :=
  fun _ => ⟨0, Nat.zero_le _, rfl⟩

theorem MovesOn.andThen {α β : Type} {first : Reading α} {next : α → Reading β}
    (hfirst : MovesOn first) (hnext : ∀ value, MovesOn (next value)) :
    MovesOn (first.andThen next) := by
  intro cursor
  obtain ⟨m, hm, hstop⟩ := hfirst cursor
  rcases hread : first cursor with ⟨outcome, after⟩
  rw [hread] at hstop
  subst hstop
  cases outcome with
  | error cause => exact ⟨m, hm, by simp [Reading.andThen, hread]⟩
  | ok value =>
    obtain ⟨n, hn, hstop⟩ := hnext value (cursor.advance m)
    refine ⟨m + n, ?_, ?_⟩
    · simp only [Cursor.advance, List.length_drop] at hn
      omega
    · simp only [Reading.andThen, hread, hstop, Cursor.advance_advance]

theorem movesOn_take (what : String) (count : Nat) : MovesOn (take what count) := by
  intro cursor
  by_cases hreach : cursor.rest.reaches count = true
  · exact ⟨count, Bytes.reaches_iff.mp hreach, by simp [take, hreach]⟩
  · exact ⟨0, Nat.zero_le _, by simp [take, hreach]⟩

theorem movesOn_byte (what : String) : MovesOn (byte what) := by
  intro cursor
  rcases cursor with ⟨offset, rest⟩
  cases rest with
  | nil => exact ⟨0, Nat.zero_le _, rfl⟩
  | cons octet rest => exact ⟨1, by simp, rfl⟩

theorem movesOn_varint (what : String) : MovesOn (varint what) := by
  intro cursor
  unfold varint
  split
  · rename_i value used hread
    exact ⟨used, (Varint.decode_used hread).2, rfl⟩
  · exact ⟨0, Nat.zero_le _, rfl⟩

theorem movesOn_word (what : String) : MovesOn (word what) :=
  (movesOn_take what 8).andThen fun _ => movesOn_give _

theorem movesOn_block (what : String) (limit : UInt64) : MovesOn (block what limit) := by
  refine (movesOn_varint what).andThen fun declared => ?_
  split
  · exact movesOn_take what _
  · exact movesOn_refuse _

theorem movesOn_text (what : String) (limit : UInt64) : MovesOn (text what limit) := by
  refine (movesOn_block what limit).andThen fun octets => ?_
  split
  · exact movesOn_give _
  · exact movesOn_refuse _

/-- After a reading no more bytes are left than before it. -/
theorem MovesOn.length_le {α : Type} {reading : Reading α} (hmoves : MovesOn reading)
    {cursor after : Cursor} {outcome : Except DecodingError α}
    (hread : reading cursor = (outcome, after)) : after.rest.length ≤ cursor.rest.length := by
  obtain ⟨count, _, hstop⟩ := hmoves cursor
  rw [hread] at hstop
  subst hstop
  simp [Cursor.advance]

/-- The reading takes at least one byte whenever it gives a value. -/
def Advances {α : Type} (reading : Reading α) : Prop :=
  ∀ cursor after value, reading cursor = (.ok value, after) →
    after.rest.length < cursor.rest.length

theorem Advances.andThen {α β : Type} {first : Reading α} {next : α → Reading β}
    (hfirst : Advances first) (hnext : ∀ value, MovesOn (next value)) :
    Advances (first.andThen next) := by
  intro cursor after value hread
  rcases hstart : first cursor with ⟨outcome, middle⟩
  cases outcome with
  | error cause => simp [Reading.andThen, hstart] at hread
  | ok given =>
    simp only [Reading.andThen, hstart] at hread
    exact Nat.lt_of_le_of_lt ((hnext given).length_le hread) (hfirst _ _ _ hstart)

theorem advances_varint (what : String) : Advances (varint what) := by
  intro cursor after value hread
  unfold varint at hread
  split at hread
  · rename_i read used hdecode
    have hused := Varint.decode_used hdecode
    simp only [Prod.mk.injEq] at hread
    simp only [← hread.2, Cursor.advance, List.length_drop]
    omega
  · simp at hread

theorem block_length_lt {what : String} {limit : UInt64} {cursor after : Cursor} {octets : Bytes}
    (hread : block what limit cursor = (.ok octets, after)) :
    octets.length < cursor.rest.length := by
  have hread : (varint what).andThen (fun declared =>
      if declared ≤ limit then take what declared.toNat
      else refuse (.declared what declared limit)) cursor = (.ok octets, after) := hread
  unfold andThen at hread
  split at hread
  · rename_i declared middle hdeclared
    have hshorter := advances_varint what _ _ _ hdeclared
    dsimp only at hread
    split at hread
    · unfold take at hread
      split at hread
      · simp only [Prod.mk.injEq, Except.ok.injEq] at hread
        simp only [← hread.1, List.length_take]
        omega
      · simp at hread
    · simp [refuse] at hread
  · simp at hread

end Reading
end EventCourier
