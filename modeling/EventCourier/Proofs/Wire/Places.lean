import EventCourier.Proofs.Wire.ReadBack
import EventCourier.Proofs.Wire.Refusal

/-!
# The places of a reader

However a reader is used, it stays within its octets.  It is asked for one thing after the other,
with any counts and limits, and after a refusal it goes on from the place where that left it.  A
length is compared with what is left before the place moves on, so that no place is ever formed
behind the end.  Each request moves over the octets of the piece that it finds, and a refused one
over none, over a length, or over the octets of a text.
-/

namespace EventCourier

namespace Cursor

/-- The cursor is a place in the octets, and what lies behind the place is left to read. -/
structure PlaceIn (buffer : Bytes) (cursor : Cursor) : Prop where
  offset_le : cursor.offset ≤ buffer.length
  offset_add_remaining : cursor.offset + cursor.remaining = buffer.length
  rest_eq : cursor.rest = buffer.drop cursor.offset

variable {buffer front octets : Bytes} {before after : Cursor}

theorem Passes.offset_le (hpasses : before.Passes octets after) : before.offset ≤ after.offset := by
  rw [hpasses.2]
  exact Nat.le_add_right _ _

theorem Passes.placeIn (hpasses : (start buffer).Passes front after) : after.PlaceIn buffer := by
  rcases hpasses with ⟨hbuffer, hoffset⟩
  have hbuffer : buffer = front ++ after.rest := hbuffer
  have hoffset : after.offset = front.length := hoffset.trans (Nat.zero_add _)
  have hlength : after.offset + after.remaining = buffer.length := by
    rw [hbuffer, hoffset, List.length_append, remaining]
  constructor
  · exact Nat.le.intro hlength
  · exact hlength
  · rw [hbuffer, hoffset, List.drop_left]

theorem Passes.extract_eq
    (hbefore : before.PlaceIn buffer) (hpasses : before.Passes octets after) :
    buffer.extract before.offset after.offset = octets := by
  rcases hpasses with ⟨hrest, hoffset⟩
  rw [List.extract_eq_take_drop, ← hbefore.rest_eq, hrest, hoffset, Nat.add_sub_cancel_left,
    List.take_left]

end Cursor

namespace Request

/-- Where a request is refused, told by the octets it has passed by then and those that are left. -/
def Refused : Request → Bytes → Bytes → Prop
  | .byte, passed, left => passed = [] ∧ left = []
  | .raw count, passed, left => passed = [] ∧ left.length < count
  | .varint, passed, left => passed = [] ∧ Varint.Unspelled left
  | .word, passed, left => passed = [] ∧ left.length < 8
  | .block limit, passed, left => BlockRefused limit passed left
  | .text limit, passed, left => TextRefused limit passed left

theorem refuses_reading (what : String) (request : Request) :
    (request.reading what).Refuses request.Refused := by
  cases request with
  | byte => exact (Reading.refuses_byte what).map (Reading.accepts_byte what) Piece.byte
  | raw count =>
      exact (Reading.refuses_take what count).map (Reading.accepts_take what count) Piece.raw
  | varint => exact (Reading.refuses_varint what).map (Reading.accepts_varint what) Piece.varint
  | word => exact (Reading.refuses_word what).map (Reading.accepts_word what) Piece.word
  | block limit =>
      exact (Reading.refuses_block what limit).map (Reading.accepts_block what limit) Piece.block
  | text limit =>
      exact (Reading.refuses_text what limit).map (Reading.accepts_text what limit)
        fun s => Piece.block (Text.toUtf8 s)

/-- The octets that were passed are those of the piece that was found, or they and the octets that
are left are the reason why none was. -/
def Explains (request : Request) (passed left : Bytes) : Except DecodingError Piece → Prop
  | .ok piece => request.Form passed piece
  | .error _ => request.Refused passed left

theorem exists_passes (what : String) (request : Request) (before : Cursor) :
    ∃ passed, before.Passes passed (request.reading what before).2 ∧
      request.Explains passed (request.reading what before).2.rest
        (request.reading what before).1 := by
  rcases hread : request.reading what before with ⟨outcome, after⟩
  cases outcome with
  | ok piece =>
      rcases (request.accepts_reading what _ _ _).mp hread with ⟨passed, hform, hpasses⟩
      exact ⟨passed, hpasses, hform⟩
  | error cause =>
      rcases (request.refuses_reading what _ _).mp ⟨cause, hread⟩ with ⟨passed, hrefused, hpasses⟩
      exact ⟨passed, hpasses, hrefused⟩

end Request

namespace Reading

theorem answers_append (earlier later : List (String × Request)) (cursor : Cursor) :
    answers (earlier ++ later) cursor =
      ((answers earlier cursor).1 ++ (answers later (answers earlier cursor).2).1,
        (answers later (answers earlier cursor).2).2) := by
  induction earlier generalizing cursor with
  | nil => rfl
  | cons asked earlier ih =>
      rcases asked with ⟨what, request⟩
      rw [List.cons_append, answers_cons, answers_cons, ih]
      rfl

/-- Any requests together only move on. -/
theorem exists_passes_answers (requests : List (String × Request)) (before : Cursor) :
    ∃ passed, before.Passes passed (answers requests before).2 := by
  induction requests generalizing before with
  | nil => exact ⟨[], Cursor.passes_nil_iff.mpr rfl⟩
  | cons asked later ih =>
      rcases asked with ⟨what, request⟩
      rcases request.exists_passes what before with ⟨front, hfront, _⟩
      rcases ih (request.reading what before).2 with ⟨back, hback⟩
      exact ⟨front ++ back, Cursor.passes_append_iff.mpr ⟨_, hfront, hback⟩⟩

/-- Among any requests, whatever came of those before, each one begins and stops at a place in the
octets, and no place lies before an earlier one.  What it has passed in between explains what came
of it: it is the piece that was found, or it tells where the request was refused. -/
theorem answers_keep_place
    (buffer : Bytes) (earlier later : List (String × Request)) (what : String)
    (request : Request) :
    ∃ before outcome after passed,
      (answers earlier (.start buffer)).2 = before ∧
        request.reading what before = (outcome, after) ∧
        answers (earlier ++ (what, request) :: later) (.start buffer) =
          ((answers earlier (.start buffer)).1 ++ outcome :: (answers later after).1,
            (answers later after).2) ∧
        before.PlaceIn buffer ∧ after.PlaceIn buffer ∧ (answers later after).2.PlaceIn buffer ∧
        before.offset ≤ after.offset ∧ after.offset ≤ (answers later after).2.offset ∧
        buffer.extract before.offset after.offset = passed ∧
        after.offset = before.offset + passed.length ∧
        request.Explains passed after.rest outcome := by
  rcases hearlier : answers earlier (.start buffer) with ⟨outcomes, before⟩
  rcases hread : request.reading what before with ⟨outcome, after⟩
  have hbefore := exists_passes_answers earlier (.start buffer)
  have hstep := request.exists_passes what before
  rw [hearlier] at hbefore
  rw [hread] at hstep
  rcases hbefore with ⟨front, hfront⟩
  rcases hstep with ⟨passed, hpassed, hexplains⟩
  rcases exists_passes_answers later after with ⟨back, hback⟩
  -- The buffer is what was passed before the request, by it and behind it, and what is left then.
  have hafter := Cursor.passes_append_iff.mpr ⟨_, hfront, hpassed⟩
  have hlast := Cursor.passes_append_iff.mpr ⟨_, hafter, hback⟩
  refine ⟨before, outcome, after, passed, rfl, hread, ?_, hfront.placeIn, hafter.placeIn,
    hlast.placeIn, hpassed.offset_le, hback.offset_le, hpassed.extract_eq hfront.placeIn,
    hpassed.2, hexplains⟩
  rw [answers_append, hearlier, answers_cons, hread]

/-- A block above its limit is refused behind its length, and its octets are read after that. -/
example :
    (answers [("source", .block 4), ("octets", .raw 5), ("end", .byte)]
      (.start [5, 1, 2, 3, 4, 5])).2.offset = 6 := by
  decide

end Reading
end EventCourier
