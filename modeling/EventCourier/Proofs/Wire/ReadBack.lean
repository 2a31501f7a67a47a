import EventCourier.Proofs.Wire.Block
import EventCourier.Proofs.Wire.Extent

/-!
# Writes read back in turn

Whatever pieces were written one after the other, a reader that asks for pieces of the same kinds
in the same order finds them again, and stops where the writer stopped.  Where the octets are cut
short, the pieces before the cut are still found, and the first one that is not whole is refused.
-/

namespace EventCourier

/-- What a reader asks for next. -/
inductive Request where
  | byte
  | raw (count : Nat)
  | varint
  | word
  | block (limit : UInt64)
  /-- A block that is the UTF-8 form of a text. -/
  | text (limit : UInt64)

namespace Request

/-- Takes what is asked for, and gives the piece that is written for it. -/
def reading (what : String) : Request → Reading Piece
  | .byte => do return .byte (← Reading.byte what)
  | .raw count => do return .raw (← Reading.take what count)
  | .varint => do return .varint (← Reading.varint what)
  | .word => do return .word (← Reading.word what)
  | .block limit => do return .block (← Reading.block what limit)
  | .text limit => do return .block (Text.toUtf8 (← Reading.text what limit))

/-- The octets are those in which the request finds the piece. -/
def Form : Request → Bytes → Piece → Prop
  | .byte, octets, piece => ∃ octet, octets = [octet] ∧ piece = .byte octet
  | .raw count, octets, piece => ∃ given, (octets.length = count ∧ given = octets) ∧
      piece = .raw given
  | .varint, octets, piece => ∃ value, Varint.Spells octets value ∧ piece = .varint value
  | .word, octets, piece => ∃ value, octets = Bytes.ofWord value.toUInt64 ∧ piece = .word value
  | .block limit, octets, piece => ∃ content, BlockForm limit octets content ∧
      piece = .block content
  | .text limit, octets, piece => ∃ s, BlockForm limit octets (Text.toUtf8 s) ∧
      piece = .block (Text.toUtf8 s)

theorem accepts_reading (what : String) (request : Request) :
    (request.reading what).Accepts request.Form := by
  cases request with
  | byte => exact (Reading.accepts_byte what).map Piece.byte
  | raw count => exact (Reading.accepts_take what count).map Piece.raw
  | varint => exact (Reading.accepts_varint what).map Piece.varint
  | word => exact (Reading.accepts_word what).map Piece.word
  | block limit => exact (Reading.accepts_block what limit).map Piece.block
  | text limit =>
      exact (Reading.accepts_text what limit).map fun s => Piece.block (Text.toUtf8 s)

/-- The request is for pieces of this kind, of this length if it names one, and leaves room for
this one if it names a limit. -/
inductive Suits : Request → Piece → Prop
  | byte (octet : UInt8) : Suits .byte (.byte octet)
  | raw (octets : Bytes) : Suits (.raw octets.length) (.raw octets)
  | varint (value : UInt64) : Suits .varint (.varint value)
  | word (value : Int64) : Suits .word (.word value)
  | block {limit : UInt64} {octets : Bytes} (hfits : octets.length ≤ limit.toNat) :
      Suits (.block limit) (.block octets)
  | text {limit : UInt64} {s : String} (hfits : (Text.toUtf8 s).length ≤ limit.toNat) :
      Suits (.text limit) (.block (Text.toUtf8 s))

theorem Suits.form_encode
    {request : Request} {piece : Piece} (hsuits : request.Suits piece) :
    request.Form piece.encode piece := by
  cases hsuits with
  | byte octet => exact ⟨octet, rfl, rfl⟩
  | raw octets => exact ⟨octets, ⟨rfl, rfl⟩, rfl⟩
  | varint value => exact ⟨value, Varint.spells_encode value, rfl⟩
  | word value => exact ⟨value, rfl, rfl⟩
  | block hfits => exact ⟨_, blockForm_encode hfits, rfl⟩
  | text hfits => exact ⟨_, blockForm_encode hfits, rfl⟩

end Request

namespace Reading

/-- Reads in turn, and goes on after a refusal too: every outcome, and the place where the last
reading stops. -/
def inTurn {α : Type} : List (Reading α) → Cursor → List (Except DecodingError α) × Cursor
  | [], cursor => ([], cursor)
  | reading :: later, cursor =>
    let (outcome, after) := reading cursor
    let (outcomes, last) := inTurn later after
    (outcome :: outcomes, last)

/-- Reads what is asked for in turn; each request comes with the name it has in an error. -/
def answers (requests : List (String × Request)) (cursor : Cursor) :
    List (Except DecodingError Piece) × Cursor :=
  inTurn (requests.map fun (what, request) => request.reading what) cursor

theorem answers_cons
    (what : String) (request : Request) (later : List (String × Request)) (cursor : Cursor) :
    answers ((what, request) :: later) cursor =
      ((request.reading what cursor).1 :: (answers later (request.reading what cursor).2).1,
        (answers later (request.reading what cursor).2).2) := rfl

section ReadBack

variable {requests : List (String × Request)} {pieces : List Piece}

theorem answers_encodeAll_append
    (hsuits : List.Forall₂ (fun asked piece => asked.2.Suits piece) requests pieces)
    (offset : Nat) (rest : Bytes) :
    answers requests ⟨offset, Piece.encodeAll pieces ++ rest⟩ =
      (pieces.map .ok, ⟨offset + (Piece.encodeAll pieces).length, rest⟩) := by
  induction hsuits generalizing offset with
  | nil => rfl
  | @cons asked piece requests pieces hpiece _ ih =>
      rcases asked with ⟨what, request⟩
      have hread := (request.accepts_reading what).read_at hpiece.form_encode offset
        (Piece.encodeAll pieces ++ rest)
      rw [Piece.encodeAll_cons, List.append_assoc, answers_cons, hread]
      dsimp only
      rw [ih, List.length_append, Nat.add_assoc]
      rfl

/-- Octets that are cut short at `k` answer the requests up to the first piece that ends behind
the cut, and refuse that one. -/
theorem exists_refusal_of_cut
    (hsuits : List.Forall₂ (fun asked piece => asked.2.Suits piece) requests pieces)
    (offset : Nat) {k : Nat} (hcut : k < (Piece.encodeAll pieces).length) :
    ∃ count < pieces.length, (Piece.encodeAll (pieces.take count)).length ≤ k ∧
      k < (Piece.encodeAll (pieces.take (count + 1))).length ∧
      ∃ cause later, (answers requests ⟨offset, (Piece.encodeAll pieces).take k⟩).1 =
        (pieces.take count).map .ok ++ .error cause :: later := by
  induction hsuits generalizing offset k with
  | nil => exact absurd hcut (Nat.not_lt_zero k)
  | @cons asked piece requests pieces hpiece _ ih =>
      rcases asked with ⟨what, request⟩
      rw [Piece.encodeAll_cons] at hcut ⊢
      -- The cut goes through the first piece, or lies behind it.
      by_cases hwithin : k < piece.encode.length
      · have hrefused := (request.accepts_reading what).exists_error_at_of_cut
          hpiece.form_encode offset hwithin
        rcases hrefused with ⟨cause, hcause⟩
        refine ⟨0, Nat.succ_pos _, Nat.zero_le k, ?_, cause, ?_⟩
        · simpa using hwithin
        · rw [List.take_append_of_le_length hwithin.le, answers_cons, hcause]
          exact ⟨_, rfl⟩
      · have hbehind : piece.encode.length ≤ k := Nat.not_lt.mp hwithin
        have hlater : k - piece.encode.length < (Piece.encodeAll pieces).length := by
          rw [List.length_append] at hcut
          omega
        have hread := (request.accepts_reading what).read_at hpiece.form_encode offset
          ((Piece.encodeAll pieces).take (k - piece.encode.length))
        rcases ih (offset + piece.encode.length) hlater with
          ⟨count, hcount, hfront, hback, cause, later, hanswers⟩
        refine ⟨count + 1, Nat.succ_lt_succ hcount, ?_, ?_, cause, later, ?_⟩
        · rw [List.take_succ_cons, Piece.encodeAll_cons, List.length_append]
          omega
        · rw [List.take_succ_cons, Piece.encodeAll_cons, List.length_append]
          omega
        · rw [List.take_append, List.take_of_length_le hbehind, answers_cons, hread]
          dsimp only
          rw [hanswers]
          rfl

/-- Pieces that were written one after the other answer the requests that suit them, and the
reader stops where the writer did, whatever follows.  From the first `k` octets alone it still
finds the pieces that end there, and is refused the first one that ends behind them. -/
theorem answers_encodeAll
    (hsuits : List.Forall₂ (fun asked piece => asked.2.Suits piece) requests pieces) :
    (∀ rest, answers requests (.start (Piece.encodeAll pieces ++ rest)) =
        (pieces.map .ok, ⟨(Piece.encodeAll pieces).length, rest⟩)) ∧
      ∀ k < (Piece.encodeAll pieces).length,
        ∃ count < pieces.length, (Piece.encodeAll (pieces.take count)).length ≤ k ∧
          k < (Piece.encodeAll (pieces.take (count + 1))).length ∧
          ∃ cause later, (answers requests (.start ((Piece.encodeAll pieces).take k))).1 =
            (pieces.take count).map .ok ++ .error cause :: later := by
  constructor
  · intro rest
    have hanswers := answers_encodeAll_append hsuits 0 rest
    rwa [Nat.zero_add] at hanswers
  · intro k hcut
    exact exists_refusal_of_cut hsuits 0 hcut

end ReadBack

/-- One piece of every kind. -/
def samplePieces : List Piece :=
  [.byte 7, .block (Text.toUtf8 "abc"), .word (-2), .varint 300, .raw [0xff, 0x80],
    .block [0xff, 0x80]]

/-- Requests for one piece of every kind, with limits that leave no more room than is needed. -/
def sampleRequests : List (String × Request) :=
  [("tag", .byte), ("name", .text 3), ("stamp", .word), ("count", .varint), ("tail", .raw 2),
    ("seal", .block 2)]

/-- The fourteenth octet lies between the two octets of the number. -/
theorem answers_samplePieces :
    List.Forall₂ (fun asked piece => asked.2.Suits piece) sampleRequests samplePieces ∧
      answers sampleRequests (.start (Piece.encodeAll samplePieces ++ [0x80])) =
        (samplePieces.map .ok, ⟨20, [0x80]⟩) ∧
      ∃ cause later, (answers sampleRequests (.start ((Piece.encodeAll samplePieces).take 14))).1 =
        (samplePieces.take 3).map .ok ++ .error cause :: later := by
  have hsuits : List.Forall₂ (fun asked piece => asked.2.Suits piece) sampleRequests
      samplePieces :=
    .cons (.byte 7) (.cons (.text (by decide)) (.cons (.word (-2)) (.cons (.varint 300)
      (.cons (.raw [0xff, 0x80]) (.cons (.block (by decide)) .nil)))))
  have hlength : (Piece.encodeAll samplePieces).length = 20 := by decide +kernel
  rcases answers_encodeAll hsuits with ⟨hwhole, hcut⟩
  rw [hlength] at hwhole hcut
  rcases hcut 14 (by decide) with ⟨count, hcount, hfront, hback, hanswers⟩
  have hthree : count = 3 := by
    have hless : count < 6 := hcount
    revert hfront hback
    interval_cases count <;> decide +kernel
  rw [hthree] at hanswers
  exact ⟨hsuits, hwhole [0x80], hanswers⟩

end Reading
end EventCourier
