import EventCourier.Proofs.Payload.Written
import EventCourier.Proofs.Wire.Block

/-!
# The length of records

How many octets a record takes can be counted without writing it.  A field takes its id as a number,
one octet for its kind and its value; texts, byte strings and records in it are counted with their
sizes before them.  The count is the length of the written form.
-/

namespace EventCourier

mutual

/-- How many octets a value takes behind the id and the kind of its field. -/
def Value.encodedLen : Value → Nat
  | .bool _ => 1
  | .int n => Varint.encodedLen (Zigzag.encode n).toNat
  | .text s => Piece.blockLen (Text.toUtf8 s).length
  | .bytes content => Piece.blockLen content.length
  | .timestamp _ => 8
  | .record r => Piece.blockLen r.encodedLen

def Entries.encodedLen : {low : Nat} → Entries low → Nat
  | _, .nil => 0
  | _, .cons id _ value rest =>
    Varint.encodedLen id.toNat + 1 + value.encodedLen + rest.encodedLen

/-- How many octets the fields of a record take. -/
def Record.encodedLen : Record → Nat
  | ⟨held⟩ => held.encodedLen

end

mutual

theorem Value.length_encode_piece : ∀ value : Value, value.piece.encode.length = value.encodedLen
  | .bool _ => by rw [Value.piece, Value.encodedLen]; rfl
  | .int n => by rw [Value.piece, Value.encodedLen, Piece.encode, Varint.length_encode]
  | .text s => by rw [Value.piece, Value.encodedLen, Piece.length_encode_block]
  | .bytes content => by rw [Value.piece, Value.encodedLen, Piece.length_encode_block]
  | .timestamp _ => by rw [Value.piece, Value.encodedLen]; rfl
  | .record r => by
      rw [Value.piece, Value.encodedLen, Piece.length_encode_block, Record.length_written r]

theorem Entries.length_written :
    ∀ {low : Nat} (entries : Entries low), entries.written.length = entries.encodedLen
  | _, .nil => by rw [Entries.written, Entries.encodedLen]; rfl
  | _, .cons id above value rest => by
      rw [Entries.written, Entries.encodedLen, Payload.encodeAll_fieldPieces, List.length_append,
        List.length_append, List.length_cons, Varint.length_encode,
        Value.length_encode_piece value, Entries.length_written rest]
      omega

theorem Record.length_written : ∀ record : Record, record.written.length = record.encodedLen
  | ⟨held⟩ => by rw [Record.written, Record.encodedLen, Entries.length_written held]

end

end EventCourier
