import EventCourier.Varint

/-!
# The pieces that messages are written from

Every message is a sequence of pieces: single bytes, bytes as they are, variable-length naturals,
words of eight bytes, and blocks that carry their length.  A message's bytes are those of its
pieces, one after the other.
-/

namespace EventCourier

inductive Piece where
  | byte (octet : UInt8)
  /-- Bytes without their length. -/
  | raw (octets : Bytes)
  | varint (value : UInt64)
  /-- A signed word, as eight bytes with the most significant first. -/
  | word (value : Int64)
  /-- Bytes after their length as a variable-length natural. -/
  | block (octets : Bytes)

namespace Piece

def encode : Piece → Bytes
  | .byte octet => [octet]
  | .raw octets => octets
  | .varint value => Varint.encode value.toNat
  | .word value => Bytes.ofWord value.toUInt64
  | .block octets => Varint.encode octets.length ++ octets

def encodeAll (pieces : List Piece) : Bytes :=
  pieces.flatMap encode

@[simp] theorem encodeAll_nil : encodeAll [] = [] := rfl

@[simp] theorem encodeAll_cons (piece : Piece) (pieces : List Piece) :
    encodeAll (piece :: pieces) = piece.encode ++ encodeAll pieces := rfl

end Piece
end EventCourier
