import KeyedState.Binary.Codec
import KeyedState.Schema.Basic

/-!
# The bytes by which keys are hashed

A key is hashed by a byte string of its own, which differs from the binary format:
text ends in the byte 255 instead of following its length, a character is a word,
and the number of an alternative, an optional value's included, takes eight bytes.
-/

namespace KeyedState

open Binary (Codec)

mutual

/-- The bytes that are hashed for a value. -/
def Schema.hashBytes : (s : Schema) → s.Val → Bytes
  | .unit, _ => []
  | .bool, b => Codec.bool.encode b
  | .char, c => Codec.u32.encode c.val
  | .string, s => Codec.utf8 s ++ [0xFF]
  | .float, x => Codec.u64.encode x.bits
  | .unsigned w, v => (Codec.word w.bytes).encode v
  | .signed w, v => (Codec.word w.bytes).encode v
  | .option _, none => Codec.length.encode 0
  | .option s, some v => Codec.length.encode 1 ++ s.hashBytes v
  | .list s, v => Codec.length.encode v.length ++ v.flatMap s.hashBytes
  | .pair a b, v => a.hashBytes v.1 ++ b.hashBytes v.2
  | .record fields, v => fields.hashBytes v
  | .variant cases, v => cases.hashBytes 0 v

/-- The bytes of the fields, one after the other. -/
def Fields.hashBytes : (fields : Fields) → fields.Val → Bytes
  | .nil, _ => []
  | .cons _ s rest, v => s.hashBytes v.1 ++ rest.hashBytes v.2

/-- The number of the alternative, counted from `start`, and the bytes of its content. -/
def Cases.hashBytes : (cases : Cases) → Nat → cases.Val → Bytes
  | .nil, _, v => nomatch v
  | .cons _ s _, start, .inl v => Codec.length.encode start ++ s.hashBytes v
  | .cons _ _ rest, start, .inr v => rest.hashBytes (start + 1) v

end

end KeyedState
