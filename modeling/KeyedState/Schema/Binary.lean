import KeyedState.Binary.Codec
import KeyedState.Schema.Basic

/-!
# The binary format of a schema

Every schema has a binary codec, built from the codecs of its parts: words of the
schema's width, doubles as their 64 bits, the fields of a record in order, and an
alternative of a variant after its number. With the codec comes its law, so values
of every schema read back (`Codec.decode_encode`).
-/

namespace KeyedState

open Binary

/-- A double is its bits. -/
def Binary64.codec : Codec Binary64 := Codec.u64.iso Binary64.mk Binary64.bits fun _ => rfl

mutual

/-- The binary codec of a schema. -/
def Schema.codec : (s : Schema) → Codec s.Val
  | .unit => Codec.unit
  | .bool => Codec.bool
  | .char => Codec.char
  | .string => Codec.string
  | .float => Binary64.codec
  | .unsigned w => Codec.word w.bytes
  | .signed w => Codec.word w.bytes
  | .option s => Codec.option s.codec
  | .list s => Codec.list s.codec
  | .pair a b => Codec.pair a.codec b.codec
  | .record fields => fields.codec
  | .variant cases => cases.alternatives.codec

/-- The codecs of the fields, one after the other. -/
def Fields.codec : (fields : Fields) → Codec fields.Val
  | .nil => Codec.unit
  | .cons _ s rest => Codec.pair s.codec rest.codec

/-- The codecs of the alternatives, numbered from 0. -/
def Cases.alternatives : (cases : Cases) → Alternatives cases.Val
  | .nil => Alternatives.empty
  | .cons _ s rest => Alternatives.cons s.codec rest.alternatives

end

end KeyedState
