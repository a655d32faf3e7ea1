import KeyedState.Error
import KeyedState.Json.Parser
import KeyedState.Json.Printer
import KeyedState.Schema.Binary
import KeyedState.Schema.Json

/-!
# Serializers

A serializer turns values into bytes and bytes into values, and may refuse either.
Every schema has one in each of two formats, binary and JSON, and a selective one
that refuses some values on purpose.

Main statement: `deserialize_serialize_binary`, the binary serializer reads back
what it wrote.
-/

namespace KeyedState

/-- A writer and a reader of values; either may refuse. -/
structure Serializer (α : Type) where
  serialize : α → Except StateError Bytes
  deserialize : Bytes → Except StateError α

/-- The formats in which values are written. -/
inductive SerializerFormat where
  | binary
  | json
  deriving DecidableEq, Repr, Inhabited

namespace Serializer

/-- The value, or the report of malformed bytes. -/
def orMalformed {α : Type} (value : Option α) : Except StateError α :=
  match value with
  | some value => .ok value
  | none => .error (.serialization .malformed)

/-- Writes the binary format, and reads it from the front of the bytes. -/
def binary (s : Schema) : Serializer s.Val where
  serialize value := .ok (s.codec.encode value)
  deserialize bytes := orMalformed (s.codec.read bytes)

/-- Writes compact JSON text, and reads any JSON text. -/
def json (s : Schema) : Serializer s.Val where
  serialize value := .ok (Binary.Codec.utf8 (s.toJson value).render)
  deserialize bytes := orMalformed ((Json.parse bytes).bind s.ofJson)

/-- Refuses to write the values of one set, and to give out those of another once they are read. -/
def restrict {α : Type} (serializer : Serializer α) (unwritable unreadable : α → Bool) :
    Serializer α where
  serialize value :=
    if unwritable value then .error (.serialization .refusedWrite)
    else serializer.serialize value
  deserialize bytes := do
    let value ← serializer.deserialize bytes
    if unreadable value then .error (.serialization .refusedRead) else .ok value

/-- The value is the given integer or the given text. -/
def isMarked (n : Nat) (text : String) : (s : Schema) → s.Val → Bool
  | .unsigned _, v => v.toNat == n
  | .signed _, v => v.toNat == n
  | .string, v => v == text
  | _, _ => false

/-- The binary format, without one integer and one text to write and one of each to read. -/
def selective (s : Schema) : Serializer s.Val :=
  (binary s).restrict (isMarked 13 "bad" s) (isMarked 66 "unreadable" s)

/-- The binary format reads back every value whose lengths fit. -/
theorem deserialize_serialize_binary (s : Schema) {value : s.Val} (fits : s.codec.fits value) :
    (binary s).serialize value >>= (binary s).deserialize = .ok value := by
  simp [binary, orMalformed, bind, Except.bind, s.codec.read_encode fits]

end Serializer

namespace SerializerFormat

/-- The format as text. -/
def text : SerializerFormat → String
  | .binary => "bincode"
  | .json => "json"

/-- The serializer of a schema in the format. -/
def serializer : SerializerFormat → (s : Schema) → Serializer s.Val
  | .binary, s => .binary s
  | .json, s => .json s

end SerializerFormat

end KeyedState
