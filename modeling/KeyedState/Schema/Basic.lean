import KeyedState.Numeric.Binary64

/-!
# Schemas

A schema describes a type of keys, namespaces or state values, and `Schema.Val` is
the Lean type that it describes. The formats in which values are written, and the
bytes by which keys are hashed, are defined by recursion on the schema. Two states
are of the same type exactly when their schemas are equal, and equality of schemas
is decidable.
-/

namespace KeyedState

/-- The widths of machine words. -/
inductive Width where
  | w8 | w16 | w32 | w64 | w128
  deriving DecidableEq, Repr

/-- How many bytes a word has. -/
def Width.bytes : Width → Nat
  | .w8 => 1
  | .w16 => 2
  | .w32 => 4
  | .w64 => 8
  | .w128 => 16

mutual

/-- A type of data. -/
inductive Schema where
  | unit
  | bool
  | char
  | string
  | float
  | unsigned (w : Width)
  | signed (w : Width)
  | option (s : Schema)
  | list (s : Schema)
  | pair (a b : Schema)
  | record (fields : Fields)
  | variant (cases : Cases)
  deriving DecidableEq, Repr

/-- The named fields of a record, in order. -/
inductive Fields where
  | nil
  | cons (name : String) (s : Schema) (rest : Fields)
  deriving DecidableEq, Repr

/-- The named alternatives of a variant, in order; an alternative without content has the unit
schema. -/
inductive Cases where
  | nil
  | cons (name : String) (s : Schema) (rest : Cases)
  deriving DecidableEq, Repr

end

mutual

/-- The values of a schema. Integers are words in two's complement, doubles are their bits. -/
@[reducible] def Schema.Val : Schema → Type
  | .unit => Unit
  | .bool => Bool
  | .char => Char
  | .string => String
  | .float => Binary64
  | .unsigned w => BitVec (8 * w.bytes)
  | .signed w => BitVec (8 * w.bytes)
  | .option s => Option s.Val
  | .list s => List s.Val
  | .pair a b => a.Val × b.Val
  | .record fields => fields.Val
  | .variant cases => cases.Val

/-- The values of all fields, first to last. -/
@[reducible] def Fields.Val : Fields → Type
  | .nil => Unit
  | .cons _ s rest => s.Val × rest.Val

/-- A value of one of the alternatives. -/
@[reducible] def Cases.Val : Cases → Type
  | .nil => Empty
  | .cons _ s rest => s.Val ⊕ rest.Val

end

namespace Schema

/-- Byte strings are lists of bytes. -/
abbrev bytes : Schema := .list (.unsigned .w8)

/-- 32-bit words. -/
abbrev u32 : Schema := .unsigned .w32

/-- 64-bit words. -/
abbrev u64 : Schema := .unsigned .w64

/-- 64-bit integers. -/
abbrev i64 : Schema := .signed .w64

end Schema

end KeyedState
