import KeyedState.Json.Double
import KeyedState.Json.Members
import KeyedState.Schema.Basic

/-!
# The JSON format of a schema

How values of a schema are written as JSON and read back. Byte strings are arrays
of numbers, an absent optional value is `null`, a record is an object with its
fields in order, and an alternative of a variant is its bare name or an object with
the name as its only member. An infinity or a NaN is written `null` and does not
read back.

Readers accept more than is written: the members of a record in any order and mixed
with unknown ones, a record as the array of its fields, a missing optional member,
and the object form of an alternative without content.
-/

namespace KeyedState

open Json (Number)

/-- The unsigned word that a literal denotes; there is none for a literal with a sign. -/
def Width.readUnsigned (w : Width) (n : Number) : Option (BitVec (8 * w.bytes)) := do
  let i ← n.toInt?
  if n.negative ∨ 2 ^ (8 * w.bytes) ≤ i then none else some (BitVec.ofInt (8 * w.bytes) i)

/-- The signed word that a literal denotes. Up to 64 bits `-0` denotes a double. -/
def Width.readSigned (w : Width) (n : Number) : Option (BitVec (8 * w.bytes)) := do
  let i ← n.toInt?
  let bound : Int := 2 ^ (8 * w.bytes - 1)
  if (n.isNegativeZero ∧ w ≠ .w128) ∨ i < -bound ∨ bound ≤ i then none
  else some (BitVec.ofInt (8 * w.bytes) i)

/-- What stands for a missing member of a record: an optional one is absent. -/
def Schema.missing : (s : Schema) → Option s.Val
  | .option _ => some none
  | _ => none

mutual

/-- The JSON form of a value. -/
def Schema.toJson : (s : Schema) → s.Val → Json
  | .unit, _ => .null
  | .bool, b => .bool b
  | .char, c => Json.str (String.singleton c)
  | .string, s => Json.str s
  | .float, x => (Number.ofBinary64? x).elim .null .number
  | .unsigned _, v => .number (.ofNat v.toNat)
  | .signed _, v => .number (.ofInt v.toInt)
  | .option s, v => v.elim .null s.toJson
  | .list s, v => .array (v.map s.toJson)
  | .pair a b, v => .array [a.toJson v.1, b.toJson v.2]
  | .record fields, v => .object (fields.toMembers v)
  | .variant cases, v => cases.toJson v

/-- The members that stand for the fields, in order. -/
def Fields.toMembers : (fields : Fields) → fields.Val → List (Option String × Json)
  | .nil, _ => []
  | .cons name s rest, v => (some name, s.toJson v.1) :: rest.toMembers v.2

/-- A bare name for an alternative without content, else an object of one member. -/
def Cases.toJson : (cases : Cases) → cases.Val → Json
  | .nil, v => nomatch v
  | .cons name s _, .inl v =>
    if s = .unit then Json.str name else .object [(some name, s.toJson v)]
  | .cons _ _ rest, .inr v => rest.toJson v

end

mutual

/-- The value that a JSON value stands for. -/
def Schema.ofJson : (s : Schema) → Json → Option s.Val
  | .unit, .null => some ()
  | .bool, .bool b => some b
  | .char, .string (some s) =>
    match s.toList with
    | [c] => some c
    | _ => none
  | .string, .string (some s) => some s
  | .float, .number n => n.toBinary64?
  | .unsigned w, .number n => w.readUnsigned n
  | .signed w, .number n => w.readSigned n
  | .option _, .null => some none
  | .option s, j => (s.ofJson j).map some
  | .list s, .array items => items.mapM s.ofJson
  | .pair a b, .array [x, y] => do return (← a.ofJson x, ← b.ofJson y)
  | .record fields, .array items => fields.ofItems items
  | .record fields, .object members => (Json.namedMembers members).bind fields.ofMembers
  | .variant cases, .string (some name) => cases.ofJson name .null true
  | .variant cases, .object [(some name, content)] => cases.ofJson name content false
  | _, _ => none

/-- The fields read from an array that holds exactly them. -/
def Fields.ofItems : (fields : Fields) → List Json → Option fields.Val
  | .nil, [] => some ()
  | .cons _ s rest, item :: items => do return (← s.ofJson item, ← rest.ofItems items)
  | _, _ => none

/-- The fields read from the members of their names; a name that occurs twice is refused. -/
def Fields.ofMembers : (fields : Fields) → List (String × Json) → Option fields.Val
  | .nil, _ => some ()
  | .cons name s rest, members => do
    let v ← match Json.valuesNamed members name with
      | [] => s.missing
      | [value] => s.ofJson value
      | _ => none
    return (v, ← rest.ofMembers members)

/-- The alternative of the given name; a bare name stands for one without content only. -/
def Cases.ofJson : (cases : Cases) → String → Json → Bool → Option cases.Val
  | .nil, _, _, _ => none
  | .cons name s rest, n, content, bare =>
    if name = n then
      if bare ∧ s ≠ .unit then none else (s.ofJson content).map .inl
    else
      (rest.ofJson n content bare).map .inr

end

end KeyedState
