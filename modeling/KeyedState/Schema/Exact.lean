import KeyedState.Json.Access

/-!
# The exact JSON form of a schema

A second JSON form of values, in which nothing is lost: doubles are the sixteen
hexadecimal digits of their bits, NaN included, words of 128 bits are decimal text,
and byte strings are hexadecimal text. All else is as in the JSON format, except that
an absent member of a record is the same as `null`, that of several members with one
name the last counts, and that the content of an alternative, where it is a record,
has to name its fields.
-/

namespace KeyedState

/-- The bits of a double. -/
def Binary64.toExact (x : Binary64) : Json := Json.hex (bigEndian 8 x.bits.toNat)

/-- The double of the given bits. -/
def Binary64.ofExact? (j : Json) : Option Binary64 := do
  let b ← j.toBytes?
  if b.length = 8 then some ⟨UInt64.ofNat (ofBigEndian b)⟩ else none

/-- The number that decimal digits denote. -/
def naturalOfDigits? (digits : List Char) : Option Nat :=
  if digits.isEmpty || !digits.all Char.isDigit then none
  else some (Json.Number.digitsValue digits)

/-- The number that decimal text denotes, which may have a plus sign. -/
def naturalOfText? (s : String) : Option Nat :=
  match s.toList with
  | '+' :: digits => naturalOfDigits? digits
  | digits => naturalOfDigits? digits

/-- The integer that decimal text denotes, which may have a sign. -/
def integerOfText? (s : String) : Option Int :=
  match s.toList with
  | '-' :: digits => (naturalOfDigits? digits).map fun n => -n
  | _ => (naturalOfText? s).map fun n => n

mutual

/-- The exact form of a value. -/
def Schema.toExact : (s : Schema) → s.Val → Json
  | .unit, _ => .null
  | .bool, b => .bool b
  | .char, c => Json.str (String.singleton c)
  | .string, s => Json.str s
  | .float, x => x.toExact
  | .unsigned w, v => if w = .w128 then Json.str (toString v.toNat) else Json.nat v.toNat
  | .signed w, v => if w = .w128 then Json.str (toString v.toInt) else .number (.ofInt v.toInt)
  | .option s, v => v.elim .null s.toExact
  | .list (.unsigned .w8), v => Json.hex (v.map UInt8.ofBitVec)
  | .list s, v => .array (v.map s.toExact)
  | .pair a b, v => .array [a.toExact v.1, b.toExact v.2]
  | .record fields, v => .object (fields.toExact v)
  | .variant cases, v => cases.toExact v

/-- The members that stand for the fields, in order. -/
def Fields.toExact : (fields : Fields) → fields.Val → List (Option String × Json)
  | .nil, _ => []
  | .cons name s rest, v => (some name, s.toExact v.1) :: rest.toExact v.2

/-- A bare name for an alternative without content, else an object of one member. -/
def Cases.toExact : (cases : Cases) → cases.Val → Json
  | .nil, v => nomatch v
  | .cons name s _, .inl v =>
    if s = .unit then Json.str name else .object [(some name, s.toExact v)]
  | .cons _ _ rest, .inr v => rest.toExact v

end

/-- The form is an array in place of a record, which tells the fields by their places alone. -/
def Schema.isPositional : Schema → Json → Bool
  | .record _, .array _ => true
  | _, _ => false

mutual

/-- The value that an exact form stands for. -/
def Schema.ofExact : (s : Schema) → Json → Option s.Val
  | .unit, .null => some ()
  | .bool, .bool b => some b
  | .char, .string (some s) =>
    match s.toList with
    | [c] => some c
    | _ => none
  | .string, .string (some s) => some s
  | .float, j => Binary64.ofExact? j
  | .unsigned .w128, j => do
    let n ← j.toText?.bind naturalOfText?
    if 2 ^ 128 ≤ n then none else some (BitVec.ofNat _ n)
  | .unsigned w, .number n => w.readUnsigned n
  | .signed .w128, j => do
    let i ← j.toText?.bind integerOfText?
    if i < -2 ^ 127 ∨ 2 ^ 127 ≤ i then none else some (BitVec.ofInt _ i)
  | .signed w, .number n => w.readSigned n
  | .option _, .null => some none
  | .option s, j => (s.ofExact j).map some
  | .list (.unsigned .w8), j => j.toBytes?.map fun b => b.map UInt8.toBitVec
  | .list s, .array items => items.mapM s.ofExact
  | .pair a b, .array [x, y] => do return (← a.ofExact x, ← b.ofExact y)
  | .record fields, .array items => fields.ofExactItems items
  | .record fields, .object members => fields.ofExact (.object members)
  | .variant cases, .string (some name) => cases.ofExact name .null
  | .variant cases, .object [(some name, content)] => cases.ofExact name content
  | _, _ => none

/-- The fields read from an array that holds exactly them. -/
def Fields.ofExactItems : (fields : Fields) → List Json → Option fields.Val
  | .nil, [] => some ()
  | .cons _ s rest, item :: items => do return (← s.ofExact item, ← rest.ofExactItems items)
  | _, _ => none

/-- The fields read from the members of their names. -/
def Fields.ofExact : (fields : Fields) → Json → Option fields.Val
  | .nil, _ => some ()
  | .cons name s rest, j => do return (← s.ofExact (j.member name), ← rest.ofExact j)

/-- The alternative of the given name; a record among the contents names its fields. -/
def Cases.ofExact : (cases : Cases) → String → Json → Option cases.Val
  | .nil, _, _ => none
  | .cons name s rest, n, content =>
    if name = n then
      if s.isPositional content then none else (s.ofExact content).map .inl
    else (rest.ofExact n content).map .inr

end

end KeyedState
