import KeyedState.Hex
import KeyedState.Schema.Json

/-!
# Members of requests

Reading a request by the names of its members. A member that is absent is the same
as one that is `null`, and of several with one name the last counts. What cannot be
read is `none`.
-/

namespace KeyedState.Json

variable {α : Type}

/-- A value that is taken in as a request: all strings and names are text, no number exceeds the
doubles, and arrays and objects are at most `levels` deep. -/
def isSound : (levels : Nat) → Json → Bool
  | levels + 1, .array items => items.all (isSound levels)
  | levels + 1, .object members => members.all fun m => m.1.isSome && isSound levels m.2
  | 0, .array _ | 0, .object _ => false
  | _, .string s => s.isSome
  | _, .number n => n.toBinary64?.isSome
  | _, .null | _, .bool _ => true

/-- Arrays and objects of a request are at most this deep. -/
def greatestDepth : Nat := 127

/-- The member of a name. -/
def member? (j : Json) (name : String) : Option Json :=
  match j with
  | .object members =>
    match (members.filter fun m => m.1 == some name).getLast? with
    | some (_, .null) | none => none
    | some (_, value) => some value
  | _ => none

/-- The member of a name, `null` included. -/
def member (j : Json) (name : String) : Json := (j.member? name).getD .null

/-- A member that has to be there. -/
def field (j : Json) (name : String) (read : Json → Option α) : Option α :=
  (j.member? name).bind read

/-- A member that may be absent. -/
def optional (j : Json) (name : String) (read : Json → Option α) : Option (Option α) :=
  (j.member? name).mapM read

/-- A member with a default. -/
def fieldOr (j : Json) (name : String) (default : α) (read : Json → Option α) : Option α :=
  (j.optional name read).map fun value => value.getD default

/-- Text. -/
def toText? : Json → Option String
  | .string s => s
  | _ => none

/-- The items of an array. -/
def toItems? : Json → Option (List Json)
  | .array items => some items
  | _ => none

/-- A 32-bit word. -/
def toUInt32? (j : Json) : Option UInt32 := (Schema.u32.ofJson j).map UInt32.ofBitVec

/-- A 64-bit word. -/
def toUInt64? (j : Json) : Option UInt64 := (Schema.u64.ofJson j).map UInt64.ofBitVec

/-- A number of things, which is a 64-bit word. -/
def toSize? (j : Json) : Option Nat := j.toUInt64?.map UInt64.toNat

/-- A flag. -/
def toBool? (j : Json) : Option Bool := Schema.bool.ofJson j

/-- Bytes in hexadecimal text. -/
def toBytes? (j : Json) : Option Bytes := j.toText?.bind Hex.ofText?

/-- The literal of a natural number. -/
def nat (n : Nat) : Json := .number (.ofNat n)

/-- The literal of a 32-bit word. -/
def word (w : UInt32) : Json := nat w.toNat

/-- Hexadecimal text. -/
def hex (b : Bytes) : Json := str (Hex.text b)

/-- An absent value is `null`. -/
def ofOption (encode : α → Json) : Option α → Json
  | none => .null
  | some value => encode value

/-- The items, encoded one by one. -/
def ofList (encode : α → Json) (values : List α) : Json := .array (values.map encode)

end KeyedState.Json
