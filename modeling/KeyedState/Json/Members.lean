import KeyedState.Json.Basic

/-!
# Members of objects

Looking up members by name, and reading the fields of a record, which is written as
an object or as the array of its fields.
-/

namespace KeyedState.Json

/-- The members of an object by name. Every name has to be text. -/
def namedMembers (members : List (Option String × Json)) : Option (List (String × Json)) :=
  members.mapM fun (name, value) => name.map (·, value)

/-- The values of the members with the given name. -/
def valuesNamed (members : List (String × Json)) (name : String) : List Json :=
  (members.filter fun m => m.1 == name).map Prod.snd

/-- The value of the member with the given name, if any; a name that occurs twice is refused. -/
def valueNamed (members : List (String × Json)) (name : String) : Option (Option Json) :=
  match valuesNamed members name with
  | [] => some none
  | [value] => some (some value)
  | _ => none

/-- The values of the named fields of a record, absent ones included. In an array the last fields
may be left out. An object may have other members only if the record is `extensible`. -/
def fieldValues (extensible : Bool) (names : List String) : Json → Option (List (Option Json))
  | .array items =>
    if items.length ≤ names.length then
      some (items.map some ++ List.replicate (names.length - items.length) none)
    else
      none
  | .object members => do
    let members ← namedMembers members
    if extensible || members.all fun m => names.contains m.1 then
      names.mapM (valueNamed members)
    else
      none
  | _ => none

/-- The value of an absent field is `default`; a present one is read. -/
def readOr {α : Type} (read : Json → Option α) (default : α) : Option Json → Option α
  | none => some default
  | some value => read value

/-- The name of an alternative without content: bare, or with `null` as its content. -/
def bareName : Json → Option String
  | .string name => name
  | .object [(name, .null)] => name
  | _ => none

end KeyedState.Json
