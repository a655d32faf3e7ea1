import KeyedState.Schema.Exact
import KeyedState.State.Call

/-!
# Calls on named states as messages

A call is a message of a name and, as members of an object, its arguments: `value` or
`values`, and `uk` for the key of a map. Values are in their exact form. The reply is
one value; a call that replies nothing is answered with `null`.
-/

namespace KeyedState

variable {v k : Schema}

/-- The argument of a call. -/
def Schema.argument (s : Schema) (j : Json) (name : String) : Option s.Val :=
  s.ofExact (j.member name)

/-- A list of arguments. -/
def Schema.arguments (s : Schema) (j : Json) : Option (List s.Val) := do
  (← j.field "values" Json.toItems?).mapM s.ofExact

/-- The call on a value of the given name. -/
def ValueCall.ofMessage? (v : Schema) (name : String) (j : Json) : Option (ValueCall v.Val) := do
  match name with
  | "get" => return .get
  | "set" => return .set (← v.argument j "value")
  | "clear" => return .clear
  | _ => none

/-- The call on a list of the given name. -/
def ListCall.ofMessage? (v : Schema) (name : String) (j : Json) : Option (ListCall v.Val) := do
  match name with
  | "get" => return .get
  | "add" => return .add (← v.argument j "value")
  | "add_all" => return .addAll (← v.arguments j)
  | "update" => return .update (← v.arguments j)
  | "clear" => return .clear
  | _ => none

/-- The call on a map of the given name. -/
def MapCall.ofMessage? (k v : Schema) (name : String) (j : Json) :
    Option (MapCall k.Val v.Val) := do
  match name with
  | "get" => return .get (← k.argument j "uk")
  | "put" => return .put (← k.argument j "uk") (← v.argument j "value")
  | "remove" => return .remove (← k.argument j "uk")
  | "contains" => return .contains (← k.argument j "uk")
  | "keys" => return .keys
  | "values" => return .values
  | "entries" => return .entries
  | "clear" => return .clear
  | "is_empty" => return .isEmpty
  | _ => none

/-- The call on an aggregate of the given name. -/
def ReducingCall.ofMessage? (v : Schema) (name : String) (j : Json) :
    Option (ReducingCall v.Val) := do
  match name with
  | "get" => return .get
  | "add" => return .add (← v.argument j "value")
  | "clear" => return .clear
  | _ => none

/-- The reply to a call on a value. -/
def ValueCall.replyJson : (c : ValueCall v.Val) → c.Reply → Json
  | .get, found => Json.ofOption v.toExact found
  | .set _, _ | .clear, _ => .null

/-- The reply to a call on a list. -/
def ListCall.replyJson : (c : ListCall v.Val) → c.Reply → Json
  | .get, found => Json.ofList v.toExact found
  | .add _, _ | .addAll _, _ | .update _, _ | .clear, _ => .null

/-- The reply to a call on a map. -/
def MapCall.replyJson : (c : MapCall k.Val v.Val) → c.Reply → Json
  | .get _, found | .remove _, found => Json.ofOption v.toExact found
  | .contains _, found | .isEmpty, found => .bool found
  | .keys, found => Json.ofList k.toExact found
  | .values, found => Json.ofList v.toExact found
  | .entries, found => Json.ofList (fun (x, y) => .array [k.toExact x, v.toExact y]) found
  | .put _ _, _ | .clear, _ => .null

/-- The reply to a call on an aggregate. -/
def ReducingCall.replyJson : (c : ReducingCall v.Val) → c.Reply → Json
  | .get, found => Json.ofOption v.toExact found
  | .add _, _ | .clear, _ => .null

namespace StateType

/-- The call of the given name. -/
def callOfMessage? : (t : StateType) → String → Json → Option t.Call
  | .value v => ValueCall.ofMessage? v
  | .list v => ListCall.ofMessage? v
  | .map k v => MapCall.ofMessage? k v
  | .reducing v => ReducingCall.ofMessage? v

/-- The reply to a call. -/
def replyJson : (t : StateType) → (c : t.Call) → t.Reply c → Json
  | .value _ => ValueCall.replyJson
  | .list _ => ListCall.replyJson
  | .map _ _ => MapCall.replyJson
  | .reducing _ => ReducingCall.replyJson

end StateType

end KeyedState
