import KeyedState.Json.Access
import KeyedState.Storage.Store

/-!
# Requests to stores as messages

A request is a message of a name and, as members of an object, the parts of an
address and the value. Bytes are hexadecimal text.
-/

namespace KeyedState

/-- The operation of a name. -/
def Operation.ofText? (name : String) : Option Operation :=
  [get, put, remove, entries, clear].find? fun op => op.text == name

/-- The slot that the members `group`, `key` and `ns` name. -/
def SlotAddress.ofMessage? (j : Json) : Option SlotAddress := do
  return ⟨← j.field "group" Json.toUInt32?, ← j.field "key" Json.toBytes?,
    ← j.field "ns" Json.toBytes?⟩

/-- The address in a slot, with the member `uk` as the user key. -/
def Address.ofMessage? (j : Json) : Option Address := do
  return ⟨← SlotAddress.ofMessage? j, ← j.optional "uk" Json.toBytes?⟩

namespace Request

/-- The request of the given name. A user key has to be in order even where it does not count. -/
def ofMessage? (name : String) (j : Json) : Option Request := do
  let a ← Address.ofMessage? j
  match name with
  | "get" => return .get a
  | "put" => return .put a (← j.field "value" Json.toBytes?)
  | "remove" => return .remove a
  | "entries" => return .entries a.slot
  | "clear" => return .clear a.slot
  | _ => none

/-- The reply to a request. -/
def replyJson : (r : Request) → r.Reply → Json
  | .get _, found | .remove _, found => Json.ofOption Json.hex found
  | .entries _, found => Json.ofList (fun (k, v) => .array [Json.hex k, Json.hex v]) found
  | .put _ _, _ | .clear _, _ => .null

end Request

end KeyedState
