import KeyedState.Serializer
import KeyedState.State.Call
import KeyedState.Storage.Snapshot

/-!
# Typed access to a store

How each call on a typed state is carried out on a store of bytes. `scope` finds the
slot of the current key and namespace; it is asked first, except by a call that has
nothing to do. A call serializes what it writes before it writes anything.

A value and an aggregate are the slot's own value. A list is the slot's own value
too, a sequence of elements serialized one by one; an empty list is not stored. The
entries of a map are those of the slot.
-/

namespace KeyedState

open Binary (Codec)

variable {σ V K : Type}

/-- Decodes what was found, if anything was. -/
def decodeFound (serializer : Serializer V) : Option Bytes → Except StateError (Option V)
  | none => .ok none
  | some bytes => (serializer.deserialize bytes).map some

/-- Removes the slot's own value. -/
def removeWhole (store : Store σ) (scope : Action σ SlotAddress) : Action σ Unit := do
  let _ ← store.remove (← scope).whole

namespace ValueCall

/-- Carries out a call on a value. -/
def perform (serializer : Serializer V) (store : Store σ) (scope : Action σ SlotAddress) :
    (c : ValueCall V) → Action σ c.Reply
  | get => do
    let found ← store.get (← scope).whole
    Action.lift (decodeFound serializer found)
  | set value => do
    let slot ← scope
    let bytes ← Action.lift (serializer.serialize value)
    store.put slot.whole bytes
  | clear => removeWhole store scope

end ValueCall

namespace ListCall

/-- The serialized elements as one value. -/
def elementsCodec : Codec (List Bytes) := Codec.list Codec.bytes

/-- The serialized elements of a slot. -/
def load (store : Store σ) (slot : SlotAddress) : Action σ (List Bytes) := do
  match ← store.get slot.whole with
  | none => return []
  | some bytes => Action.lift (Serializer.orMalformed (elementsCodec.read bytes))

/-- Stores serialized elements; nothing is stored for none. -/
def save (store : Store σ) (slot : SlotAddress) (elements : List Bytes) : Action σ Unit :=
  if elements.isEmpty then do
    let _ ← store.remove slot.whole
  else
    store.put slot.whole (elementsCodec.encode elements)

/-- Appends elements; without any there is nothing to do. -/
def append (serializer : Serializer V) (store : Store σ) (scope : Action σ SlotAddress)
    (values : List V) : Action σ Unit :=
  if values.isEmpty then return ()
  else do
    let slot ← scope
    let elements ← load store slot
    let added ← Action.lift (values.mapM serializer.serialize)
    save store slot (elements ++ added)

/-- Carries out a call on a list. -/
def perform (serializer : Serializer V) (store : Store σ) (scope : Action σ SlotAddress) :
    (c : ListCall V) → Action σ c.Reply
  | get => do
    let elements ← load store (← scope)
    Action.lift (elements.mapM serializer.deserialize)
  | add value => append serializer store scope [value]
  | addAll values => append serializer store scope values
  | update values => do
    let slot ← scope
    let elements ← Action.lift (values.mapM serializer.serialize)
    save store slot elements
  | clear => removeWhole store scope

end ListCall

namespace MapCall

/-- The value under a key of the map. -/
def lookup (keys : Serializer K) (values : Serializer V) (store : Store σ)
    (scope : Action σ SlotAddress) (key : K) : Action σ (Option V) := do
  let slot ← scope
  let userKey ← Action.lift (keys.serialize key)
  let found ← store.get (slot.entry userKey)
  Action.lift (decodeFound values found)

/-- The serialized entries of the map. -/
def rawEntries (store : Store σ) (scope : Action σ SlotAddress) :
    Action σ (List (Bytes × Bytes)) := do
  store.entries (← scope)

/-- Carries out a call on a map. -/
def perform (keys : Serializer K) (values : Serializer V) (store : Store σ)
    (scope : Action σ SlotAddress) : (c : MapCall K V) → Action σ c.Reply
  | get key => lookup keys values store scope key
  | put key value => do
    let slot ← scope
    let userKey ← Action.lift (keys.serialize key)
    let bytes ← Action.lift (values.serialize value)
    store.put (slot.entry userKey) bytes
  | remove key => do
    let slot ← scope
    let userKey ← Action.lift (keys.serialize key)
    let found ← store.remove (slot.entry userKey)
    Action.lift (decodeFound values found)
  | contains key => do
    let found ← lookup keys values store scope key
    return found.isSome
  | .keys => do
    let entries ← rawEntries store scope
    Action.lift (entries.mapM fun e => keys.deserialize e.1)
  | .values => do
    let entries ← rawEntries store scope
    Action.lift (entries.mapM fun e => values.deserialize e.2)
  | entries => do
    let entries ← rawEntries store scope
    Action.lift (entries.mapM fun e => do
      return (← keys.deserialize e.1, ← values.deserialize e.2))
  | clear => do
    store.clear (← scope)
  | isEmpty => do
    let entries ← rawEntries store scope
    return entries.isEmpty

end MapCall

namespace ReducingCall

/-- Carries out a call on an aggregate. A value is combined with the stored aggregate, which
stands first, or is the first aggregate itself. -/
def perform (serializer : Serializer V) (reduce : V → V → V) (store : Store σ)
    (scope : Action σ SlotAddress) : (c : ReducingCall V) → Action σ c.Reply
  | get => do
    let found ← store.get (← scope).whole
    Action.lift (decodeFound serializer found)
  | add value => do
    let slot ← scope
    let found ← store.get slot.whole
    let aggregate ← Action.lift (decodeFound serializer found)
    let bytes ← Action.lift (serializer.serialize (match aggregate with
      | none => value
      | some current => reduce current value))
    store.put slot.whole bytes
  | clear => removeWhole store scope

end ReducingCall

/-- What an external query is answered with: the entries of a map as one value, if there are any,
or else the slot's own value. -/
def serializedContent (kind : StateKind) (store : Store σ) (slot : SlotAddress) :
    Action σ (Option Bytes) :=
  match kind with
  | .map => do
    let entries ← store.entries slot
    return if entries.isEmpty then none else some (entriesCodec.encode entries)
  | _ => store.get slot.whole

end KeyedState
