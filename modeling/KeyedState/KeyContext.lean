import KeyedState.Action
import KeyedState.KeyGroup.Assignment
import KeyedState.Serializer

/-!
# The current key

A backend works on one key at a time. The context holds the key and its key group,
and remembers the serialized form of the key once it was needed.
-/

namespace KeyedState

/-- The serialized current key and its key group. -/
structure KeyCoordinates where
  key : Bytes
  group : KeyGroup
  deriving DecidableEq, Repr

/-- The current key of a backend. -/
structure KeyContext (keys : Schema) where
  groups : UInt32
  range : KeyGroupRange
  serializer : Option (Serializer keys.Val)
  key : Option keys.Val
  group : Option KeyGroup
  /-- The serialized form of the key, if it was needed since the key was set. -/
  serialized : Option Bytes

namespace KeyContext

variable {keys : Schema}

/-- A context without a current key. -/
def of (groups : UInt32) (range : KeyGroupRange) (serializer : Option (Serializer keys.Val)) :
    KeyContext keys :=
  ⟨groups, range, serializer, none, none, none⟩

/-- Makes a key of a known group current. -/
def setKeyAndGroup (c : KeyContext keys) (key : keys.Val) (g : KeyGroup) : KeyContext keys :=
  { c with key := some key, group := some g, serialized := none }

/-- The group that a key is assigned to. -/
def groupOf (c : KeyContext keys) (key : keys.Val) : KeyGroup :=
  KeyGroup.assign (keys.hash key) c.groups

/-- Makes a key current, with the group that it is assigned to. -/
def setKey (c : KeyContext keys) (key : keys.Val) : KeyContext keys :=
  c.setKeyAndGroup key (c.groupOf key)

/-- Makes a key current; there is no group for it if there are no groups. -/
def setKey? (c : KeyContext keys) (key : keys.Val) : Option (KeyContext keys) :=
  (KeyGroup.assign? (keys.hash key) c.groups).map (c.setKeyAndGroup key)

/-- Changes the current group under the same key. -/
def setGroup (c : KeyContext keys) (g : KeyGroup) : KeyContext keys := { c with group := some g }

/-- The serialized form of the current key. -/
def serialize (c : KeyContext keys) : Except StateError Bytes :=
  match c.key, c.serializer with
  | none, _ => .error .noCurrentKey
  | some _, none => .error .keySerializerUnset
  | some key, some serializer => serializer.serialize key

/-- The current key, serialized, and its group. -/
def coordinates : Action (KeyContext keys) KeyCoordinates :=
  .of fun c =>
    match c.group, c.serialized with
    | none, _ => (.error .noCurrentKey, c)
    | some g, some bytes => (.ok ⟨bytes, g⟩, c)
    | some g, none =>
      match c.serialize with
      | .error e => (.error e, c)
      | .ok bytes => (.ok ⟨bytes, g⟩, { c with serialized := some bytes })

end KeyContext

end KeyedState
