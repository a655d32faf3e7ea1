import KeyedState.KeyContext
import KeyedState.State.Access
import KeyedState.State.Descriptor
import KeyedState.Storage.Basic
import KeyedState.Storage.Tracking
import KeyedState.Storage.Ttl

/-!
# Named states

A named state in use: the serializers it was opened with, its current namespace, and
the layers around its table, expiry inside and tracking outside. It has no key of its
own; every call finds the current key in the context of the backend.
-/

namespace KeyedState

/-- Carries out a call on a state that is written as specified. -/
def StateSpec.call {σ : Type} (spec : StateSpec Id) (store : Store σ)
    (scope : Action σ SlotAddress) : (c : spec.type.Call) → Action σ (spec.type.Reply c) :=
  match spec with
  | value _ serializer => ValueCall.perform serializer store scope
  | list _ serializer => ListCall.perform serializer store scope
  | map _ _ keys values => MapCall.perform keys values store scope
  | reducing _ serializer reduce => ReducingCall.perform serializer reduce store scope

/-- A type of namespaces: its schema and how its values are serialized. -/
structure NamespaceType where
  schema : Schema
  serializer : Serializer schema.Val

/-- A named state in use. -/
structure NamedState where
  name : String
  spec : StateSpec Id
  namespaces : NamespaceType
  /-- The serialized current namespace, once one was set. -/
  ns : Option Bytes
  ttl : TtlConfig
  tracker : Tracker
  place : Place

/-- What the layers around a table go by: the reading of the clock, and which samples are
accepted. There is one reading for a typed call. A call that makes several requests, as adding to a
list does, gives it to each of them, so no time passes between them, where a clock that is read for
each request might have moved on. -/
structure Conditions where
  now : UInt64
  accepts : Sample → Bool

/-- What a call on a named state works on: the current key, the table of the state, and its
tracker. -/
structure Workspace (keys : Schema) where
  context : KeyContext keys
  table : Table
  tracker : Tracker

namespace NamedState

variable {keys : Schema}

/-- The type of the state. -/
def type (s : NamedState) : StateType := s.spec.type

/-- The kind of the state. -/
def kind (s : NamedState) : StateKind := s.type.kind

/-- The state has the given type, for namespaces of the given schema. -/
def isOf (s : NamedState) (type : StateType) (nsSchema : Schema) : Bool :=
  s.type == type && s.namespaces.schema == nsSchema

/-- The state that a descriptor describes, without a namespace, if no serializer is open. -/
def create (d : Descriptor) (namespaces : NamespaceType) (ttl : TtlConfig) (tracker : Tracker)
    (place : Place) : Except StateError NamedState :=
  match d.spec.complete? with
  | none => .error (.serializerUninitialized d.name)
  | some spec => .ok ⟨d.name, spec, namespaces, none, ttl, tracker, place⟩

/-- Makes a namespace current. Its schema has to be that of the state. -/
def setNamespace (s : NamedState) (schema : Schema) (ns : schema.Val) :
    Except StateError NamedState :=
  if same : schema = s.namespaces.schema then do
    return { s with ns := some (← s.namespaces.serializer.serialize (same ▸ ns)) }
  else
    .error (.typeMismatch s.name)

/-- The store of the state: its table, behind expiry if that is enabled, behind the tracker. -/
def store (s : NamedState) (c : Conditions) : Store (Table × Tracker) :=
  Tracker.store c.accepts
    (if s.ttl.isEnabled then Ttl.store s.ttl c.now Table.store else Table.store)

/-- The table and the tracker of a workspace. -/
def stored : Part (Workspace keys) (Table × Tracker) where
  get w := (w.table, w.tracker)
  set w part := { w with table := part.1, tracker := part.2 }

/-- The store of the state in a workspace. -/
def workspaceStore (s : NamedState) (c : Conditions) : Store (Workspace keys) :=
  (s.store c).within stored

/-- The key context of a workspace. -/
def contextPart : Part (Workspace keys) (KeyContext keys) where
  get w := w.context
  set w context := { w with context }

/-- The slot of the current key and the current namespace. -/
def scope (s : NamedState) : Action (Workspace keys) SlotAddress := do
  let key ← KeyContext.coordinates.within contextPart
  match s.ns with
  | none => Action.lift (.error (.noNamespace s.name))
  | some ns => return ⟨key.group, key.key, ns⟩

/-- Carries out a call. -/
def call (s : NamedState) (conditions : Conditions) (c : s.type.Call) :
    Action (Workspace keys) (s.type.Reply c) :=
  s.spec.call (s.workspaceStore conditions) s.scope c

/-- Carries out a call for states of the given type. -/
def callAs (s : NamedState) (conditions : Conditions) (type : StateType) (c : type.Call) :
    Action (Workspace keys) (type.Reply c) :=
  if same : s.type = type then
    match type, same, c with
    | _, rfl, c => s.call conditions c
  else
    Action.lift (.error (.typeMismatch s.name))

/-- What an external query for a slot is answered with. -/
def serialized (s : NamedState) (c : Conditions) (slot : SlotAddress) :
    Action (Workspace keys) (Option Bytes) :=
  serializedContent s.kind (s.workspaceStore c) slot

end NamedState

end KeyedState
