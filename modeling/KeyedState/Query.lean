import KeyedState.Storage.Store
import Std.Data.ExtTreeMap

/-!
# Queryable states

A registry under whose names states can be looked up from outside, each for the key
groups that its backend serves. How a state is referred to is left open; the registry
only finds it.
-/

namespace KeyedState

open Std (ExtTreeMap)

/-- A state that can be queried, and the key groups it is served for. -/
structure Registration (ρ : Type) where
  range : KeyGroupRange
  state : ρ

/-- Registrations by name. -/
structure QueryRegistry (ρ : Type) where
  registrations : ExtTreeMap String (Registration ρ)

namespace QueryRegistry

variable {ρ : Type}

/-- Nothing is registered. -/
def empty : QueryRegistry ρ := ⟨∅⟩

/-- Registers a state. A name that is taken is refused. -/
def register (r : QueryRegistry ρ) (name : String) (range : KeyGroupRange) (state : ρ) :
    Except StateError (QueryRegistry ρ) :=
  if r.registrations.contains name then .error (.queryNameTaken name)
  else .ok ⟨r.registrations.insert name ⟨range, state⟩⟩

/-- The state registered under a name, if it is served for the key group. -/
def find (r : QueryRegistry ρ) (name : String) (g : KeyGroup) : Except StateError ρ :=
  match r.registrations[name]? with
  | none => .error (.unknownQuery name)
  | some found =>
    if found.range.contains g then .ok found.state
    else .error (.unservedKeyGroup g name found.range)

/-- The names, in order. -/
def names (r : QueryRegistry ρ) : List String := r.registrations.keys

/-- A name is taken. -/
def isRegistered (r : QueryRegistry ρ) (name : String) : Bool := r.registrations.contains name

end QueryRegistry

/-- A state with fixed contents. -/
structure FixedState where
  rows : List (SlotAddress × Bytes)
  deriving Repr

/-- The value of the first row for a slot. -/
def FixedState.lookup (s : FixedState) (slot : SlotAddress) : Option Bytes :=
  (s.rows.find? fun row => row.1 == slot).map Prod.snd

/-- A service that registers states: it keeps a registry, or is down and refuses everything. -/
inductive QueryService (ρ : Type) where
  | serving (r : QueryRegistry ρ)
  | down

namespace QueryService

variable {ρ : Type}

/-- Registers a state that has the given name and kind under a name for queries. -/
def register (s : QueryService ρ) (queryName stateName : String) (kind : StateKind)
    (range : KeyGroupRange) (state : ρ) : Except StateError (QueryService ρ) :=
  match s with
  | serving r => (r.register queryName range state).map serving
  | down => .error (.failed
      s!"registry is down: {queryName} {stateName} {kind.text} {range.text}")

/-- Drops all registrations; a service that is down stays as it is. -/
def unregisterAll : QueryService ρ → QueryService ρ
  | serving _ => serving .empty
  | down => down

end QueryService

end KeyedState
