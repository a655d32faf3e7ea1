import KeyedState.Backend.Lifecycle
import KeyedState.Host.Basic

/-!
# Working with a host

Adding storages, backends and listeners, reaching the states of whichever backend,
and answering external queries.
-/

namespace KeyedState.Host

variable {keys : Schema} {α : Type}

/-- Adds a storage. -/
def addStorage (s : Storage) : Action (Host keys) StorageId :=
  .of fun h => (.ok h.storages.length, { h with storages := h.storages ++ [s] })

/-- Carries out an action of a storage. -/
def onStorage (id : StorageId) (action : Action Storage α) : Action (Host keys) α :=
  .of fun h =>
    match h.storage id with
    | .error e => (.error e, h)
    | .ok s =>
      let (outcome, s) := action.perform s
      (outcome, { h with storages := h.storages.set id s })

/-- Builds a backend that works with the given collaborators. -/
def build (c : BackendConfig) (serializer : Option (Serializer keys.Val))
    (links : Collaborators) : Action (Host keys) BackendId := do
  let core ← Action.lift (BackendCore.build c serializer links.collector.isSome)
  let h ← get
  let b : HostedBackend keys := { core with links, closeables := .empty }
  set { h with backends := h.backends ++ [b] }
  return h.backends.length

/-- Adds a listener that looks at the current key of a backend. -/
def addListener (home : BackendId) : Action (Host keys) ListenerId :=
  .of fun h => (.ok h.listeners.length, { h with listeners := h.listeners ++ [home] })

/-- Carries out an action on the backend in which a state was made. -/
def onHomeOf (id : StateId) (action : Action (Backend keys) α) : Action (Host keys) α := do
  match (← get).homes[id]? with
  | none => throw .unknownState
  | some home => onBackend home action

/-- What an external query for a slot is answered with. -/
def lookup (queryName : String) (slot : SlotAddress) : Action (Host keys) (Option Bytes) := do
  let h ← get
  let id ← Action.lift (h.queries.find queryName slot.group)
  onHomeOf id (Backend.serialized id slot)

/-- The log, which is empty afterwards. -/
def takeLog (h : Host keys) : List (LogEntry keys) × Host keys := (h.log, { h with log := [] })

/-- Sets the clock. -/
def setClock (h : Host keys) (time : UInt64) : Host keys := { h with clock := time }

/-- Moves the clock ahead. -/
def advance (h : Host keys) (ms : UInt64) : Host keys := h.setClock (h.clock + ms)

end KeyedState.Host
