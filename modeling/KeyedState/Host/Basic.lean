import KeyedState.Backend.Basic
import KeyedState.Metrics

/-!
# Hosts

Several backends beside each other, and what they have in common: storages, a clock,
histories of samples, a registry for queries, resources to be closed, and a log. A
backend is taken out with its collaborators, carries out an action, and is put back
together with what the action did to them.
-/

namespace KeyedState

/-- The number of a storage. -/
abbrev StorageId := Nat

/-- The number of a backend. -/
abbrev BackendId := Nat

/-- Where the samples of a backend go: into the histories of the host, or into its log. -/
inductive Collector where
  | metrics
  | log
  deriving DecidableEq, Repr

/-- Where a backend publishes states for queries: in the registry of the host, or with a service
that is down. -/
inductive Publisher where
  | host
  | down
  deriving DecidableEq, Repr

/-- The collaborators of a backend, by number or by what they do. -/
structure Collaborators where
  storage : StorageId
  collector : Option Collector
  publisher : Option Publisher
  /-- Resources are those of the host and not the backend's own. -/
  sharesCloseables : Bool
  /-- Expiry goes by the wall clock and not by the clock of the host. -/
  usesWallClock : Bool
  deriving DecidableEq, Repr

/-- A backend in its place, with its own resources. -/
structure HostedBackend (keys : Schema) extends BackendCore keys where
  links : Collaborators
  closeables : CloseableRegistry

/-- What stands in the log: a key was announced to a listener while another was current, or a
sample was taken. -/
inductive LogEntry (keys : Schema) where
  | selected (listener : ListenerId) (key : keys.Val) (current : Option keys.Val)
  | sampled (state : String) (sample : Sample)

/-- Backends and what they have in common. Storages, backends, states and listeners are numbered by
their places. -/
structure Host (keys : Schema) where
  clock : UInt64
  wallClock : UInt64
  storages : List Storage
  backends : List (HostedBackend keys)
  states : List NamedState
  /-- The backend in which each state was made. -/
  homes : List BackendId
  /-- The backend whose current key each listener looks at. -/
  listeners : List BackendId
  queries : QueryRegistry StateId
  closeables : CloseableRegistry
  /-- The resources that were closed, whichever registry they were in. -/
  closed : List Resource
  metrics : Metrics
  log : List (LogEntry keys)

namespace Host

variable {keys : Schema} {α : Type}

/-- A host without backends. -/
def of (clock wallClock : UInt64) (history : Nat) : Host keys where
  clock
  wallClock
  storages := []
  backends := []
  states := []
  homes := []
  listeners := []
  queries := .empty
  closeables := .empty
  closed := []
  metrics := .of history
  log := []

/-! ### Taking a backend out and putting it back -/

/-- The storage of a number. -/
def storage (h : Host keys) (id : StorageId) : Except StateError Storage :=
  match h.storages[id]? with
  | some s => .ok s
  | none => .error .unknownStorage

/-- The reading of the clock that a backend goes by. -/
def timeFor (h : Host keys) (links : Collaborators) : UInt64 :=
  if links.usesWallClock then h.wallClock else h.clock

/-- The service with which a backend publishes. -/
def queryService (h : Host keys) (links : Collaborators) : Option (QueryService StateId) :=
  links.publisher.map fun
    | .host => .serving h.queries
    | .down => .down

/-- A backend with its collaborators. -/
def takeOut (h : Host keys) (id : BackendId) : Except StateError (Backend keys) := do
  match h.backends[id]? with
  | none => throw .unknownBackend
  | some b =>
    let storage ← h.storage b.links.storage
    return { b.toBackendCore with
      storage
      queries := h.queryService b.links
      closeables := if b.links.sharesCloseables then h.closeables else b.closeables
      metrics := if b.links.collector = some .metrics then some h.metrics else none
      states := h.states
      now := h.timeFor b.links
      events := [] }

/-- The current key of a backend. -/
def currentKey (h : Host keys) (id : BackendId) : Option keys.Val :=
  h.backends[id]?.bind fun b => b.context.key

/-- The host once a backend has told something. A key is announced before it becomes current, so a
listener to the backend itself still finds the previous one. -/
def note (h : Host keys) (id : BackendId) (links : Collaborators) : Event keys → Host keys
  | .keySelected listener key previous =>
    let current :=
      match h.listeners[listener]? with
      | some home => if home = id then previous else h.currentKey home
      | none => none
    { h with log := h.log ++ [.selected listener key current] }
  | .sampled state sample =>
    if links.collector = some .log then { h with log := h.log ++ [.sampled state sample] } else h

/-- Puts the resources of a backend back; what was closed goes on record. -/
def putCloseables (h : Host keys) (links : Collaborators) (r : CloseableRegistry) :
    Host keys × CloseableRegistry :=
  let rest := { r with closed := [] }
  let h := { h with closed := h.closed ++ r.closed }
  if links.sharesCloseables then ({ h with closeables := rest }, .empty) else (h, rest)

/-- Puts the registry for queries back, if the backend works with it. -/
def putQueries (h : Host keys) : Option (QueryService StateId) → Host keys
  | some (.serving r) => { h with queries := r }
  | _ => h

/-- Puts a backend and its collaborators back, and notes what it has told. -/
def putBack (h : Host keys) (id : BackendId) (links : Collaborators) (b : Backend keys) :
    Host keys :=
  let (h, closeables) := (h.putQueries b.queries).putCloseables links b.closeables
  let added := List.replicate (b.states.length - h.states.length) id
  let h := { h with
    storages := h.storages.set links.storage b.storage
    backends := h.backends.set id { b.toBackendCore with links, closeables }
    metrics := b.metrics.getD h.metrics
    states := b.states
    homes := h.homes ++ added }
  b.events.foldl (fun h event => h.note id links event) h

/-- The collaborators of a backend. -/
def links (h : Host keys) (id : BackendId) : Except StateError Collaborators :=
  match h.backends[id]? with
  | none => .error .unknownBackend
  | some b => .ok b.links

/-- Carries out an action of a backend on it and a value beside it. -/
def onBackendWith {δ : Type} (id : BackendId) (action : Action (Backend keys × δ) α) :
    Action (Host keys × δ) α :=
  .of fun (h, d) =>
    match h.links id, h.takeOut id with
    | .ok links, .ok b =>
      let (outcome, b, d) := action.perform (b, d)
      (outcome, h.putBack id links b, d)
    | .error e, _ | _, .error e => (.error e, h, d)

/-- Carries out an action of a backend. -/
def onBackend (id : BackendId) (action : Action (Backend keys) α) : Action (Host keys) α :=
  .of fun h =>
    match h.links id, h.takeOut id with
    | .ok links, .ok b =>
      let (outcome, b) := action.perform b
      (outcome, h.putBack id links b)
    | .error e, _ | _, .error e => (.error e, h)

end Host

end KeyedState
