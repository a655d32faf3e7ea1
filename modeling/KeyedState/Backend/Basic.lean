import KeyedState.Closeables
import KeyedState.Metrics
import KeyedState.Query
import KeyedState.State.Named

/-!
# Backends

A backend runs one operator of a job. It holds the current key and the named states
that were opened, and works with collaborators: the storage, a query service,
resources to be closed, histories of samples, and listeners. What listeners are told
and which samples were taken is kept as a list of events.
-/

namespace KeyedState

open Std (ExtTreeMap)

/-- The number of a named state among all that were created. -/
abbrev StateId := Nat

/-- The number of a listener. -/
abbrev ListenerId := Nat

/-- The named states of a backend, and the one that was accessed last. -/
structure StateNames where
  states : ExtTreeMap String StateId
  lastAccessed : Option (String × StateId)

namespace StateNames

/-- No states. -/
def empty : StateNames := ⟨∅, none⟩

/-- The state that was accessed last, if it has the given name. -/
def recent? (n : StateNames) (name : String) : Option StateId :=
  match n.lastAccessed with
  | some (last, id) => if last = name then some id else none
  | none => none

/-- Adds a state under a name. -/
def insert (n : StateNames) (name : String) (id : StateId) : StateNames :=
  { n with states := n.states.insert name id }

/-- Makes the state of a name the one that was accessed last. -/
def promote (n : StateNames) (name : String) : StateNames :=
  { n with lastAccessed := n.states[name]?.map (name, ·) }

end StateNames

/-- What listeners are told, and which samples were taken. -/
inductive Event (keys : Schema) where
  /-- A key is about to become current. -/
  | keySelected (listener : ListenerId) (key : keys.Val) (previous : Option keys.Val)
  | sampled (state : String) (sample : Sample)

/-- What a backend has to itself: its settings, whether somebody collects its metrics, the current
key, the listeners in order of registration, and the named states. -/
structure BackendCore (keys : Schema) where
  execution : ExecutionConfig
  latency : SamplingConfig
  size : SamplingConfig
  metered : Bool
  context : KeyContext keys
  listeners : List ListenerId
  names : StateNames

/-- A backend with its collaborators. Samples go into the histories of `metrics`, if there are any.
States are numbered by their place in `states`, `now` is the reading of the clock that expiry goes
by, and the latest event stands last. -/
structure Backend (keys : Schema) extends BackendCore keys where
  storage : Storage
  queries : Option (QueryService StateId)
  closeables : CloseableRegistry
  metrics : Option Metrics
  states : List NamedState
  now : UInt64
  events : List (Event keys)

/-- Checks settings and makes a backend of them that has no key and no states. -/
def BackendCore.build {keys : Schema} (c : BackendConfig)
    (serializer : Option (Serializer keys.Val)) (metered : Bool) :
    Except StateError (BackendCore keys) := do
  if c.groups = 0 then throw .noKeyGroups
  if c.groups < c.range.count then throw (.rangeExceedsKeyGroups c.groups c.range)
  if c.latency.enabled then c.latency.validate .latency
  if c.size.enabled then c.size.validate .size
  if (c.latency.enabled || c.size.enabled) && !metered then throw .metricGroupMissing
  return {
    execution := c.execution
    latency := c.latency
    size := c.size
    metered
    context := .of c.groups c.range serializer
    listeners := []
    names := .empty }

namespace Backend

variable {keys : Schema} {α : Type}

/-- The key groups of the backend. -/
def range (b : Backend keys) : KeyGroupRange := b.context.range

/-- The storage of a backend. -/
def storagePart : Part (Backend keys) Storage where
  get b := b.storage
  set b storage := { b with storage }

/-- The key context of a backend. -/
def contextPart : Part (Backend keys) (KeyContext keys) where
  get b := b.context
  set b context := { b with context }

/-- The resources of a backend. -/
def closeablesPart : Part (Backend keys) CloseableRegistry where
  get b := b.closeables
  set b closeables := { b with closeables }

/-- Tells something. -/
def tell (b : Backend keys) (events : List (Event keys)) : Backend keys :=
  { b with events := b.events ++ events }

/-! ### The current key -/

/-- Tells all listeners that a key is about to become current. -/
def announce (b : Backend keys) (key : keys.Val) : Backend keys :=
  b.tell (b.listeners.map fun l => .keySelected l key b.context.key)

/-- Makes a key current, with the group that it is assigned to. -/
def setKey (b : Backend keys) (key : keys.Val) : Backend keys :=
  { b.announce key with context := b.context.setKey key }

/-- Makes a key of a known group current. -/
def setKeyAndGroup (b : Backend keys) (key : keys.Val) (g : KeyGroup) : Backend keys :=
  { b.announce key with context := b.context.setKeyAndGroup key g }

/-- Changes the current group under the same key. -/
def setGroup (b : Backend keys) (g : KeyGroup) : Backend keys :=
  { b with context := b.context.setGroup g }

/-- The current key, serialized, and its group. -/
def coordinates : Action (Backend keys) KeyCoordinates := KeyContext.coordinates.within contextPart

/-- Registers a listener behind the others. -/
def addListener (b : Backend keys) (l : ListenerId) : Backend keys :=
  { b with listeners := b.listeners ++ [l] }

/-- Drops the first registration of a listener; whether there was one. -/
def removeListener (b : Backend keys) (l : ListenerId) : Bool × Backend keys :=
  (b.listeners.contains l, { b with listeners := b.listeners.erase l })

/-! ### Access to states -/

/-- The table of a state. -/
def tableOf (b : Backend keys) (s : NamedState) : Table :=
  match s.place with
  | .shared => (b.storage.table? s.name).getD (.empty s.kind)
  | .own table => table

/-- Puts a table back in its place, and the state that uses it back under its number. -/
def putBack (b : Backend keys) (id : StateId) (s : NamedState) (table : Table) : Backend keys :=
  match s.place with
  | .shared =>
    { b with storage := b.storage.setTable s.name table, states := b.states.set id s }
  | .own _ => { b with states := b.states.set id { s with place := .own table } }

/-- The state of a number. -/
def state (b : Backend keys) (id : StateId) : Except StateError NamedState :=
  match b.states[id]? with
  | some s => .ok s
  | none => .error .unknownState

/-- What the layers of a state go by. -/
def conditions (b : Backend keys) (s : NamedState) : Conditions where
  now := b.now
  accepts x := b.metrics.all fun m => m.acceptsSample s.name x

/-- Takes samples of a state in. -/
def collect (b : Backend keys) (state : String) (samples : List Sample) : Backend keys :=
  { b.tell (samples.map fun x => .sampled state x) with
    metrics := b.metrics.map fun m => samples.foldl (fun m x => m.recordSample state x) m }

/-- Runs an action on the workspace of a state, and takes its samples in. -/
def onState (id : StateId) (run : NamedState → Action (Workspace keys) α) :
    Action (Backend keys) α :=
  .of fun b =>
    match b.state id with
    | .error e => (.error e, b)
    | .ok s =>
      let (outcome, w) := (run s).perform ⟨b.context, b.tableOf s, s.tracker⟩
      let s := { s with tracker := { w.tracker with samples := [] } }
      let b := { b with context := w.context }
      (outcome, (b.putBack id s w.table).collect s.name w.tracker.samples)

/-- Carries out a call on a state, which has to be of the given type. -/
def call (id : StateId) (type : StateType) (c : type.Call) :
    Action (Backend keys) (type.Reply c) := do
  let b ← get
  onState id fun s => s.callAs (b.conditions s) type c

/-- What an external query for a slot of a state is answered with. -/
def serialized (id : StateId) (slot : SlotAddress) : Action (Backend keys) (Option Bytes) := do
  let b ← get
  onState id fun s => s.serialized (b.conditions s) slot

/-- Makes a namespace the current one of a state. -/
def setNamespace (id : StateId) (schema : Schema) (ns : schema.Val) :
    Action (Backend keys) Unit := do
  let b ← get
  let s ← Action.lift (b.state id)
  let s ← Action.lift (s.setNamespace schema ns)
  set { b with states := b.states.set id s }

end Backend

end KeyedState
