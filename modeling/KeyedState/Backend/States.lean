import KeyedState.Backend.Basic

/-!
# Opening named states

A state is created when its name is first asked for and is the same one from then on,
until the backend is disposed of. Asking for it at another type is refused. A state
that can be queried is published when it is created.

Creating a state works on the backend and on the descriptor, whose open serializers
are set on the way.
-/

namespace KeyedState.Backend

variable {keys : Schema}

/-- The backend beside a descriptor. -/
def backendPart : Part (Backend keys × Descriptor) (Backend keys) where
  get p := p.1
  set p b := (b, p.2)

/-- A state has the type that a descriptor and a schema of namespaces ask for. -/
def checkType (b : Backend keys) (id : StateId) (d : Descriptor) (nsSchema : Schema) :
    Except StateError Unit := do
  let s ← b.state id
  if s.isOf d.type nsSchema then return () else throw (.typeMismatch s.name)

/-- A new state can be made from a descriptor. -/
def checkNew (b : Backend keys) (d : Descriptor) : Except StateError Unit :=
  if d.name.isEmpty then .error .emptyStateName
  else if b.context.serializer.isNone then .error .keySerializerMissing
  else if d.queryable.isSome && d.ttl.isEnabled then .error (.queryableWithTtl d.name)
  else .ok ()

/-- The tracker of a new state. -/
def newTracker (b : Backend keys) : Tracker :=
  if b.metered then .of b.latency b.size else ⟨none, none, []⟩

/-- Registers the capacity of the histories of a family that is tracked. -/
def registerFamily (m : Metrics) (family : Tracked) (c : SamplingConfig) (name : String) :
    Metrics :=
  if c.enabled then m.register family name c.history.toNat else m

/-- Registers the capacities of the histories of a new state. -/
def registerTracking (b : Backend keys) (name : String) : Backend keys :=
  { b with metrics := b.metrics.map fun m =>
      registerFamily (registerFamily m .latency b.latency name) .size b.size name }

/-- Registers a state for queries, if its descriptor asks for that. -/
def publish (d : Descriptor) (id : StateId) (name : String) (kind : StateKind) :
    Action (Backend keys) Unit := do
  match d.queryable with
  | none => return ()
  | some queryName =>
    let b ← get
    match b.queries with
    | none => throw (.queryRegistryMissing d.name)
    | some service =>
      let service ← Action.lift (service.register queryName name kind b.range id)
      set { b with queries := some service }

/-- Registers an existing state for queries, if a descriptor asks for that. -/
def publishState (d : Descriptor) (id : StateId) : Action (Backend keys) Unit := do
  let b ← get
  let s ← Action.lift (b.state id)
  publish d id s.name s.kind

/-- Adds a state under the next number. -/
def addState (b : Backend keys) (s : NamedState) : Backend keys :=
  { b with states := b.states ++ [s] }

/-- Creates the state of a descriptor. It gets the next number once it is published. -/
def createState (namespaces : NamespaceType) : Action (Backend keys × Descriptor) StateId := do
  let (b, d) ← get
  Action.lift (b.checkNew d)
  let d := d.settle b.execution.format
  set (b, d)
  let place ← (Storage.openTable d.name d.kind).within storagePart |>.within backendPart
  modify fun (b, d) => (b.registerTracking d.name, d)
  let s ← Action.lift (NamedState.create d namespaces d.ttl b.newTracker place)
  let id := b.states.length
  (publish d id s.name s.kind).within backendPart
  modify fun (b, d) => (b.addState s, d)
  modify fun (b, d) => ({ b with names := b.names.insert d.name id }, d)
  return id

/-- The state of a descriptor, created if there is none of its name. -/
def getOrCreate (namespaces : NamespaceType) : Action (Backend keys × Descriptor) StateId := do
  let (b, d) ← get
  match b.names.states[d.name]? with
  | some id =>
    Action.lift (b.checkType id d namespaces.schema)
    return id
  | none => createState namespaces

/-- The state of a descriptor with a namespace made current. The state that was accessed last is
found without looking at the others. -/
def getPartitioned (namespaces : NamespaceType) (ns : namespaces.schema.Val) :
    Action (Backend keys × Descriptor) StateId := do
  let (b, d) ← get
  match b.names.recent? d.name with
  | some id =>
    Action.lift (b.checkType id d namespaces.schema)
    (setNamespace id namespaces.schema ns).within backendPart
    return id
  | none =>
    let id ← getOrCreate namespaces
    modify fun (b, d) => ({ b with names := b.names.promote d.name }, d)
    (setNamespace id namespaces.schema ns).within backendPart
    return id

/-- A state of a descriptor over a table of its own, apart from the storage and from all names,
without expiry and tracking. -/
def createDetached (d : Descriptor) (namespaces : NamespaceType) :
    Action (Backend keys) StateId := do
  let b ← get
  let s ← Action.lift
    (NamedState.create d namespaces .initial ⟨none, none, []⟩ (.own (.empty d.kind)))
  set (b.addState s)
  return b.states.length

/-- What is stored for a key and a namespace under a name for queries. -/
def lookup (queryName : String) (slot : SlotAddress) : Action (Backend keys) (Option Bytes) := do
  match (← get).queries with
  | some (.serving r) => serialized (← Action.lift (r.find queryName slot.group)) slot
  | _ => throw (.unknownQuery queryName)

end KeyedState.Backend
