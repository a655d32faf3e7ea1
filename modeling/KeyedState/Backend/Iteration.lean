import KeyedState.Backend.States

/-!
# Working through all keys

A function is run for each key that holds something under a name and a namespace.
The keys are those at the start. Each one is made current before its call and stays
current after it. The first failure ends the iteration. The sequence of the keys is in
use until then, and is given back on every path.
-/

namespace KeyedState

/-- Why the function of an iteration fails: a refusal that it passes on, a reason of its own, or a
fault that it did not live to see. -/
inductive FunctionError where
  | refused (cause : StateError)
  | failed (reason : String)
  | abandoned (fault : StateError)
  deriving DecidableEq, Repr

/-- What the iteration reports of it. -/
def FunctionError.toStateError : FunctionError → StateError
  | refused cause => .userFunction cause
  | failed reason => .userFunctionFailed reason
  | abandoned fault => fault

/-- What an iteration has done: what its calls gave, in order, and how it ended. -/
structure Iteration (α : Type) where
  calls : List α
  outcome : Except StateError Unit

/-- The function of an iteration: it is called with a key and the state, and works on the
backend. -/
abbrev KeyFunction (keys : Schema) (α : Type) :=
  keys.Val → StateId → StateM (Backend keys) (α × Except FunctionError Unit)

namespace Backend

variable {keys : Schema} {α : Type}

/-- The serializer of keys, which has to be configured. -/
def keySerializer (b : Backend keys) : Except StateError (Serializer keys.Val) :=
  match b.context.serializer with
  | some serializer => .ok serializer
  | none => .error .keySerializerMissing

/-- Hands out the keys that hold something under a name and a namespace. -/
def sequenceOf (name : String) (namespaces : NamespaceType) (ns : namespaces.schema.Val) :
    Action (Backend keys) (KeySequence keys.Val) := do
  let serializer ← Action.lift (← get).keySerializer
  let bytes ← Action.lift (namespaces.serializer.serialize ns)
  let handed ← (Storage.handOut name bytes).within storagePart
  return handed.bind serializer.deserialize

/-- Gives a sequence of keys back to the storage. -/
def giveBack (handed : KeySequence α) (b : Backend keys) : Backend keys :=
  { b with storage := b.storage.takeBack handed.number }

/-- The keys that hold something under a name and a namespace. They are read to the end of their
sequence, which is given back then. -/
def keysOf (name : String) (namespaces : NamespaceType) (ns : namespaces.schema.Val) :
    Action (Backend keys) (List (Except StateError keys.Val)) := do
  let handed ← sequenceOf name namespaces ns
  modify (giveBack handed)
  return handed.items

/-- Calls the function for each key in turn. What the calls gave so far is kept last first. -/
def visit (f : KeyFunction keys α) (id : StateId) :
    List (Except StateError keys.Val) → List α → StateM (Backend keys) (Iteration α)
  | [], done => return ⟨done.reverse, .ok ()⟩
  | .error e :: _, done => return ⟨done.reverse, .error e⟩
  | .ok key :: rest, done => do
    modify fun b => b.setKey key
    let (a, outcome) ← f key id
    match outcome with
    | .error e => return ⟨(a :: done).reverse, .error e.toStateError⟩
    | .ok () => visit f id rest (a :: done)

/-- Opens the state of a descriptor in a namespace and calls the function for keys. -/
def visitAll (namespaces : NamespaceType) (ns : namespaces.schema.Val) (f : KeyFunction keys α)
    (found : List (Except StateError keys.Val)) :
    StateM (Backend keys × Descriptor) (Iteration α) := do
  match ← (getPartitioned namespaces ns).run with
  | .error e => return ⟨[], .error e⟩
  | .ok id => do
    let (b, d) ← get
    let (iteration, b) := (visit f id found []).run b
    set (b, d)
    return iteration

/-- Runs the function for all keys of the state of a descriptor and a namespace. The keys are
handed out before the state is opened, and given back in the end, however it comes. -/
def applyToAllKeys (namespaces : NamespaceType) (ns : namespaces.schema.Val)
    (f : KeyFunction keys α) : StateM (Backend keys × Descriptor) (Iteration α) := do
  let (_, d) ← get
  match ← ((sequenceOf d.name namespaces ns).within backendPart).run with
  | .error e => return ⟨[], .error e⟩
  | .ok handed => do
    let iteration ← visitAll namespaces ns f handed.items
    modify fun (b, d) => (b.giveBack handed, d)
    return iteration

end Backend

end KeyedState
