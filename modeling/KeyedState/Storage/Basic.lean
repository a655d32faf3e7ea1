import KeyedState.Storage.Heap
import KeyedState.Storage.Scripted

/-!
# Storage

Where the states of a backend are kept. A storage opens a table for a named state,
lists keys, and may be able to write and to read key groups.
-/

namespace KeyedState

/-- The storage behind a backend. -/
inductive Storage where
  | heap (h : HeapStorage)
  | scripted (s : ScriptedStorage)

/-- Where the table of a state is: in the storage under the name of the state, or nowhere but with
the state. -/
inductive Place where
  | shared
  | own (table : Table)

namespace Storage

/-- The name of a storage. -/
def text : Storage → String
  | heap _ => "heap"
  | scripted _ => "scripted"

/-- The number of key sequences that were handed out. A heap hands out copies, which do not count. -/
def handedOut : Storage → Nat
  | heap _ => 0
  | scripted s => s.handedOut

/-- The key sequences that were given back, in order. -/
def givenBack : Storage → List Nat
  | heap _ => []
  | scripted s => s.givenBack

/-- The number of key sequences that were given back. -/
def released (storage : Storage) : Nat := storage.givenBack.length

/-- The table that is kept under a name. -/
def table? : Storage → String → Option Table
  | heap h, name => h.tables[name]?
  | scripted _, _ => none

/-- Replaces the table that is kept under a name. -/
def setTable : Storage → String → Table → Storage
  | heap h, name, table => heap ⟨h.tables.insert name table⟩
  | s@(scripted _), _, _ => s

/-- Opens the table of a named state. -/
def openTable (name : String) (kind : StateKind) : Action Storage Place :=
  .of fun
    | heap h =>
      match h.openTable name kind with
      | .ok h => (.ok .shared, heap h)
      | .error e => (.error e, heap h)
    | scripted s => ((s.openTable name kind).map .own, scripted s)

/-- Hands out the serialized keys that hold something under a name and a namespace. -/
def handOut (name : String) (ns : Bytes) : Action Storage (KeySequence Bytes) :=
  .of fun
    | heap h => (.ok ⟨(h.keys name ns).map .ok, none⟩, heap h)
    | scripted s =>
      let (handed, s) := (ScriptedStorage.handOut name).perform s
      (handed, scripted s)

/-- Takes back the sequence of a number, if it has one. -/
def takeBack : Option Nat → Storage → Storage
  | none, storage => storage
  | some _, heap h => heap h
  | some n, scripted s => scripted (s.takeBack n)

/-- The serialized keys that hold something under a name and a namespace. They are read to the end
of their sequence, which is given back then. -/
def keys (name : String) (ns : Bytes) : Action Storage (List (Except StateError Bytes)) := do
  let handed ← handOut name ns
  modify (takeBack handed.number)
  return handed.items

/-- The stream of a key group. -/
def write (storage : Storage) (g : KeyGroup) : Except StateError Bytes :=
  match storage with
  | heap h => .ok (h.write g)
  | scripted _ => .error (.cannotWriteKeyGroup storage.text g)

/-- Restores a key group from the front of a stream; the rest of the stream is left. -/
def read (g : KeyGroup) (stream : Bytes) : Action Storage Bytes :=
  .of fun
    | heap h =>
      match h.read g stream with
      | .ok (h, rest) => (.ok rest, heap h)
      | .error e => (.error e, heap h)
    | s@(scripted _) => (.error (.cannotReadKeyGroup s.text g), s)

/-- One request to the table of a name, which is opened for it. -/
def request (name : String) (kind : StateKind) (r : Request) : Action Storage r.Reply :=
  .of fun storage =>
    match (openTable name kind).perform storage with
    | (.error e, storage) => (.error e, storage)
    | (.ok (.own table), storage) => ((Table.store.perform r).perform table |>.1, storage)
    | (.ok .shared, storage) =>
      let table := (storage.table? name).getD (.empty kind)
      let (reply, table) := (Table.store.perform r).perform table
      (reply, storage.setTable name table)

end Storage

end KeyedState
