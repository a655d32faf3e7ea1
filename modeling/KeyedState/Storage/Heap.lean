import KeyedState.Serializer
import KeyedState.Storage.Snapshot

/-!
# Tables by name

A storage that keeps one table for each named state. A table is opened at one kind
and stays of that kind. A key group is written out of all tables at once, and
restoring one replaces what all tables hold in it; a stream that does not fit
changes nothing.
-/

namespace KeyedState

open Std (ExtTreeMap)

/-- Tables by the names of their states. -/
structure HeapStorage where
  tables : ExtTreeMap String Table

namespace HeapStorage

/-- No tables. -/
def empty : HeapStorage := ⟨∅⟩

/-- The storage in which the table of a name is open; a new table is empty. A table of another
kind is refused. -/
def openTable (h : HeapStorage) (name : String) (kind : StateKind) :
    Except StateError HeapStorage :=
  match h.tables[name]? with
  | none => .ok ⟨h.tables.insert name (.empty kind)⟩
  | some table =>
    if table.kind = kind then .ok h else .error (.reopenedAs name table.kind kind)

/-- The keys that hold something under a name and a namespace. -/
def keys (h : HeapStorage) (name : String) (ns : Bytes) : List Bytes :=
  match h.tables[name]? with
  | none => []
  | some table => table.keys ns

/-- The contents of a key group. States that hold nothing in it are left out. -/
def snapshot (h : HeapStorage) (g : KeyGroup) : KeyGroupSnapshot where
  group := g
  tables := h.tables.toList.filterMap fun (name, table) =>
    let slots := table.snapshot g
    if slots.isEmpty then none else some ⟨name, table.kind, slots⟩

/-- The stream of a key group. -/
def write (h : HeapStorage) (g : KeyGroup) : Bytes := KeyGroupSnapshot.codec.encode (h.snapshot g)

/-- Every table of the snapshot has the kind of the table of its name, if there is one. -/
def checkKinds (h : HeapStorage) : List TableSnapshot → Except StateError Unit
  | [] => .ok ()
  | t :: rest =>
    match h.tables[t.name]? with
    | none => h.checkKinds rest
    | some table =>
      if table.kind = t.kind then h.checkKinds rest
      else .error (.restoredAs t.name table.kind t.kind)

/-- Replaces what the table of one name holds in a key group; a new table takes the kind of the
snapshot. -/
def restoreTable (h : HeapStorage) (g : KeyGroup) (t : TableSnapshot) : HeapStorage :=
  ⟨h.tables.alter t.name fun table =>
    some ((table.getD (.empty t.kind)).restoreGroup g t.slots)⟩

/-- Replaces what all tables hold in the key group of a snapshot. -/
def restore (h : HeapStorage) (s : KeyGroupSnapshot) : HeapStorage :=
  s.tables.foldl (fun h t => h.restoreTable s.group t)
    ⟨h.tables.map fun _ table => table.clearGroup s.group⟩

/-- The storage after a key group was read from the front of a stream, and the rest of the
stream. -/
def read (h : HeapStorage) (g : KeyGroup) (stream : Bytes) :
    Except StateError (HeapStorage × Bytes) := do
  let (snapshot, rest) ← Serializer.orMalformed (KeyGroupSnapshot.codec.decode stream)
  if snapshot.group ≠ g then
    throw (.serialization (.wrongKeyGroup snapshot.group g))
  h.checkKinds snapshot.tables
  return (h.restore snapshot, rest)

end HeapStorage

end KeyedState
