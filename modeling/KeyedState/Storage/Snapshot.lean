import KeyedState.Binary.Codec
import KeyedState.Storage.Table

/-!
# Snapshots of key groups

What a stream of a key group holds: the number of the group and, for each named
state that has slots in it, the name, the kind and the slots. `KeyGroupSnapshot.codec`
is its binary form, which reads back in front of anything.
-/

namespace KeyedState

open Binary (Codec)

/-- The slots of one named state. -/
structure TableSnapshot where
  name : String
  kind : StateKind
  slots : List SlotSnapshot
  deriving DecidableEq, Repr

/-- The contents of a key group. -/
structure KeyGroupSnapshot where
  group : KeyGroup
  tables : List TableSnapshot
  deriving DecidableEq, Repr

namespace StateKind

/-- The number of a kind. -/
def index : StateKind → UInt32
  | .value => 0
  | .list => 1
  | .map => 2
  | .reducing => 3

/-- The kind of a number. -/
def ofIndex? (i : UInt32) : Option StateKind :=
  if i = 0 then some .value
  else if i = 1 then some .list
  else if i = 2 then some .map
  else if i = 3 then some .reducing
  else none

/-- A kind is its number. -/
def codec : Codec StateKind :=
  Codec.u32.partialIso ofIndex? index fun kind => by cases kind <;> rfl

end StateKind

/-- Keys and values of a slot. -/
def entriesCodec : Codec (List (Bytes × Bytes)) := Codec.list (Codec.pair Codec.bytes Codec.bytes)

/-- Key, namespace, value and entries. -/
def SlotSnapshot.codec : Codec SlotSnapshot :=
  (Codec.pair Codec.bytes (Codec.pair Codec.bytes
    (Codec.pair (Codec.option Codec.bytes) entriesCodec))).iso
    (fun (key, ns, value, entries) => ⟨key, ns, value, entries⟩)
    (fun s => (s.key, s.ns, s.value, s.entries))
    fun _ => rfl

/-- Name, kind and slots. -/
def TableSnapshot.codec : Codec TableSnapshot :=
  (Codec.pair Codec.string (Codec.pair StateKind.codec (Codec.list SlotSnapshot.codec))).iso
    (fun (name, kind, slots) => ⟨name, kind, slots⟩)
    (fun t => (t.name, t.kind, t.slots))
    fun _ => rfl

/-- The number of the group, then the tables. -/
def KeyGroupSnapshot.codec : Codec KeyGroupSnapshot :=
  (Codec.pair Codec.u32 (Codec.list TableSnapshot.codec)).iso
    (fun (group, tables) => ⟨group, tables⟩)
    (fun s => (s.group, s.tables))
    fun _ => rfl

end KeyedState
