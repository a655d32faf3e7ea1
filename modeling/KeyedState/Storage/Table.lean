import KeyedState.Storage.Store
import Std.Data.ExtTreeMap

/-!
# Tables

A table holds the contents of one named state: key group, key, namespace, slot, in
sorted maps one within the other. Nothing empty is kept at any level, so a key is
listed exactly while it holds something, and equal contents are equal tables.
-/

namespace KeyedState

open Std (ExtTreeMap)

/-- What one key holds in one namespace. -/
structure Slot where
  value : Option Bytes
  entries : ExtTreeMap Bytes Bytes

namespace Slot

/-- The slot that holds nothing. -/
def empty : Slot := ⟨none, ∅⟩

/-- The slot holds nothing. -/
def isEmpty (s : Slot) : Bool := s.value.isNone && s.entries.isEmpty

/-- The slot's own value, or the one under a user key. -/
def get (s : Slot) : Option Bytes → Option Bytes
  | none => s.value
  | some userKey => s.entries[userKey]?

/-- The slot with a value put in. -/
def put (s : Slot) (value : Bytes) : Option Bytes → Slot
  | none => { s with value := some value }
  | some userKey => { s with entries := s.entries.insert userKey value }

/-- The slot with a value taken out. -/
def remove (s : Slot) : Option Bytes → Slot
  | none => { s with value := none }
  | some userKey => { s with entries := s.entries.erase userKey }

end Slot

/-- Slots by namespace. -/
abbrev Namespaces := ExtTreeMap Bytes Slot

/-- What the keys of one group hold. -/
abbrev GroupContents := ExtTreeMap Bytes Namespaces

/-- The contents of one named state. -/
structure Table where
  kind : StateKind
  groups : ExtTreeMap KeyGroup GroupContents

/-- One slot with its key and its namespace, as it is written to a stream. -/
structure SlotSnapshot where
  key : Bytes
  ns : Bytes
  value : Option Bytes
  entries : List (Bytes × Bytes)
  deriving DecidableEq, Repr

/-- The slot of a snapshot; of entries with one user key the last one counts. -/
def SlotSnapshot.slot (s : SlotSnapshot) : Slot := ⟨s.value, ExtTreeMap.ofList s.entries⟩

/-- Changes an inner map, and drops it if nothing is left in it. -/
def alterInner {α β γ : Type} [Ord α] [Std.TransOrd α] [Ord β] [Std.TransOrd β]
    (m : ExtTreeMap α (ExtTreeMap β γ)) (a : α)
    (f : ExtTreeMap β γ → ExtTreeMap β γ) : ExtTreeMap α (ExtTreeMap β γ) :=
  m.alter a fun inner =>
    let inner := f (inner.getD ∅)
    if inner.isEmpty then none else some inner

namespace Table

/-- A table that holds nothing. -/
def empty (kind : StateKind) : Table := ⟨kind, ∅⟩

/-- The contents of a key group. -/
def group (t : Table) (g : KeyGroup) : GroupContents := t.groups.getD g ∅

/-- The slot at an address. -/
def slot (t : Table) (a : SlotAddress) : Slot :=
  (((t.group a.group).getD a.key ∅)[a.ns]?).getD .empty

/-- Changes the slot at an address. -/
def updateSlot (t : Table) (a : SlotAddress) (f : Slot → Slot) : Table :=
  { t with
    groups := alterInner t.groups a.group fun keys =>
      alterInner keys a.key fun namespaces =>
        namespaces.alter a.ns fun slot =>
          let slot := f (slot.getD .empty)
          if slot.isEmpty then none else some slot }

/-- The value at an address. -/
def get (t : Table) (a : Address) : Option Bytes := (t.slot a.slot).get a.userKey

/-- The table with a value put in. -/
def put (t : Table) (a : Address) (value : Bytes) : Table :=
  t.updateSlot a.slot fun s => s.put value a.userKey

/-- The table with a value taken out. -/
def remove (t : Table) (a : Address) : Table := t.updateSlot a.slot fun s => s.remove a.userKey

/-- The entries of a slot by user key. -/
def entries (t : Table) (a : SlotAddress) : List (Bytes × Bytes) := (t.slot a).entries.toList

/-- The table with a slot emptied. -/
def clear (t : Table) (a : SlotAddress) : Table := t.updateSlot a fun _ => .empty

/-- The keys that hold something in a namespace, by key group. -/
def keys (t : Table) (ns : Bytes) : List Bytes :=
  t.groups.toList.flatMap fun (_, keys) =>
    (keys.toList.filter fun (_, namespaces) => namespaces.contains ns).map Prod.fst

/-- How many slots there are. -/
def size (t : Table) : Nat :=
  (t.groups.toList.map fun (_, keys) =>
    (keys.toList.map fun (_, namespaces) => namespaces.size).sum).sum

/-- The table holds nothing. -/
def isEmpty (t : Table) : Bool := t.size == 0

/-- The slots of a key group, by key and namespace. -/
def snapshot (t : Table) (g : KeyGroup) : List SlotSnapshot :=
  (t.group g).toList.flatMap fun (key, namespaces) =>
    namespaces.toList.map fun (ns, slot) => ⟨key, ns, slot.value, slot.entries.toList⟩

/-- The table with a key group emptied. -/
def clearGroup (t : Table) (g : KeyGroup) : Table := { t with groups := t.groups.erase g }

/-- The contents that slots amount to. Empty ones are left out; of two with one key and one
namespace the later counts. -/
def contentsOf (slots : List SlotSnapshot) : GroupContents :=
  slots.foldl
    (fun keys s =>
      if s.slot.isEmpty then keys
      else keys.alter s.key fun namespaces => some ((namespaces.getD ∅).insert s.ns s.slot))
    ∅

/-- The table with the contents of a key group replaced. -/
def restoreGroup (t : Table) (g : KeyGroup) (slots : List SlotSnapshot) : Table :=
  let contents := contentsOf slots
  { t with
    groups := if contents.isEmpty then t.groups.erase g else t.groups.insert g contents }

/-- The store on a table. It refuses nothing. -/
def store : Store Table where
  perform
    | .get a => .of fun t => (.ok (t.get a), t)
    | .put a value => .of fun t => (.ok (), t.put a value)
    | .remove a => .of fun t => (.ok (t.get a), t.remove a)
    | .entries a => .of fun t => (.ok (t.entries a), t)
    | .clear a => .of fun t => (.ok (), t.clear a)

end Table

end KeyedState
