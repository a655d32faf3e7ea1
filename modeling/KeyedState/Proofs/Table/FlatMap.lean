import KeyedState.Proofs.Table.Groups
import KeyedState.Proofs.Table.Levels
import KeyedState.Proofs.Table.Listings
import Mathlib.Data.Set.Card

/-!
# Tables as flat maps

The reference for a table is one flat map from addresses to byte strings, and what each
operation does to it and is answered with (`FlatMap.after`, `FlatMap.Answers`). A table
represents a flat map if it is pruned and has the same values (`Table.Represents`). Each
operation keeps this (`Represents.perform`) and is answered as the flat map says
(`Represents.answers`), so a table does after any operations what a flat map does
(`table_refines_flat_map`).
-/

namespace KeyedState

open Std (ExtTreeMap)

/-! ## Operations on a table -/

/-- A request to a table, or a change of a whole key group. -/
inductive TableOperation where
  | request (r : Request)
  | restoreGroup (g : KeyGroup) (slots : List SlotSnapshot)
  | clearGroup (g : KeyGroup)

namespace TableOperation

/-- What an operation is answered with. -/
abbrev Reply : TableOperation → Type
  | request r => r.Reply
  | restoreGroup _ _ => Unit
  | clearGroup _ => Unit

/-- The operation on a table. -/
def perform : (o : TableOperation) → Action Table o.Reply
  | request r => Table.store.perform r
  | restoreGroup g slots => .of fun t => (.ok (), t.restoreGroup g slots)
  | clearGroup g => .of fun t => (.ok (), t.clearGroup g)

/-- The operation level by level. -/
def performInPlace : (o : TableOperation) → Table → o.Reply × Table
  | request (.get a), t => (t.get a, t)
  | request (.put a value), t => ((), t.putInPlace a value)
  | request (.remove a), t => t.removeInPlace a
  | request (.entries s), t => (t.entries s, t)
  | request (.clear s), t => ((), t.clearInPlace s)
  | restoreGroup g slots, t => ((), t.restoreGroup g slots)
  | clearGroup g, t => ((), t.clearGroup g)

/-- The table after some operations. -/
def run (t : Table) (ops : List TableOperation) : Table :=
  ops.foldl (fun t o => (o.perform.perform t).2) t

/-- On a pruned table an operation is not refused, and does the same level by level. -/
theorem perform_eq {t : Table} (pruned : t.Pruned) (o : TableOperation) :
    o.perform.perform t = (.ok (o.performInPlace t).1, (o.performInPlace t).2) := by
  cases o with
  | request r =>
    cases r with
    | get a => rfl
    | put a value =>
      simp only [performInPlace, Table.putInPlace_eq]
      rfl
    | remove a =>
      simp only [performInPlace, Table.removeInPlace_eq pruned]
      rfl
    | entries s => rfl
    | clear s =>
      simp only [performInPlace, Table.clearInPlace_eq pruned]
      rfl
  | restoreGroup g slots => rfl
  | clearGroup g => rfl

end TableOperation

/-! ## The reference -/

/-- The last slot listed for a key and a namespace that holds something. -/
def lastSlot (slots : List SlotSnapshot) (key ns : Bytes) : Option SlotSnapshot :=
  slots.reverse.find? fun s =>
    s.key == key && s.ns == ns && (s.value.isSome || !s.entries.isEmpty)

/-- The last entry listed for a user key. -/
def lastEntry (entries : List (Bytes × Bytes)) (userKey : Bytes) : Option Bytes :=
  (entries.reverse.find? fun e => e.1 == userKey).map Prod.snd

/-- The value or the entry of a slot that is listed. -/
def SlotSnapshot.listed (s : SlotSnapshot) : Option Bytes → Option Bytes
  | none => s.value
  | some userKey => lastEntry s.entries userKey

/-- A flat map: a key group, a key, a namespace and maybe a user key have a byte string. -/
abbrev FlatMap := Address → Option Bytes

namespace FlatMap

/-- The flat map that has nothing. -/
def empty : FlatMap := fun _ => none

/-- The flat map after an operation. -/
def after (m : FlatMap) : TableOperation → FlatMap
  | .request (.get _) => m
  | .request (.put a value) => Function.update m a (some value)
  | .request (.remove a) => Function.update m a none
  | .request (.entries _) => m
  | .request (.clear s) => fun a => if a.slot = s then none else m a
  | .restoreGroup g slots => fun a =>
    if a.slot.group = g then
      (lastSlot slots a.slot.key a.slot.ns).bind fun s => s.listed a.userKey
    else m a
  | .clearGroup g => fun a => if a.slot.group = g then none else m a

/-- The flat map after some operations. -/
def run (m : FlatMap) (ops : List TableOperation) : FlatMap := ops.foldl after m

/-- What an operation may be answered with. Entries come in ascending order of user keys. -/
def Answers (m : FlatMap) : (o : TableOperation) → o.Reply → Prop
  | .request (.get a), reply => reply = m a
  | .request (.put _ _), _ => True
  | .request (.remove a), reply => reply = m a
  | .request (.entries s), reply =>
    reply.Pairwise (fun x y : Bytes × Bytes => compare x.1 y.1 = .lt) ∧
      ∀ userKey value, (userKey, value) ∈ reply ↔ m (s.entry userKey) = some value
  | .request (.clear _), _ => True
  | .restoreGroup _ _, _ => True
  | .clearGroup _, _ => True

/-- A key in a key group has a value or an entry in a namespace. -/
def Live (m : FlatMap) (s : SlotAddress) : Prop := ∃ userKey, m ⟨s, userKey⟩ ≠ none

/-- Only one answer is the right one. -/
theorem Answers.unique {m : FlatMap} {o : TableOperation} {reply reply' : o.Reply}
    (h : m.Answers o reply) (h' : m.Answers o reply') : reply = reply' := by
  cases o with
  | request r =>
    cases r with
    | get a => exact Eq.trans h (Eq.symm h')
    | put a value => rfl
    | remove a => exact Eq.trans h (Eq.symm h')
    | entries s =>
      -- listings in one order with the same entries
      refine eq_of_ascending Table.entries_asymm h.1 h'.1 ?_
      rintro ⟨userKey, value⟩
      exact (h.2 userKey value).trans (h'.2 userKey value).symm
    | clear s => rfl
  | restoreGroup g slots => rfl
  | clearGroup g => rfl

end FlatMap

/-! ## Slots that are restored -/

/-- Of several values listed for a key the last one counts. -/
theorem getElem?_foldl_insert (l : List (Bytes × Bytes)) (m : ExtTreeMap Bytes Bytes)
    (k : Bytes) :
    (l.foldl (fun m e => m.insert e.1 e.2) m)[k]? = (lastEntry l k).or m[k]? := by
  induction l generalizing m with
  | nil => simp [lastEntry]
  | cons e rest ih =>
    rw [List.foldl_cons, ih, lastEntry, lastEntry, List.reverse_cons, List.find?_append]
    cases rest.reverse.find? (fun e => e.1 == k) with
    | some later => rfl
    | none =>
      rw [ExtTreeMap.getElem?_insert]
      by_cases same : e.1 = k
      · simp [same]
      · simp [same]

namespace SlotSnapshot

/-- What is got from a slot that is made from a listed one. -/
theorem get_slot (s : SlotSnapshot) (userKey : Option Bytes) :
    s.slot.get userKey = s.listed userKey := by
  cases userKey with
  | none => rfl
  | some k =>
    show (ExtTreeMap.ofList s.entries)[k]? = lastEntry s.entries k
    rw [ExtTreeMap.ofList_eq_foldl, getElem?_foldl_insert]
    simp

/-- A slot that is made from a listed one holds something if something is listed. -/
theorem isEmpty_slot (s : SlotSnapshot) :
    s.slot.isEmpty = !(s.value.isSome || !s.entries.isEmpty) := by
  have entries : (ExtTreeMap.ofList s.entries : ExtTreeMap Bytes Bytes).isEmpty
      = s.entries.isEmpty := by
    rw [Bool.eq_iff_iff, ExtTreeMap.isEmpty_iff, ExtTreeMap.ofList_eq_empty_iff,
      List.isEmpty_iff]
  rw [slot, Slot.isEmpty, entries]
  cases s.value <;> simp

/-- The slot that counts is the last one that holds something. -/
theorem find?_countsFor (slots : List SlotSnapshot) (key ns : Bytes) :
    slots.reverse.find? (·.countsFor key ns) = lastSlot slots key ns := by
  rw [lastSlot]
  congr 1
  funext s
  rw [countsFor, isEmpty_slot, Bool.not_not, Bool.and_assoc, Bool.and_comm]

end SlotSnapshot

namespace Table

variable {t : Table} {m : FlatMap}

/-- The values after a key group was restored. -/
theorem get_restoreGroup (t : Table) (g : KeyGroup) (slots : List SlotSnapshot) (a : Address) :
    (t.restoreGroup g slots).get a =
      if a.slot.group = g then
        (lastSlot slots a.slot.key a.slot.ns).bind fun s => s.listed a.userKey
      else t.get a := by
  rw [get, slot_eq, group_restoreGroup]
  by_cases same : a.slot.group = g
  · rw [if_pos same, if_pos same, slot_contentsOf, SlotSnapshot.find?_countsFor]
    cases lastSlot slots a.slot.key a.slot.ns with
    | none => exact Slot.get_empty a.userKey
    | some s => exact s.get_slot a.userKey
  · rw [if_neg same, if_neg same, get, slot_eq]

/-- The values after a key group was emptied. -/
theorem get_clearGroup (t : Table) (g : KeyGroup) (a : Address) :
    (t.clearGroup g).get a = if a.slot.group = g then none else t.get a := by
  rw [get, slot_eq, group_clearGroup]
  by_cases same : a.slot.group = g
  · rw [if_pos same, if_pos same, GroupContents.slot_empty, Slot.get_empty]
  · rw [if_neg same, if_neg same, get, slot_eq]

/-! ## Tables and flat maps -/

/-- The table has the values of the flat map, and keeps nothing empty. -/
structure Represents (t : Table) (m : FlatMap) : Prop where
  pruned : t.Pruned
  get_eq : ∀ a, t.get a = m a

namespace Represents

theorem empty (kind : StateKind) : (Table.empty kind).Represents .empty where
  pruned := pruned_empty kind
  get_eq a := by rw [get, slot_empty, Slot.get_empty, FlatMap.empty]

/-- **One operation does to the table what it does to the flat map.** -/
theorem perform (h : t.Represents m) (o : TableOperation) :
    (o.perform.perform t).2.Represents (m.after o) := by
  cases o with
  | request r =>
    constructor
    · exact h.pruned.perform r
    intro b
    cases r with
    | get a => exact h.get_eq b
    | put a value =>
      show (t.put a value).get b = Function.update m a (some value) b
      rw [get_put, h.get_eq, Function.update_apply]
    | remove a =>
      show (t.remove a).get b = Function.update m a none b
      rw [get_remove, h.get_eq, Function.update_apply]
    | entries s => exact h.get_eq b
    | clear s =>
      show (t.clear s).get b = if b.slot = s then none else m b
      rw [get_clear, h.get_eq]
  | restoreGroup g slots =>
    constructor
    · exact h.pruned.restoreGroup g slots
    · intro b
      show (t.restoreGroup g slots).get b = _
      rw [get_restoreGroup, h.get_eq, FlatMap.after]
  | clearGroup g =>
    constructor
    · exact h.pruned.clearGroup g
    · intro b
      show (t.clearGroup g).get b = _
      rw [get_clearGroup, h.get_eq, FlatMap.after]

/-- Operations one after the other do to the table what they do to the flat map. -/
theorem run (h : t.Represents m) (ops : List TableOperation) :
    (TableOperation.run t ops).Represents (m.run ops) := by
  induction ops generalizing t m with
  | nil => exact h
  | cons o rest ih => exact ih (h.perform o)

/-- **An operation is answered as the flat map says.** -/
theorem answers (h : t.Represents m) (o : TableOperation) :
    ∃ reply, (o.perform.perform t).1 = .ok reply ∧ m.Answers o reply := by
  cases o with
  | request r =>
    cases r with
    | get a => exact ⟨t.get a, rfl, h.get_eq a⟩
    | put a value => exact ⟨(), rfl, trivial⟩
    | remove a => exact ⟨t.get a, rfl, h.get_eq a⟩
    | entries s =>
      refine ⟨t.entries s, rfl, t.pairwise_entries s, ?_⟩
      intro userKey value
      rw [mem_entries, h.get_eq]
    | clear s => exact ⟨(), rfl, trivial⟩
  | restoreGroup g slots => exact ⟨(), rfl, trivial⟩
  | clearGroup g => exact ⟨(), rfl, trivial⟩

/-- The slots that hold something are those with a value or an entry in the flat map. -/
theorem slot_ne_empty_iff (h : t.Represents m) (s : SlotAddress) :
    t.slot s ≠ .empty ↔ m.Live s := by
  simp only [Slot.ne_empty_iff, FlatMap.Live, ← h.get_eq, get, Option.ne_none_iff_exists']

/-- The flat map has something at finitely many addresses only. -/
theorem finite (h : t.Represents m) : {a | m a ≠ none}.Finite := by
  -- an address with something is in a slot that is kept, and there it is the value or an entry
  let listed := t.addresses.flatMap fun s => s.whole :: (t.entries s).map fun e => s.entry e.1
  apply (List.finite_toSet listed).subset
  rintro ⟨s, userKey⟩ there
  have live : t.slot s ≠ .empty := (h.slot_ne_empty_iff s).2 ⟨userKey, there⟩
  refine List.mem_flatMap.2 ⟨s, h.pruned.mem_addresses.2 live, ?_⟩
  cases userKey with
  | none => exact List.mem_cons_self
  | some k =>
    obtain ⟨value, hvalue⟩ := Option.ne_none_iff_exists'.1 there
    apply List.mem_cons_of_mem
    exact List.mem_map.2 ⟨(k, value), t.mem_entries.2 ((h.get_eq _).trans hvalue), rfl⟩

/-- The size is the number of slots with a value or an entry in the flat map. -/
theorem size_eq (h : t.Represents m) : t.size = {s | m.Live s}.ncard := by
  have live : {s | m.Live s} = (t.addresses.toFinset : Set SlotAddress) := by
    ext s
    rw [Set.mem_ofPred_eq, ← h.slot_ne_empty_iff, Finset.mem_coe, List.mem_toFinset,
      h.pruned.mem_addresses]
  rw [live, Set.ncard_coe_finset, List.toFinset_card_of_nodup t.nodup_addresses,
    length_addresses]

end Represents

end Table

/-- **A table is a flat map.** After any operations on a table that was empty, nothing empty is
kept at any level. Every operation is then answered, with what the flat map says and with
nothing else, and does the same level by level. The keys of a namespace are the keys of the pairs
of a key group and a key that have something there, each pair once, in the order of key groups
and then of bytes. The size is the number of addresses that have something. -/
theorem table_refines_flat_map (kind : StateKind) (ops : List TableOperation) :
    let t := TableOperation.run (.empty kind) ops
    let m := FlatMap.run .empty ops
    t.Pruned ∧
    (∀ o : TableOperation,
      o.perform.perform t = (.ok (o.performInPlace t).1, (o.performInPlace t).2) ∧
      ∀ reply, m.Answers o reply ↔ reply = (o.performInPlace t).1) ∧
    (∀ ns, ∃ pairs : List (KeyGroup × Bytes),
      pairs.Pairwise Precedes ∧
      (∀ g key, (g, key) ∈ pairs ↔ m.Live ⟨g, key, ns⟩) ∧
      t.keys ns = pairs.map Prod.snd) ∧
    {a | m a ≠ none}.Finite ∧
    t.size = {s | m.Live s}.ncard := by
  intro t m
  have represents : t.Represents m := (Table.Represents.empty kind).run ops
  refine ⟨represents.pruned, ?_, ?_, represents.finite, represents.size_eq⟩
  · intro o
    have performed := o.perform_eq represents.pruned
    obtain ⟨answer, outcome, right⟩ := represents.answers o
    rw [performed] at outcome
    obtain rfl := Except.ok.inj outcome
    refine ⟨performed, fun reply => ⟨fun h => h.unique right, ?_⟩⟩
    rintro rfl
    exact right
  · intro ns
    refine ⟨t.holders ns, t.pairwise_holders ns, ?_, t.keys_eq ns⟩
    intro g key
    rw [represents.pruned.mem_holders, represents.slot_ne_empty_iff]

end KeyedState
