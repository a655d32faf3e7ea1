import KeyedState.Proofs.Table.Slots

/-!
# Key groups of a table

A key group is written as the list of its slots and restored from such a list. The
list tells the group (`contentsOf_eq`): restored from a list with the same members, in
whatever order, a pruned group comes back. Of several slots listed for a key and a
namespace the last one that is not empty counts (`slot_contentsOf`). Restoring or
emptying one group leaves the others alone (`group_restoreGroup`, `group_clearGroup`).
-/

namespace KeyedState

open Std (ExtTreeMap)

/-- A map comes back from the list of its entries. -/
theorem ofList_toList {α β : Type} [Ord α] [Std.TransOrd α] [Std.LawfulEqOrd α] [BEq α]
    [Std.LawfulBEqOrd α] (m : ExtTreeMap α β) : ExtTreeMap.ofList m.toList = m := by
  apply ExtTreeMap.ext_getElem?
  intro k
  cases h : m[k]? with
  | some v =>
    exact ExtTreeMap.getElem?_ofList_of_mem Std.ReflCmp.compare_self
      ExtTreeMap.distinct_keys_toList (ExtTreeMap.mem_toList_iff_getElem?_eq_some.2 h)
  | none =>
    refine ExtTreeMap.getElem?_ofList_of_contains_eq_false ?_
    rw [ExtTreeMap.map_fst_toList_eq_keys, ExtTreeMap.contains_keys]
    rw [← ExtTreeMap.isSome_getElem?_eq_contains, h]
    rfl

/-! ## Slots as they are written -/

namespace SlotSnapshot

/-- A slot with its key and its namespace. -/
def ofSlot (key ns : Bytes) (s : Slot) : SlotSnapshot := ⟨key, ns, s.value, s.entries.toList⟩

/-- The slot that was written. -/
@[simp] theorem slot_ofSlot (key ns : Bytes) (s : Slot) : (ofSlot key ns s).slot = s := by
  simp [ofSlot, slot, ofList_toList]

/-- The slot counts for a key and a namespace. -/
def countsFor (key ns : Bytes) (s : SlotSnapshot) : Bool :=
  !s.slot.isEmpty && s.key == key && s.ns == ns

end SlotSnapshot

namespace GroupContents

/-- The slots by key and namespace. -/
def snapshot (cs : GroupContents) : List SlotSnapshot :=
  cs.toList.flatMap fun (key, namespaces) =>
    namespaces.toList.map fun (ns, slot) => .ofSlot key ns slot

/-- The list holds exactly the slots that are kept. -/
theorem mem_snapshot {cs : GroupContents} {s : SlotSnapshot} :
    s ∈ cs.snapshot ↔
      ∃ m slot, cs[s.key]? = some m ∧ m[s.ns]? = some slot ∧ s = .ofSlot s.key s.ns slot := by
  simp only [snapshot, List.mem_flatMap, List.mem_map, Prod.exists,
    ExtTreeMap.mem_toList_iff_getElem?_eq_some]
  constructor
  · rintro ⟨key, m, hm, ns, slot, hs, rfl⟩
    exact ⟨m, slot, hm, hs, rfl⟩
  · rintro ⟨m, slot, hm, hs, e⟩
    exact ⟨s.key, m, hm, s.ns, slot, hs, e.symm⟩

/-- A listed slot is the one that is kept. -/
theorem slot_of_mem_snapshot {cs : GroupContents} {s : SlotSnapshot} (h : s ∈ cs.snapshot) :
    s.slot = cs.slot s.key s.ns := by
  obtain ⟨m, slot, hm, hs, e⟩ := mem_snapshot.1 h
  rw [e, SlotSnapshot.slot_ofSlot]
  exact (slot_eq_of_getElem? hm hs).symm

/-- A slot that is not empty is listed. -/
theorem mem_snapshot_of_slot_ne {cs : GroupContents} {key ns : Bytes}
    (h : cs.slot key ns ≠ .empty) : .ofSlot key ns (cs.slot key ns) ∈ cs.snapshot := by
  cases hm : cs[key]? with
  | none => exact absurd (slot_of_getElem?_none hm) h
  | some m =>
    cases hs : m[ns]? with
    | none => exact absurd (by simp [slot_of_getElem? hm, hs]) h
    | some slot =>
      rw [slot_eq_of_getElem? hm hs]
      exact mem_snapshot.2 ⟨m, slot, hm, hs, rfl⟩

/-- A pruned group without listed slots is empty, and the other way round. -/
theorem Pruned.snapshot_eq_nil_iff {cs : GroupContents} (h : cs.Pruned) :
    cs.snapshot = [] ↔ cs = ∅ := by
  constructor
  · intro none_listed
    apply h.ext pruned_empty
    intro key ns
    by_contra ne
    rw [GroupContents.slot_empty] at ne
    have := mem_snapshot_of_slot_ne ne
    rw [none_listed] at this
    cases this
  · rintro rfl
    rfl

/-! ## Contents from a list of slots -/

/-- The contents with one more slot, if it holds anything. -/
def add (cs : GroupContents) (s : SlotSnapshot) : GroupContents :=
  if s.slot.isEmpty then cs
  else cs.alter s.key fun namespaces => some ((namespaces.getD ∅).insert s.ns s.slot)

/-- The namespaces of the keys after a slot was added that holds something. -/
theorem getElem?_add (cs : GroupContents) {s : SlotSnapshot} (nonempty : s.slot.isEmpty = false)
    (key : Bytes) :
    (cs.add s)[key]? =
      if s.key = key then some ((cs[s.key]?.getD ∅).insert s.ns s.slot) else cs[key]? := by
  rw [add, if_neg (by simp [nonempty]), ExtTreeMap.getElem?_alter]
  simp only [Std.LawfulEqOrd.compare_eq_iff_eq]

/-- A slot that counts replaces the one before it. -/
theorem slot_add (cs : GroupContents) (s : SlotSnapshot) (key ns : Bytes) :
    (cs.add s).slot key ns = if s.countsFor key ns then s.slot else cs.slot key ns := by
  cases empty : s.slot.isEmpty with
  | true => simp [add, SlotSnapshot.countsFor, empty]
  | false =>
    simp only [SlotSnapshot.countsFor, empty, slot, ExtTreeMap.getD_eq_getD_getElem?,
      getElem?_add cs empty]
    by_cases hkey : s.key = key
    · subst hkey
      by_cases hns : s.ns = ns
      · simp [hns]
      · simp [hns, ExtTreeMap.getElem?_insert]
    · simp [hkey]

/-- One more slot keeps a key group pruned. -/
theorem Pruned.add {cs : GroupContents} (h : cs.Pruned) (s : SlotSnapshot) : (cs.add s).Pruned := by
  cases empty : s.slot.isEmpty with
  | true => simpa [GroupContents.add, empty] using h
  | false =>
    constructor
    · intro key m hm
      rw [getElem?_add cs empty] at hm
      split at hm
      · exact Option.some.inj hm ▸ ExtTreeMap.insert_ne_empty
      · exact h.namespaces hm
    · intro key m hm ns slot hs
      rw [getElem?_add cs empty] at hm
      split at hm
      · rw [← Option.some.inj hm, ExtTreeMap.getElem?_insert] at hs
        -- the new slot holds something, and the others were there before
        split at hs
        · intro e
          rw [Slot.isEmpty_iff.2 (Option.some.inj hs |>.trans e)] at empty
          cases empty
        · cases hold : cs[s.key]? with
          | none => simp [hold] at hs
          | some m =>
            rw [hold] at hs
            exact h.slots hold hs
      · exact h.slots hm hs

end GroupContents

namespace Table

open GroupContents

/-- The slots of a list count from the last one to the first, and then the contents before. -/
theorem slot_foldl_add (slots : List SlotSnapshot) (cs : GroupContents) (key ns : Bytes) :
    (slots.foldl GroupContents.add cs).slot key ns =
      ((slots.reverse.find? (·.countsFor key ns)).map SlotSnapshot.slot).getD
        (cs.slot key ns) := by
  induction slots generalizing cs with
  | nil => rfl
  -- of the slots that count the one listed last decides
  | cons s rest ih =>
    rw [List.foldl_cons, ih, slot_add, List.reverse_cons, List.find?_append]
    cases rest.reverse.find? (·.countsFor key ns) with
    | some later => rfl
    | none => by_cases h : s.countsFor key ns = true <;> simp [h]

/-- Of the slots listed for a key and a namespace the last one that is not empty counts. -/
theorem slot_contentsOf (slots : List SlotSnapshot) (key ns : Bytes) :
    (contentsOf slots).slot key ns =
      ((slots.reverse.find? (·.countsFor key ns)).map SlotSnapshot.slot).getD .empty := by
  rw [← GroupContents.slot_empty key ns]
  exact slot_foldl_add slots ∅ key ns

theorem pruned_foldl_add (slots : List SlotSnapshot) {cs : GroupContents} (h : cs.Pruned) :
    (slots.foldl GroupContents.add cs).Pruned := by
  induction slots generalizing cs with
  | nil => exact h
  | cons s rest ih => exact ih (h.add s)

/-- Contents made from a list keep nothing empty. -/
theorem pruned_contentsOf (slots : List SlotSnapshot) : (contentsOf slots).Pruned :=
  pruned_foldl_add slots GroupContents.pruned_empty

/-- A pruned key group comes back from any list with the same slots. -/
theorem contentsOf_eq {cs : GroupContents} (h : cs.Pruned) {slots : List SlotSnapshot}
    (same : ∀ s, s ∈ slots ↔ s ∈ cs.snapshot) : contentsOf slots = cs := by
  apply (pruned_contentsOf slots).ext h
  intro key ns
  rw [slot_contentsOf]
  -- the slot that counts is a listed one; where none counts, none was kept
  cases hfind : slots.reverse.find? (·.countsFor key ns) with
  | some s =>
    have counts := List.find?_some hfind
    have listed := List.mem_reverse.1 (List.mem_of_find?_eq_some hfind)
    simp only [SlotSnapshot.countsFor, Bool.and_eq_true, beq_iff_eq] at counts
    obtain ⟨⟨-, rfl⟩, rfl⟩ := counts
    exact slot_of_mem_snapshot ((same s).1 listed)
  | none =>
    by_contra ne
    have kept : cs.slot key ns ≠ .empty := Ne.symm ne
    have listed := mem_snapshot_of_slot_ne kept
    have uncounted := List.find?_eq_none.1 hfind _ (List.mem_reverse.2 ((same _).2 listed))
    apply uncounted
    have nonempty : (cs.slot key ns).isEmpty = false :=
      Bool.eq_false_iff.2 fun e => ne (Slot.isEmpty_iff.1 e).symm
    simp only [SlotSnapshot.countsFor, SlotSnapshot.slot_ofSlot, nonempty, Bool.not_false,
      Bool.true_and, Bool.and_eq_true, beq_iff_eq]
    exact ⟨rfl, rfl⟩

/-! ## Restoring and emptying -/

/-- The slots of a key group of a table. -/
theorem snapshot_eq (t : Table) (g : KeyGroup) : t.snapshot g = (t.group g).snapshot := rfl

/-- Restoring a key group replaces it and no other. -/
theorem group_restoreGroup (t : Table) (g g' : KeyGroup) (slots : List SlotSnapshot) :
    (t.restoreGroup g slots).group g' = if g' = g then contentsOf slots else t.group g' := by
  simp only [restoreGroup, group, ExtTreeMap.getD_eq_getD_getElem?]
  split
  · next empty =>
    rw [ExtTreeMap.getElem?_erase, ExtTreeMap.isEmpty_iff.1 empty]
    by_cases h : g' = g
    · simp [h]
    · simp [h, Ne.symm h]
  · rw [ExtTreeMap.getElem?_insert]
    by_cases h : g' = g
    · simp [h]
    · simp [h, Ne.symm h]

/-- Emptying a key group leaves the others alone. -/
theorem group_clearGroup (t : Table) (g g' : KeyGroup) :
    (t.clearGroup g).group g' = if g' = g then ∅ else t.group g' := by
  simp only [clearGroup, group, ExtTreeMap.getD_erase, Std.LawfulEqOrd.compare_eq_iff_eq]
  by_cases h : g' = g
  · simp [h]
  · simp [h, Ne.symm h]

@[simp] theorem kind_restoreGroup (t : Table) (g : KeyGroup) (slots : List SlotSnapshot) :
    (t.restoreGroup g slots).kind = t.kind := rfl

@[simp] theorem kind_clearGroup (t : Table) (g : KeyGroup) : (t.clearGroup g).kind = t.kind := rfl

@[simp] theorem group_empty (kind : StateKind) (g : KeyGroup) : (empty kind).group g = ∅ := by
  simp [group, empty]

/-- Restoring a key group keeps a table pruned. -/
theorem Pruned.restoreGroup {t : Table} (h : t.Pruned) (g : KeyGroup)
    (slots : List SlotSnapshot) : (t.restoreGroup g slots).Pruned where
  groups {g' cs} hc := by
    simp only [Table.restoreGroup] at hc
    split at hc
    · rw [ExtTreeMap.getElem?_erase] at hc
      split at hc
      · cases hc
      · exact h.groups hc
    · next nonempty =>
      rw [ExtTreeMap.getElem?_insert] at hc
      split at hc
      · cases hc
        exact fun e => nonempty (ExtTreeMap.isEmpty_iff.2 e)
      · exact h.groups hc
  contents g' := by
    rw [group_restoreGroup]
    split
    · exact pruned_contentsOf slots
    · exact h.contents g'

/-- Emptying a key group keeps a table pruned. -/
theorem Pruned.clearGroup {t : Table} (h : t.Pruned) (g : KeyGroup) : (t.clearGroup g).Pruned where
  groups {g' cs} hc := by
    simp only [Table.clearGroup, ExtTreeMap.getElem?_erase] at hc
    split at hc
    · cases hc
    · exact h.groups hc
  contents g' := by
    rw [group_clearGroup]
    split
    · exact GroupContents.pruned_empty
    · exact h.contents g'

end Table

end KeyedState
