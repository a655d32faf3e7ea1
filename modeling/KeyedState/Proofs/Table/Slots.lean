import KeyedState.Storage.Table
import Mathlib.Tactic.Push
import Mathlib.Tactic.ByContra

/-!
# Slots of a table

A table is a map from addresses of slots to slots. Changing one slot is an update of
that map at one address (`slot_updateSlot`), and it keeps the table pruned
(`Pruned.updateSlot`): no slot, namespace map, key map or group map is left empty. Two
pruned tables with the same slots in a group have the same contents there
(`GroupContents.Pruned.ext`).
-/

namespace KeyedState

open Std (ExtTreeMap)

/-! ## Maps that keep nothing empty -/

section Maps

variable {α β γ : Type} [Ord α] [Std.TransOrd α]

/-- A map that is not empty has something at some key. -/
theorem exists_getElem?_of_ne_empty {m : ExtTreeMap α β} (h : m ≠ ∅) :
    ∃ (a : α) (b : β), m[a]? = some b := by
  by_contra none_at
  push Not at none_at
  refine h (ExtTreeMap.eq_empty_iff_forall_not_mem.2 fun a ha => ?_)
  exact none_at a m[a] (ExtTreeMap.getElem?_eq_some_getElem ha)

variable [Std.LawfulEqOrd α] [Ord β] [Std.TransOrd β]

/-- Changing one inner map leaves the others alone. -/
theorem getD_alterInner [DecidableEq α] (m : ExtTreeMap α (ExtTreeMap β γ)) (a b : α)
    (f : ExtTreeMap β γ → ExtTreeMap β γ) :
    (alterInner m a f).getD b ∅ = if b = a then f (m.getD a ∅) else m.getD b ∅ := by
  -- an inner map that has become empty is dropped, which reads the same
  simp only [alterInner, ExtTreeMap.getD_eq_getD_getElem?, ExtTreeMap.getElem?_alter,
    Std.compare_eq_iff_eq, eq_comm (a := a)]
  by_cases h : b = a
  · subst h
    simp only [if_true]
    split
    · next empty => exact (ExtTreeMap.isEmpty_iff.1 empty).symm
    · rfl
  · simp [h]

/-- What an inner map is after a change: the changed one, which is then not empty, or an old
one. -/
theorem getElem?_alterInner_eq_some {m : ExtTreeMap α (ExtTreeMap β γ)} {a b : α}
    {f : ExtTreeMap β γ → ExtTreeMap β γ} {inner : ExtTreeMap β γ}
    (h : (alterInner m a f)[b]? = some inner) :
    (b = a ∧ inner = f (m.getD a ∅) ∧ inner ≠ ∅) ∨ m[b]? = some inner := by
  rw [alterInner, ExtTreeMap.getElem?_alter] at h
  by_cases hab : a = b
  · subst hab
    -- the changed map is kept only where it is not empty
    left
    rw [if_pos Std.ReflCmp.compare_self, Option.ite_none_left_eq_some, Option.some.injEq] at h
    obtain ⟨nonempty, rfl⟩ := h
    rw [ExtTreeMap.getD_eq_getD_getElem?]
    exact ⟨rfl, rfl, fun e => nonempty (ExtTreeMap.isEmpty_iff.2 e)⟩
  · right
    simpa [hab] using h

end Maps

/-! ## One slot -/

namespace Slot

/-- Nothing is in the empty slot. -/
@[simp] theorem get_empty (userKey : Option Bytes) : empty.get userKey = none := by
  cases userKey with
  | none => rfl
  | some k => simp [get, empty]

/-- What was put in is there, and the rest is as before. -/
theorem get_put (s : Slot) (value : Bytes) (k k' : Option Bytes) :
    (s.put value k).get k' = if k = k' then some value else s.get k' := by
  cases k with
  | none => cases k' <;> simp [put, get]
  | some k =>
    cases k' with
    | none => simp [put, get]
    | some k' => simp [put, get, ExtTreeMap.getElem?_insert]

/-- What was taken out is gone, and the rest is as before. -/
theorem get_remove (s : Slot) (k k' : Option Bytes) :
    (s.remove k).get k' = if k = k' then none else s.get k' := by
  cases k with
  | none => cases k' <;> simp [remove, get]
  | some k =>
    cases k' with
    | none => simp [remove, get]
    | some k' => simp [remove, get, ExtTreeMap.getElem?_erase]

/-- The only slot that holds nothing is the empty one. -/
theorem isEmpty_iff {s : Slot} : s.isEmpty = true ↔ s = empty := by
  obtain ⟨value, entries⟩ := s
  simp [isEmpty, empty, ExtTreeMap.isEmpty_iff]

end Slot

/-! ## Slots of one key group -/

namespace GroupContents

/-- The slot of a key and a namespace. -/
def slot (cs : GroupContents) (key ns : Bytes) : Slot := ((cs.getD key ∅)[ns]?).getD .empty

/-- Nothing empty is kept below the key group. -/
structure Pruned (cs : GroupContents) : Prop where
  namespaces : ∀ {key : Bytes} {m : Namespaces}, cs[key]? = some m → m ≠ ∅
  slots : ∀ {key : Bytes} {m : Namespaces}, cs[key]? = some m →
    ∀ {ns : Bytes} {s : Slot}, m[ns]? = some s → s ≠ .empty

@[simp] theorem slot_empty (key ns : Bytes) : slot ∅ key ns = .empty := by simp [slot]

theorem pruned_empty : Pruned ∅ where
  namespaces h := by simp at h
  slots h := by simp at h

/-- A slot that is not empty is kept in the maps. -/
theorem slot_eq_of_getElem? {cs : GroupContents} {key ns : Bytes} {m : Namespaces} {s : Slot}
    (hm : cs[key]? = some m) (hs : m[ns]? = some s) : cs.slot key ns = s := by
  simp [slot, ExtTreeMap.getD_eq_getD_getElem?, hm, hs]

/-- The slots of the namespaces that a key has. -/
theorem slot_of_getElem? {cs : GroupContents} {key ns : Bytes} {m : Namespaces}
    (hm : cs[key]? = some m) : cs.slot key ns = m[ns]?.getD .empty := by
  simp [slot, ExtTreeMap.getD_eq_getD_getElem?, hm]

theorem slot_of_getElem?_none {cs : GroupContents} {key ns : Bytes} (h : cs[key]? = none) :
    cs.slot key ns = .empty := by
  simp [slot, ExtTreeMap.getD_eq_getD_getElem?, h]

/-- A key of a pruned group has a slot that is not empty. -/
theorem Pruned.exists_slot {cs : GroupContents} (h : cs.Pruned) {key : Bytes} {m : Namespaces}
    (hm : cs[key]? = some m) : ∃ ns, cs.slot key ns ≠ .empty := by
  obtain ⟨ns, s, hs⟩ := exists_getElem?_of_ne_empty (h.namespaces hm)
  exact ⟨ns, by rw [slot_eq_of_getElem? hm hs]; exact h.slots hm hs⟩

/-- In pruned groups the slots of a key tell its namespaces. -/
theorem Pruned.namespaces_eq {cs cs' : GroupContents} (h : cs.Pruned) (h' : cs'.Pruned)
    {key : Bytes} {m m' : Namespaces} (hm : cs[key]? = some m) (hm' : cs'[key]? = some m')
    (same : ∀ ns, cs.slot key ns = cs'.slot key ns) : m = m' := by
  apply ExtTreeMap.ext_getElem?
  intro ns
  have := same ns
  rw [slot_of_getElem? hm, slot_of_getElem? hm'] at this
  cases hs : m[ns]? with
  | none =>
    cases hs' : m'[ns]? with
    | none => rfl
    | some s' => simp [hs, hs', (h'.slots hm' hs').symm] at this
  | some s =>
    cases hs' : m'[ns]? with
    | none => simp [hs, hs', h.slots hm hs] at this
    | some s' => simpa [hs, hs'] using this

/-- Pruned groups with the same slots are the same. -/
theorem Pruned.ext {cs cs' : GroupContents} (h : cs.Pruned) (h' : cs'.Pruned)
    (same : ∀ key ns, cs.slot key ns = cs'.slot key ns) : cs = cs' := by
  -- a key that only one of them keeps would have a slot there that is not empty
  apply ExtTreeMap.ext_getElem?
  intro key
  cases hm : cs[key]? with
  | none =>
    cases hm' : cs'[key]? with
    | none => rfl
    | some m' =>
      obtain ⟨ns, hns⟩ := h'.exists_slot hm'
      exact absurd ((same key ns).symm.trans (slot_of_getElem?_none hm)) hns
  | some m =>
    cases hm' : cs'[key]? with
    | none =>
      obtain ⟨ns, hns⟩ := h.exists_slot hm
      exact absurd ((same key ns).trans (slot_of_getElem?_none hm')) hns
    | some m' => rw [h.namespaces_eq h' hm hm' (same key)]

/-- Changes the slot of a key and a namespace. -/
def update (cs : GroupContents) (key ns : Bytes) (f : Slot → Slot) : GroupContents :=
  alterInner cs key fun namespaces =>
    namespaces.alter ns fun slot =>
      let slot := f (slot.getD .empty)
      if slot.isEmpty then none else some slot

/-- The contents after a change of one slot. -/
theorem slot_update (cs : GroupContents) (key ns : Bytes) (f : Slot → Slot)
    (key' ns' : Bytes) :
    (cs.update key ns f).slot key' ns' =
      if key' = key ∧ ns' = ns then f (cs.slot key ns) else cs.slot key' ns' := by
  simp only [GroupContents.slot, update, getD_alterInner]
  by_cases hkey : key' = key
  · subst hkey
    simp only [if_true, ExtTreeMap.getElem?_alter, Std.compare_eq_iff_eq, true_and,
      eq_comm (a := ns)]
    -- only the slot that was changed can have become empty
    by_cases hns : ns' = ns
    · simp only [hns, if_true]
      split
      · next h => simpa using (Slot.isEmpty_iff.1 h).symm
      · rfl
    · simp [hns]
  · simp [hkey]

/-- Changing a slot keeps a key group pruned. -/
theorem Pruned.update {cs : GroupContents} (h : cs.Pruned) (key ns : Bytes)
    (f : Slot → Slot) : (cs.update key ns f).Pruned where
  namespaces hm := by
    rcases getElem?_alterInner_eq_some hm with ⟨-, -, nonempty⟩ | old
    · exact nonempty
    · exact h.namespaces old
  slots {key' m} hm ns' s hs := by
    rcases getElem?_alterInner_eq_some hm with ⟨rfl, rfl, -⟩ | old
    · rw [ExtTreeMap.getElem?_alter] at hs
      split at hs
      · simp only [Option.ite_none_left_eq_some, Option.some.injEq] at hs
        obtain ⟨nonempty, rfl⟩ := hs
        exact fun e => nonempty (Slot.isEmpty_iff.2 e)
      · -- an old slot of the key, if the key had any
        cases hold : cs[key']? with
        | none => simp [ExtTreeMap.getD_eq_getD_getElem?, hold] at hs
        | some m =>
          simp only [ExtTreeMap.getD_eq_getD_getElem?, hold, Option.getD_some] at hs
          exact h.slots hold hs
    · exact h.slots old hs

end GroupContents

/-! ## Slots of a table -/

namespace Table

/-- Nothing empty is kept in the table. -/
structure Pruned (t : Table) : Prop where
  groups : ∀ {g : KeyGroup} {cs : GroupContents}, t.groups[g]? = some cs → cs ≠ ∅
  contents : ∀ g, (t.group g).Pruned

/-- The slot at an address is one of its key group. -/
theorem slot_eq (t : Table) (a : SlotAddress) :
    t.slot a = (t.group a.group).slot a.key a.ns := rfl

/-- An empty table has empty slots. -/
@[simp] theorem slot_empty (kind : StateKind) (a : SlotAddress) : (empty kind).slot a = .empty := by
  simp [slot, group, empty]

/-- Changing a slot changes the contents of its key group. -/
theorem group_updateSlot (t : Table) (a : SlotAddress) (f : Slot → Slot) (g : KeyGroup) :
    (t.updateSlot a f).group g =
      if g = a.group then (t.group g).update a.key a.ns f else t.group g := by
  simp only [group, updateSlot, getD_alterInner]
  split
  · next h => rw [h]; rfl
  · rfl

/-- Changing the slot at one address leaves all others alone. -/
theorem slot_updateSlot (t : Table) (a b : SlotAddress) (f : Slot → Slot) :
    (t.updateSlot a f).slot b = if b = a then f (t.slot a) else t.slot b := by
  obtain ⟨g, key, ns⟩ := a
  obtain ⟨g', key', ns'⟩ := b
  simp only [slot_eq, group_updateSlot, SlotAddress.mk.injEq]
  by_cases hg : g' = g
  · subst hg
    simp only [if_true, GroupContents.slot_update, true_and]
  · simp [hg]

/-- The kind of a table does not change with its slots. -/
@[simp] theorem kind_updateSlot (t : Table) (a : SlotAddress) (f : Slot → Slot) :
    (t.updateSlot a f).kind = t.kind := rfl

theorem pruned_empty (kind : StateKind) : (empty kind).Pruned where
  groups h := by simp [empty] at h
  contents g := by simpa [empty, group, ExtTreeMap.getD_empty] using GroupContents.pruned_empty

/-- Changing a slot keeps a table pruned. -/
theorem Pruned.updateSlot {t : Table} (h : t.Pruned) (a : SlotAddress) (f : Slot → Slot) :
    (t.updateSlot a f).Pruned where
  groups hc := by
    rcases getElem?_alterInner_eq_some hc with ⟨-, -, nonempty⟩ | old
    · exact nonempty
    · exact h.groups old
  contents g := by
    rw [group_updateSlot]
    split
    · exact (h.contents g).update _ _ _
    · exact h.contents g

end Table

end KeyedState
