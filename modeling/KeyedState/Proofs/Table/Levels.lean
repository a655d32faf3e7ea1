import KeyedState.Proofs.Table.Requests

/-!
# Changes level by level

A table is four maps one within the other. A value is put in by going down the levels and
making what is missing (`putInPlace`). A value is taken out, and a slot is emptied, by going
down as long as there is something, and then up as long as nothing is left
(`removeInPlace`, `clearInPlace`); each has its own way up. On pruned tables all three do
what `put`, `remove` and `clear` do with a change of one slot (`putInPlace_eq`,
`removeInPlace_eq`, `clearInPlace_eq`).
-/

namespace KeyedState

open Std (ExtTreeMap)

/-! ## Changes of one level -/

section Levels

variable {α β γ : Type} [Ord α] [Std.TransOrd α]

/-- A map that something was put in is not empty. -/
theorem isEmpty_insert (m : ExtTreeMap α β) (a : α) (b : β) : (m.insert a b).isEmpty = false :=
  Bool.eq_false_iff.2 fun empty => ExtTreeMap.insert_ne_empty (ExtTreeMap.isEmpty_iff.1 empty)

variable [Std.LawfulEqOrd α]

/-- A change at a key drops what is there or replaces it. -/
theorem alter_eq (m : ExtTreeMap α β) (a : α) (f : Option β → Option β) :
    m.alter a f =
      match f m[a]? with
      | none => m.erase a
      | some b => m.insert a b := by
  apply ExtTreeMap.ext_getElem?
  intro k
  rw [ExtTreeMap.getElem?_alter]
  by_cases h : a = k
  · subst h
    cases f m[a]? <;> simp
  · cases f m[a]? <;>
      simp [h, ExtTreeMap.getElem?_erase, ExtTreeMap.getElem?_insert]

variable [Ord β] [Std.TransOrd β]

/-- A change of an inner map that is there. -/
theorem alterInner_eq {m : ExtTreeMap α (ExtTreeMap β γ)} {a : α} {inner : ExtTreeMap β γ}
    (h : m[a]? = some inner) (f : ExtTreeMap β γ → ExtTreeMap β γ) :
    alterInner m a f =
      if (f inner).isEmpty then m.erase a else m.insert a (f inner) := by
  rw [alterInner, alter_eq, h, Option.getD_some]
  by_cases empty : (f inner).isEmpty = true
  · rw [if_pos empty, if_pos empty]
  · rw [if_neg empty, if_neg empty]

/-- A change that leaves something in an inner map, whether it was there or not. -/
theorem alterInner_eq_of_ne {m : ExtTreeMap α (ExtTreeMap β γ)} {a : α}
    {f : ExtTreeMap β γ → ExtTreeMap β γ} (left : f (m[a]?.getD ∅) ≠ ∅) :
    alterInner m a f = m.alter a fun inner => some (f (inner.getD ∅)) := by
  have kept : ¬ (f (m[a]?.getD ∅)).isEmpty = true :=
    fun empty => left (ExtTreeMap.isEmpty_iff.1 empty)
  rw [alterInner, alter_eq, alter_eq, if_neg kept]

end Levels

namespace Table

/-! ## The changes -/

/-- Puts a value in: what is missing on the way down is made. -/
def putInPlace (t : Table) (a : Address) (value : Bytes) : Table :=
  { t with
    groups := t.groups.alter a.slot.group fun keys =>
      some ((keys.getD ∅).alter a.slot.key fun namespaces =>
        some ((namespaces.getD ∅).alter a.slot.ns fun slot =>
          some ((slot.getD .empty).put value a.userKey))) }

/-- Takes a value out. Where something is missing on the way down nothing is done; on the
way up what has become empty is dropped, and the next level is looked at only then. -/
def removeInPlace (t : Table) (a : Address) : Option Bytes × Table :=
  match t.groups[a.slot.group]? with
  | none => (none, t)
  | some keys =>
    match keys[a.slot.key]? with
    | none => (none, t)
    | some namespaces =>
      match namespaces[a.slot.ns]? with
      | none => (none, t)
      | some slot =>
        let left := slot.remove a.userKey
        let groups :=
          if left.isEmpty then
            if (namespaces.erase a.slot.ns).isEmpty then
              if (keys.erase a.slot.key).isEmpty then t.groups.erase a.slot.group
              else t.groups.insert a.slot.group (keys.erase a.slot.key)
            else
              t.groups.insert a.slot.group
                (keys.insert a.slot.key (namespaces.erase a.slot.ns))
          else
            t.groups.insert a.slot.group
              (keys.insert a.slot.key (namespaces.insert a.slot.ns left))
        (slot.get a.userKey, { t with groups })

/-- Empties a slot. The namespace is dropped whether or not it was there. -/
def clearInPlace (t : Table) (a : SlotAddress) : Table :=
  match t.groups[a.group]? with
  | none => t
  | some keys =>
    match keys[a.key]? with
    | none => t
    | some namespaces =>
      let groups :=
        if (namespaces.erase a.ns).isEmpty then
          if (keys.erase a.key).isEmpty then t.groups.erase a.group
          else t.groups.insert a.group (keys.erase a.key)
        else t.groups.insert a.group (keys.insert a.key (namespaces.erase a.ns))
      { t with groups }

/-! ## What they do -/

/-- A slot that something was put in is not empty. -/
theorem isEmpty_put (s : Slot) (value : Bytes) (userKey : Option Bytes) :
    (s.put value userKey).isEmpty = false := by
  refine Bool.eq_false_iff.2 fun empty => ?_
  have put := Slot.get_put s value userKey userKey
  rw [Slot.isEmpty_iff.1 empty] at put
  simp at put

/-- The namespaces of a key after a change of one slot. -/
def changeNamespace (namespaces : Namespaces) (ns : Bytes) (f : Slot → Slot) : Namespaces :=
  namespaces.alter ns fun slot =>
    let slot := f (slot.getD .empty)
    if slot.isEmpty then none else some slot

theorem changeNamespace_eq_insert {namespaces : Namespaces} {ns : Bytes} {f : Slot → Slot}
    (left : (f (namespaces[ns]?.getD .empty)).isEmpty = false) :
    changeNamespace namespaces ns f =
      namespaces.insert ns (f (namespaces[ns]?.getD .empty)) := by
  simp [changeNamespace, alter_eq, left]

theorem changeNamespace_eq_erase {namespaces : Namespaces} {ns : Bytes} {f : Slot → Slot}
    (nothing : (f (namespaces[ns]?.getD .empty)).isEmpty = true) :
    changeNamespace namespaces ns f = namespaces.erase ns := by
  simp [changeNamespace, alter_eq, nothing]

theorem updateSlot_eq (t : Table) (a : SlotAddress) (f : Slot → Slot) :
    t.updateSlot a f =
      { t with
        groups := alterInner t.groups a.group fun keys =>
          alterInner keys a.key fun namespaces => changeNamespace namespaces a.ns f } := rfl

/-- **Putting a value in, level by level.** The slot holds something afterwards, so nothing on
the way is dropped. -/
theorem putInPlace_eq (t : Table) (a : Address) (value : Bytes) :
    t.putInPlace a value = t.put a value := by
  -- with the slot, no level that leads to it is empty
  have slots : ∀ namespaces : Namespaces,
      changeNamespace namespaces a.slot.ns (fun s => s.put value a.userKey) =
        namespaces.alter a.slot.ns fun slot =>
          some ((slot.getD .empty).put value a.userKey) := by
    intro namespaces
    rw [changeNamespace_eq_insert (isEmpty_put _ _ _), alter_eq]
  have keys : ∀ cs : GroupContents,
      (alterInner cs a.slot.key fun namespaces =>
          changeNamespace namespaces a.slot.ns fun s => s.put value a.userKey) =
        cs.alter a.slot.key fun namespaces =>
          some ((namespaces.getD ∅).alter a.slot.ns fun slot =>
            some ((slot.getD .empty).put value a.userKey)) := by
    intro cs
    rw [alterInner_eq_of_ne]
    · simp only [slots]
    · rw [changeNamespace_eq_insert (isEmpty_put _ _ _)]
      exact ExtTreeMap.insert_ne_empty
  rw [put, updateSlot_eq, putInPlace, alterInner_eq_of_ne]
  · simp only [keys]
  · rw [keys, alter_eq]
    exact ExtTreeMap.insert_ne_empty

/-- A change of a slot below a key group and a key that are there. -/
theorem updateSlot_eq_of_getElem? {t : Table} {a : SlotAddress} {keys : GroupContents}
    {namespaces : Namespaces} (hkeys : t.groups[a.group]? = some keys)
    (hnamespaces : keys[a.key]? = some namespaces) (f : Slot → Slot) :
    t.updateSlot a f =
      { t with
        groups :=
          let namespaces := changeNamespace namespaces a.ns f
          let keys :=
            if namespaces.isEmpty then keys.erase a.key else keys.insert a.key namespaces
          if keys.isEmpty then t.groups.erase a.group else t.groups.insert a.group keys } := by
  rw [updateSlot_eq, alterInner_eq hkeys, alterInner_eq hnamespaces]

/-- The way up where the namespace is dropped. -/
theorem updateSlot_eq_erase {t : Table} {a : SlotAddress} {keys : GroupContents}
    {namespaces : Namespaces} (hkeys : t.groups[a.group]? = some keys)
    (hnamespaces : keys[a.key]? = some namespaces) {f : Slot → Slot}
    (nothing : (f (namespaces[a.ns]?.getD .empty)).isEmpty = true) :
    t.updateSlot a f =
      { t with
        groups :=
          if (namespaces.erase a.ns).isEmpty then
            if (keys.erase a.key).isEmpty then t.groups.erase a.group
            else t.groups.insert a.group (keys.erase a.key)
          else t.groups.insert a.group (keys.insert a.key (namespaces.erase a.ns)) } := by
  rw [updateSlot_eq_of_getElem? hkeys hnamespaces, changeNamespace_eq_erase nothing]
  by_cases empty : (namespaces.erase a.ns).isEmpty = true
  · simp only [empty, if_true]
  · simp only [empty, isEmpty_insert, if_false, Bool.false_eq_true]

/-- The way up where the slot stays. -/
theorem updateSlot_eq_insert {t : Table} {a : SlotAddress} {keys : GroupContents}
    {namespaces : Namespaces} (hkeys : t.groups[a.group]? = some keys)
    (hnamespaces : keys[a.key]? = some namespaces) {f : Slot → Slot}
    (left : (f (namespaces[a.ns]?.getD .empty)).isEmpty = false) :
    t.updateSlot a f =
      { t with
        groups := t.groups.insert a.group
          (keys.insert a.key
            (namespaces.insert a.ns (f (namespaces[a.ns]?.getD .empty)))) } := by
  rw [updateSlot_eq_of_getElem? hkeys hnamespaces, changeNamespace_eq_insert left]
  simp only [isEmpty_insert, if_false, Bool.false_eq_true]

/-- Pruned tables with the same slots are the same. -/
theorem Pruned.ext {t t' : Table} (h : t.Pruned) (h' : t'.Pruned) (kind : t.kind = t'.kind)
    (same : ∀ a, t.slot a = t'.slot a) : t = t' := by
  have groups : ∀ g, t.group g = t'.group g := by
    intro g
    apply (h.contents g).ext (h'.contents g)
    intro key ns
    exact same ⟨g, key, ns⟩
  obtain ⟨k, m⟩ := t
  obtain ⟨k', m'⟩ := t'
  obtain rfl : k = k' := kind
  congr 1
  apply ExtTreeMap.ext_getElem?
  intro g
  have at_g := groups g
  simp only [group, ExtTreeMap.getD_eq_getD_getElem?] at at_g
  -- a group that only one of them keeps would be empty there
  cases hm : m[g]? with
  | none =>
    cases hm' : m'[g]? with
    | none => rfl
    | some cs' =>
      simp only [hm, hm', Option.getD_none, Option.getD_some] at at_g
      exact absurd at_g.symm (h'.groups hm')
  | some cs =>
    cases hm' : m'[g]? with
    | none =>
      simp only [hm, hm', Option.getD_none, Option.getD_some] at at_g
      exact absurd at_g (h.groups hm)
    | some cs' => simpa [hm, hm'] using at_g

/-- A change that leaves an empty slot empty does nothing to a pruned table. -/
theorem Pruned.updateSlot_eq_self {t : Table} (pruned : t.Pruned) {a : SlotAddress}
    {f : Slot → Slot} (empty : t.slot a = .empty) (idle : f .empty = .empty) :
    t.updateSlot a f = t := by
  apply (pruned.updateSlot a f).ext pruned rfl
  intro b
  rw [slot_updateSlot, empty, idle]
  split
  · next same => rw [same, empty]
  · rfl

/-- Nothing can be taken out of an empty slot. -/
theorem remove_empty (userKey : Option Bytes) : Slot.empty.remove userKey = .empty := by
  cases userKey with
  | none => rfl
  | some k => simp [Slot.remove, Slot.empty]

variable {t : Table}

/-- Nothing is taken out where nothing is. -/
theorem Pruned.remove_eq_self (pruned : t.Pruned) {a : Address}
    (empty : t.slot a.slot = .empty) : (none, t) = (t.get a, t.remove a) := by
  rw [get, empty, Slot.get_empty, remove,
    pruned.updateSlot_eq_self empty (remove_empty a.userKey)]

/-- **Taking a value out, level by level.** -/
theorem removeInPlace_eq (pruned : t.Pruned) (a : Address) :
    t.removeInPlace a = (t.get a, t.remove a) := by
  cases hkeys : t.groups[a.slot.group]? with
  | none =>
    simp only [removeInPlace, hkeys]
    apply pruned.remove_eq_self
    simp [slot, group, ExtTreeMap.getD_eq_getD_getElem?, hkeys]
  | some keys =>
    have hgroup : t.group a.slot.group = keys := by
      simp [group, ExtTreeMap.getD_eq_getD_getElem?, hkeys]
    cases hnamespaces : keys[a.slot.key]? with
    | none =>
      simp only [removeInPlace, hkeys, hnamespaces]
      apply pruned.remove_eq_self
      simp [slot, hgroup, ExtTreeMap.getD_eq_getD_getElem?, hnamespaces]
    | some namespaces =>
      have hslot : t.slot a.slot = namespaces[a.slot.ns]?.getD .empty := by
        simp [slot, hgroup, ExtTreeMap.getD_eq_getD_getElem?, hnamespaces]
      cases hs : namespaces[a.slot.ns]? with
      | none =>
        simp only [removeInPlace, hkeys, hnamespaces, hs]
        apply pruned.remove_eq_self
        rw [hslot, hs, Option.getD_none]
      | some s =>
        rw [hs, Option.getD_some] at hslot
        simp only [removeInPlace, hkeys, hnamespaces, hs]
        rw [remove, get, hslot]
        -- the slot stays, or it goes and takes with it what has become empty
        cases left : (s.remove a.userKey).isEmpty with
        | true =>
          rw [updateSlot_eq_erase hkeys hnamespaces (by rw [hs]; exact left)]
          simp only [if_true]
        | false =>
          rw [updateSlot_eq_insert hkeys hnamespaces (by rw [hs]; exact left), hs]
          simp only [Bool.false_eq_true, if_false, Option.getD_some]

/-- **Emptying a slot, level by level.** -/
theorem clearInPlace_eq (pruned : t.Pruned) (a : SlotAddress) :
    t.clearInPlace a = t.clear a := by
  cases hkeys : t.groups[a.group]? with
  | none =>
    simp only [clearInPlace, hkeys]
    have empty : t.slot a = .empty := by
      simp [slot, group, ExtTreeMap.getD_eq_getD_getElem?, hkeys]
    exact (pruned.updateSlot_eq_self empty rfl).symm
  | some keys =>
    cases hnamespaces : keys[a.key]? with
    | none =>
      simp only [clearInPlace, hkeys, hnamespaces]
      have empty : t.slot a = .empty := by
        simp [slot, group, ExtTreeMap.getD_eq_getD_getElem?, hkeys, hnamespaces]
      exact (pruned.updateSlot_eq_self empty rfl).symm
    | some namespaces =>
      simp only [clearInPlace, hkeys, hnamespaces]
      rw [clear, updateSlot_eq_erase hkeys hnamespaces rfl]

end Table

end KeyedState
