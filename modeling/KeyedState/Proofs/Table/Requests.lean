import KeyedState.Proofs.Table.Slots

/-!
# Requests to a table

A request is about one slot. Its reply is read off that slot (`Request.reply`), and it
changes that slot and no other (`Request.change`); the store on a table does exactly
this (`Table.outcome_perform`, `Table.slot_perform`). A listing in ascending order is
determined by its members (`eq_of_ascending`).
-/

namespace KeyedState

namespace Request

/-- The slot that a request is about. -/
def slot : Request → SlotAddress
  | get a => a.slot
  | put a _ => a.slot
  | remove a => a.slot
  | entries s => s
  | clear s => s

/-- The reply to a request, read off its slot. -/
def reply : (r : Request) → Slot → r.Reply
  | get a, s => s.get a.userKey
  | put _ _, _ => ()
  | remove a, s => s.get a.userKey
  | entries _, s => s.entries.toList
  | clear _, _ => ()

/-- The slot after a request. -/
def change : Request → Slot → Slot
  | get _, s => s
  | put a value, s => s.put value a.userKey
  | remove a, s => s.remove a.userKey
  | entries _, s => s
  | clear _, _ => .empty

end Request

/-- Two lists in one order with the same members are one list. -/
theorem eq_of_ascending {α : Type} {before : α → α → Prop}
    (asymm : ∀ x y, before x y → ¬ before y x) {l l' : List α} (asc : l.Pairwise before)
    (asc' : l'.Pairwise before) (same : ∀ x, x ∈ l ↔ x ∈ l') : l = l' := by
  have distinct : ∀ {x y : α}, before x y → x ≠ y := by
    rintro x _ less rfl
    exact asymm x x less less
  have perm : l.Perm l' :=
    (List.perm_ext_iff_of_nodup (asc.imp distinct) (asc'.imp distinct)).2 same
  exact perm.eq_of_pairwise (fun x y _ _ less greater => absurd greater (asymm x y less)) asc asc'

open Std (ExtTreeMap)

namespace Table

variable (t : Table)

@[simp] theorem perform_get (a : Address) :
    (store.perform (.get a)).perform t = (.ok (t.get a), t) := rfl

@[simp] theorem perform_put (a : Address) (value : Bytes) :
    (store.perform (.put a value)).perform t = (.ok (), t.put a value) := rfl

@[simp] theorem perform_remove (a : Address) :
    (store.perform (.remove a)).perform t = (.ok (t.get a), t.remove a) := rfl

@[simp] theorem perform_entries (s : SlotAddress) :
    (store.perform (.entries s)).perform t = (.ok (t.entries s), t) := rfl

@[simp] theorem perform_clear (s : SlotAddress) :
    (store.perform (.clear s)).perform t = (.ok (), t.clear s) := rfl

/-- A table refuses nothing, and the reply is read off the slot of the request. -/
theorem outcome_perform (r : Request) :
    ((store.perform r).perform t).1 = .ok (r.reply (t.slot r.slot)) := by
  cases r <;> rfl

/-- Putting a value in changes the slot of its address. -/
theorem slot_put (a : Address) (value : Bytes) (b : SlotAddress) :
    (t.put a value).slot b =
      if b = a.slot then (t.slot a.slot).put value a.userKey else t.slot b :=
  slot_updateSlot t a.slot b fun s => s.put value a.userKey

/-- Taking a value out changes the slot of its address. -/
theorem slot_remove (a : Address) (b : SlotAddress) :
    (t.remove a).slot b = if b = a.slot then (t.slot a.slot).remove a.userKey else t.slot b :=
  slot_updateSlot t a.slot b fun s => s.remove a.userKey

/-- Emptying a slot changes no other. -/
theorem slot_clear (a b : SlotAddress) :
    (t.clear a).slot b = if b = a then .empty else t.slot b :=
  slot_updateSlot t a b fun _ => .empty

/-- The values after one was put in. -/
theorem get_put (a : Address) (value : Bytes) (b : Address) :
    (t.put a value).get b = if b = a then some value else t.get b := by
  obtain ⟨slot, userKey⟩ := a
  obtain ⟨slot', userKey'⟩ := b
  simp only [get, slot_put, Address.mk.injEq]
  by_cases h : slot' = slot
  · simp [h, Slot.get_put, eq_comm (a := userKey)]
  · simp [h]

/-- The values after one was taken out. -/
theorem get_remove (a b : Address) :
    (t.remove a).get b = if b = a then none else t.get b := by
  obtain ⟨slot, userKey⟩ := a
  obtain ⟨slot', userKey'⟩ := b
  simp only [get, slot_remove, Address.mk.injEq]
  by_cases h : slot' = slot
  · simp [h, Slot.get_remove, eq_comm (a := userKey)]
  · simp [h]

/-- The values after a slot was emptied. -/
theorem get_clear (a : SlotAddress) (b : Address) :
    (t.clear a).get b = if b.slot = a then none else t.get b := by
  simp only [get, slot_clear]
  split <;> simp

/-- The entries of a slot are the values under its user keys. -/
theorem mem_entries {a : SlotAddress} {userKey value : Bytes} :
    (userKey, value) ∈ t.entries a ↔ t.get (a.entry userKey) = some value :=
  ExtTreeMap.mem_toList_iff_getElem?_eq_some

/-- The entries of a slot are in ascending order of their user keys. -/
theorem pairwise_entries (a : SlotAddress) :
    (t.entries a).Pairwise fun x y => compare x.1 y.1 = .lt :=
  ExtTreeMap.ordered_keys_toList

/-- Of two listed entries only one comes before the other. -/
theorem entries_asymm (x y : Bytes × Bytes) (less : compare x.1 y.1 = .lt) :
    ¬ compare y.1 x.1 = .lt := by
  intro greater
  have cycle := Std.TransCmp.lt_trans less greater
  simp at cycle

/-- A request changes its slot and no other. -/
theorem slot_perform (r : Request) (b : SlotAddress) :
    ((store.perform r).perform t).2.slot b =
      if b = r.slot then r.change (t.slot r.slot) else t.slot b := by
  have unchanged : ∀ a : SlotAddress, t.slot b = if b = a then t.slot a else t.slot b := by
    intro a
    split
    · next h => rw [h]
    · rfl
  cases r with
  | get a => exact unchanged a.slot
  | put a value => exact slot_put t a value b
  | remove a => exact slot_remove t a b
  | entries s => exact unchanged s
  | clear s => exact slot_clear t s b

@[simp] theorem kind_perform (r : Request) : ((store.perform r).perform t).2.kind = t.kind := by
  cases r <;> rfl

variable {t}

/-- A request keeps a table pruned. -/
theorem Pruned.perform (pruned : t.Pruned) (r : Request) :
    ((store.perform r).perform t).2.Pruned := by
  cases r with
  | get a => exact pruned
  | put a value => exact pruned.updateSlot a.slot fun s => s.put value a.userKey
  | remove a => exact pruned.updateSlot a.slot fun s => s.remove a.userKey
  | entries s => exact pruned
  | clear s => exact pruned.updateSlot s fun _ => .empty

/-- The value at an address after a request. -/
theorem get_perform (r : Request) (a : Address) :
    ((store.perform r).perform t).2.get a =
      if a.slot = r.slot then (r.change (t.slot r.slot)).get a.userKey else t.get a := by
  simp only [get, slot_perform]
  split <;> rfl

end Table

end KeyedState
