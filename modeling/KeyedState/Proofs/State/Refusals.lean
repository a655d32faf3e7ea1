import KeyedState.Proofs.State.Requests
import KeyedState.Proofs.State.Workspace

/-!
# What refused calls leave in a table

A typed call first does all that can be refused: it looks for its slot, reads what it needs, decodes
that, and serializes what it writes. Only then does it touch the table, so a call that is refused
leaves the table as it was (`Action.Cautious`). Removing an entry of a map is the exception: the
entry is taken out first and decoded afterwards, and one that cannot be decoded is lost
(`StateSpec.Loses`). `NamedState.table_of_refused` puts this together for all calls on a state
without expiry. Faults are left aside here, since they are not given to the caller as refusals.
-/

namespace KeyedState

open KeyedState.Action (Keeps)

/-! ## Actions that are refused before they touch anything -/

section Cautious

variable {σ τ α β : Type} {part : σ → τ}

/-- If the action is refused, and that is not a fault, a part of the state is as it was. -/
def Action.Cautious (part : σ → τ) (a : Action σ α) : Prop :=
  ∀ s e s', a.perform s = (.error e, s') → e.isFault = false → part s' = part s

/-- The action is refused with faults only. -/
def Action.OnlyFaults (a : Action σ α) : Prop :=
  ∀ s e, (a.perform s).1 = .error e → e.isFault = true

namespace Action

theorem OnlyFaults.bind_pure {a : Action σ α} (h : OnlyFaults a) (f : α → β) :
    OnlyFaults (a >>= fun x => pure (f x)) := by
  intro s e refused
  rcases perform_bind_eq_error.1 (Prod.ext refused rfl) with first | ⟨x, between, -, second⟩
  · exact h s e (congrArg Prod.fst first)
  · cases second

namespace Cautious

theorem of_onlyFaults {a : Action σ α} (h : OnlyFaults a) : Cautious part a := by
  intro s e s' refused returned
  rw [h s e (congrArg Prod.fst refused)] at returned
  cases returned

theorem lift (outcome : Except StateError α) :
    Cautious part (Action.lift outcome : Action σ α) := by
  rintro s e _ ⟨⟩ _
  rfl

theorem pure (x : α) : Cautious part (Pure.pure x : Action σ α) := by
  rintro s e s' ⟨⟩

/-- What leaves the part as it is may come first. -/
theorem bind {a : Action σ α} {f : α → Action σ β} {Q : α → Prop}
    (first : ∀ x, Keeps (fun s => part s = x) a Q) (second : ∀ x, Q x → Cautious part (f x)) :
    Cautious part (a >>= f) := by
  intro s e s' refused returned
  obtain ⟨same, value⟩ := first (part s) s rfl
  rcases perform_bind_eq_error.1 refused with refused | ⟨x, between, performed, refused⟩
  · rw [refused] at same
    exact same
  · rw [performed] at same value
    exact (second x (value x rfl) between e s' refused returned).trans same

end Cautious

end Action

end Cautious

/-! ## What a call loses -/

/-- The call takes the entry of a user key out of the slot, and cannot decode it. -/
def MapCall.Loses {K V : Type} (keys : Serializer K) (values : Serializer V) (slot : Slot) :
    MapCall K V → Bytes → Prop
  | remove key, userKey => keys.serialize key = .ok userKey ∧
    ∃ bytes e, slot.entries[userKey]? = some bytes ∧ values.deserialize bytes = .error e
  | _, _ => False

/-- The entry of a user key is lost with a call on the slot. Only maps have entries. -/
def StateSpec.Loses (slot : Slot) : (spec : StateSpec Id) → spec.type.Call → Bytes → Prop
  | map _ _ keys values => MapCall.Loses keys values slot
  | _ => fun _ _ => False

/-- The entry that is lost was in the slot, and it is the only one. -/
theorem StateSpec.Loses.isSome_entry_unique {slot : Slot} {spec : StateSpec Id} {c : spec.type.Call}
    {userKey : Bytes} (lost : spec.Loses slot c userKey) :
    slot.entries[userKey]?.isSome = true ∧
      ∀ userKey', spec.Loses slot c userKey' → userKey' = userKey := by
  cases spec with
  | map k v keys values =>
      change MapCall.Loses keys values slot c userKey at lost
      cases c with
      | remove key =>
          obtain ⟨written, bytes, -, there, -⟩ := lost
          refine ⟨Option.isSome_iff_exists.2 ⟨bytes, there⟩, fun userKey' lost' => ?_⟩
          exact Except.ok.inj (lost'.1.symm.trans written)
      | get | put | contains | keys | values | entries | clear | isEmpty => exact lost.elim
  | value | list | reducing => exact lost.elim

/-! ## Stores that show a table -/

/-- A store shows a table: requests are carried out on it, and answered from it unless there is a
fault. -/
structure Store.Over {σ : Type} (table : σ → Table) (store : Store σ) : Prop where
  after : ∀ r s, table ((store.perform r).perform s).2 =
    ((Table.store.perform r).perform (table s)).2
  answer : ∀ r s, Returns ((store.perform r).perform s).1 (r.reply ((table s).slot r.slot)) True

section Calls

variable {σ V K : Type} {table : σ → Table} {store : Store σ} {scope : Action σ SlotAddress}
  {serializer : Serializer V}

namespace Store.Over

variable (above : store.Over table)
include above

/-- A request is refused with faults only. -/
theorem onlyFaults (r : Request) : Action.OnlyFaults (store.perform r) := by
  intro s e refused
  rcases above.answer r s with answered | ⟨-, fault⟩
  · cases answered.symm.trans refused
  · cases fault.symm.trans refused
    rfl

/-- Getting a value leaves the table as it is. -/
theorem get_keeps (a : Address) (t : Table) :
    Action.Keeps (fun s => table s = t) (store.get a) fun _ => True :=
  fun s same => ⟨(above.after (.get a) s).trans same, fun _ _ => trivial⟩

/-- Listing entries leaves the table as it is. -/
theorem entries_keeps (a : SlotAddress) (t : Table) :
    Action.Keeps (fun s => table s = t) (store.entries a) fun _ => True :=
  fun s same => ⟨(above.after (.entries a) s).trans same, fun _ _ => trivial⟩

end Store.Over

/-! ## Typed calls -/

variable (above : store.Over table)
  (looks : ∀ t, Keeps (fun s => table s = t) scope fun _ => True)
include above looks

theorem removeWhole_cautious : Action.Cautious table (removeWhole store scope) :=
  .bind looks fun slot _ => .of_onlyFaults ((above.onlyFaults (.remove slot.whole)).bind_pure _)

/-- A call on a value that is refused leaves the table as it was. -/
theorem ValueCall.perform_cautious (c : ValueCall V) :
    Action.Cautious table (c.perform serializer store scope) := by
  cases c with
  | get => exact .bind looks fun slot _ => .bind (above.get_keeps slot.whole) fun _ _ => .lift _
  | set value =>
      refine .bind looks fun slot _ => ?_
      refine .bind (fun _ => .lift fun _ _ => trivial) fun bytes _ => ?_
      exact .of_onlyFaults (above.onlyFaults (.put slot.whole bytes))
  | clear => exact removeWhole_cautious above looks

namespace ListCall

omit looks in
theorem load_keeps_table (slot : SlotAddress) (t : Table) :
    Keeps (fun s => table s = t) (load store slot) fun _ => True := by
  refine (above.get_keeps slot.whole t).bind fun found _ => ?_
  cases found with
  | none => exact .pure trivial
  | some bytes => exact .lift fun _ _ => trivial

omit looks in
theorem save_cautious (slot : SlotAddress) (elements : List Bytes) :
    Action.Cautious table (save store slot elements) := by
  rw [save]
  split
  · exact .of_onlyFaults ((above.onlyFaults (.remove slot.whole)).bind_pure _)
  · exact .of_onlyFaults (above.onlyFaults (.put slot.whole _))

/-- All elements are serialized before the list is stored. -/
theorem append_cautious (values : List V) :
    Action.Cautious table (append serializer store scope values) := by
  rw [append]
  split
  · exact .pure ()
  · refine .bind looks fun slot _ => ?_
    refine .bind (load_keeps_table above slot) fun elements _ => ?_
    refine .bind (fun _ => .lift fun _ _ => trivial) fun added _ => ?_
    exact save_cautious above slot _

/-- A call on a list that is refused leaves the table as it was. -/
theorem perform_cautious (c : ListCall V) :
    Action.Cautious table (c.perform serializer store scope) := by
  cases c with
  | get =>
      refine .bind looks fun slot _ => ?_
      exact .bind (load_keeps_table above slot) fun _ _ => .lift _
  | add value => exact append_cautious above looks [value]
  | addAll values => exact append_cautious above looks values
  | update values =>
      refine .bind looks fun slot _ => ?_
      refine .bind (fun _ => .lift fun _ _ => trivial) fun elements _ => ?_
      exact save_cautious above slot elements
  | clear => exact removeWhole_cautious above looks

end ListCall

/-- A call on an aggregate that is refused leaves the table as it was. -/
theorem ReducingCall.perform_cautious (reduce : V → V → V) (c : ReducingCall V) :
    Action.Cautious table (c.perform serializer reduce store scope) := by
  cases c with
  | get => exact .bind looks fun slot _ => .bind (above.get_keeps slot.whole) fun _ _ => .lift _
  | add value =>
      refine .bind looks fun slot _ => ?_
      refine .bind (above.get_keeps slot.whole) fun found _ => ?_
      refine .bind (fun _ => .lift fun _ _ => trivial) fun aggregate _ => ?_
      refine .bind (fun _ => .lift fun _ _ => trivial) fun bytes _ => ?_
      exact .of_onlyFaults (above.onlyFaults (.put slot.whole bytes))
  | clear => exact removeWhole_cautious above looks

namespace MapCall

variable {keys : Serializer K} {values : Serializer V}

theorem lookup_keeps_table (key : K) (t : Table) :
    Keeps (fun s => table s = t) (lookup keys values store scope key) fun _ => True := by
  refine (looks t).bind fun slot _ => ?_
  refine Keeps.bind (.lift fun _ _ => trivial) fun userKey _ => ?_
  exact (above.get_keeps (slot.entry userKey) t).bind fun _ _ => .lift fun _ _ => trivial

theorem rawEntries_keeps_table (t : Table) :
    Keeps (fun s => table s = t) (rawEntries store scope) fun _ => True :=
  (looks t).bind fun slot _ => above.entries_keeps slot t

/-- A call on a map that is refused leaves the table as it was, if it removes nothing. -/
theorem perform_cautious (c : MapCall K V) (kept : ∀ key, c ≠ .remove key) :
    Action.Cautious table (c.perform keys values store scope) := by
  have listed := rawEntries_keeps_table above looks
  cases c with
  | get key =>
      refine .bind looks fun slot _ => ?_
      refine .bind (fun _ => .lift fun _ _ => trivial) fun userKey _ => ?_
      exact .bind (above.get_keeps (slot.entry userKey)) fun _ _ => .lift _
  | put key value =>
      refine .bind looks fun slot _ => ?_
      refine .bind (fun _ => .lift fun _ _ => trivial) fun userKey _ => ?_
      refine .bind (fun _ => .lift fun _ _ => trivial) fun bytes _ => ?_
      exact .of_onlyFaults (above.onlyFaults (.put (slot.entry userKey) bytes))
  -- the entry would be taken out before it is decoded
  | remove key => exact absurd rfl (kept key)
  | contains key =>
      exact .bind (lookup_keeps_table above looks key) fun _ _ => .pure _
  | keys => exact .bind listed fun _ _ => .lift _
  | values => exact .bind listed fun _ _ => .lift _
  | entries => exact .bind listed fun _ _ => .lift _
  | clear => exact .bind looks fun slot _ => .of_onlyFaults (above.onlyFaults (.clear slot))
  | isEmpty => exact .bind listed fun _ _ => .pure _

/-- A removal that is refused leaves the table as it was, unless it has found its entry: then it has
taken the entry out, and could not decode it. -/
theorem remove_refused {key : K} {s s' : σ} {e : StateError}
    (refused : ((remove key : MapCall K V).perform keys values store scope).perform s =
      (.error e, s')) (returned : e.isFault = false) :
    (table s' = table s ∧ ∀ a userKey, (scope.perform s).1 = .ok a →
      ¬ Loses keys values ((table s).slot a) (.remove key) userKey) ∨
    ∃ a userKey, (scope.perform s).1 = .ok a ∧
      Loses keys values ((table s).slot a) (.remove key) userKey ∧
      table s' = (table s).remove (a.entry userKey) := by
  have same := (looks (table s) s rfl).1
  rw [perform] at refused
  rcases Action.perform_bind_eq_error.1 refused with refused | ⟨a, looked, located, refused⟩
  · -- there is no slot
    rw [refused] at same ⊢
    exact .inl ⟨same, by rintro _ _ ⟨⟩⟩
  rw [located] at same ⊢
  rcases Action.perform_bind_eq_error.1 refused with refused | ⟨userKey, _, serialized, refused⟩
  · -- the user key is not written
    obtain ⟨unwritten, rfl⟩ := Prod.mk.inj refused
    refine .inl ⟨same, ?_⟩
    rintro _ _ - ⟨written, -⟩
    cases unwritten.symm.trans written
  obtain ⟨written, rfl⟩ := Prod.mk.inj serialized
  have after := above.after (.remove (a.entry userKey)) looked
  have answer := above.answer (.remove (a.entry userKey)) looked
  rw [same] at after answer
  rcases Action.perform_bind_eq_error.1 refused with refused | ⟨found, left, removed, refused⟩
  · -- the store is refused with faults only
    rw [above.onlyFaults _ looked e (congrArg Prod.fst refused)] at returned
    cases returned
  rw [Store.remove] at removed
  rw [removed] at after answer
  obtain ⟨undecoded, rfl⟩ := Prod.mk.inj refused
  obtain rfl : found = ((table s).slot a).entries[userKey]? := by
    rcases answer with answered | ⟨-, fault⟩
    · exact Except.ok.inj answered
    · cases fault
  refine .inr ⟨a, userKey, rfl, ⟨written, ?_⟩, after⟩
  cases there : ((table s).slot a).entries[userKey]? with
  | none => rw [there] at undecoded; cases undecoded
  | some bytes =>
      rw [there] at undecoded
      cases read : values.deserialize bytes with
      | error e' => exact ⟨bytes, e', rfl, read⟩
      | ok value => rw [decodeFound, read] at undecoded; cases undecoded

end MapCall

/-- A call that is refused leaves the table as it was, unless it loses an entry. -/
theorem StateSpec.table_of_refused (spec : StateSpec Id) {c : spec.type.Call} {s s' : σ}
    {e : StateError} (refused : (spec.call store scope c).perform s = (.error e, s'))
    (returned : e.isFault = false) :
    (table s' = table s ∧ ∀ a userKey, (scope.perform s).1 = .ok a →
      ¬ spec.Loses ((table s).slot a) c userKey) ∨
    ∃ a userKey, (scope.perform s).1 = .ok a ∧ spec.Loses ((table s).slot a) c userKey ∧
      table s' = (table s).remove (a.entry userKey) := by
  cases spec with
  | value v serializer =>
      exact .inl ⟨ValueCall.perform_cautious above looks c s e s' refused returned,
        fun _ _ _ => id⟩
  | list v serializer =>
      exact .inl ⟨ListCall.perform_cautious above looks c s e s' refused returned,
        fun _ _ _ => id⟩
  | reducing v serializer reduce =>
      exact .inl ⟨ReducingCall.perform_cautious above looks reduce c s e s' refused returned,
        fun _ _ _ => id⟩
  | map k v keys values =>
      by_cases removes : ∃ key, c = MapCall.remove key
      · obtain ⟨key, rfl⟩ := removes
        exact MapCall.remove_refused above looks refused returned
      · push Not at removes
        refine .inl ⟨MapCall.perform_cautious above looks c removes s e s' refused returned, ?_⟩
        intro a userKey _ lost
        change MapCall.Loses keys values ((table s).slot a) c userKey at lost
        cases c with
        | remove key => exact removes key rfl
        | get | put | contains | keys | values | entries | clear | isEmpty => exact lost

end Calls

/-! ## Named states -/

namespace NamedState

variable {keys : Schema} {s : NamedState}

/-- Without expiry, the store of a state shows its table. -/
theorem workspaceStore_over (plain : s.ttl.isEnabled = false) (conditions : Conditions) :
    Store.Over (σ := Workspace keys) (·.table) (s.workspaceStore conditions) := by
  constructor
  · intro r w
    rw [workspaceStore, Store.within, Action.perform_within, store_of_plain plain]
    rfl
  · exact fun r w => (workspaceStore_returns plain conditions w r).weaken fun _ => trivial

/-- Looking for the slot of a state leaves the table as it is. -/
theorem scope_keeps_table (t : Table) :
    Keeps (fun w : Workspace keys => w.table = t) s.scope fun _ => True := by
  have kept := scope_keeps (C := fun _ : KeyContext keys => True) (T := (· = t))
    (S := fun _ => True) (fun _ _ => ⟨trivial, fun _ _ _ => trivial⟩) s
  exact fun w same => ⟨(kept w ⟨trivial, same⟩).1.2, fun _ _ => trivial⟩

/-- The entry at an address is lost with a call of some type on the state. -/
def Loses (s : NamedState) (w : Workspace keys) (type : StateType) (c : type.Call) (a : Address) :
    Prop :=
  ∃ (same : type = s.type) (slot : SlotAddress) (userKey : Bytes),
    (s.scope.perform w).1 = .ok slot ∧
      s.spec.Loses (w.table.slot slot) (same ▸ c : s.type.Call) userKey ∧ a = slot.entry userKey

/-- A call that is refused leaves the table of the state as it was, unless it loses an entry. -/
theorem table_of_refused (plain : s.ttl.isEnabled = false) {conditions : Conditions}
    {type : StateType} {c : type.Call} {w w' : Workspace keys} {e : StateError}
    (refused : (s.callAs conditions type c).perform w = (.error e, w'))
    (returned : e.isFault = false) :
    (w'.table = w.table ∧ ∀ a, ¬ s.Loses w type c a) ∨
      ∃ a, s.Loses w type c a ∧ w'.table = w.table.remove a := by
  rw [callAs] at refused
  split at refused
  · next same =>
      subst same
      rcases StateSpec.table_of_refused (workspaceStore_over plain conditions) scope_keeps_table
        s.spec refused returned with ⟨kept, safe⟩ | ⟨slot, userKey, located, lost, after⟩
      · refine .inl ⟨kept, ?_⟩
        rintro a ⟨same, slot, userKey, located, lost, -⟩
        exact safe slot userKey located lost
      · exact .inr ⟨slot.entry userKey, ⟨rfl, slot, userKey, located, lost, rfl⟩, after⟩
  · next other =>
      cases refused
      exact .inl ⟨rfl, fun a lost => other lost.1.symm⟩

/-- The entry that is lost was there, and it is the only one. -/
theorem Loses.isSome_get_unique {w : Workspace keys} {type : StateType} {c : type.Call}
    {a : Address} (lost : s.Loses w type c a) :
    (w.table.get a).isSome = true ∧ ∀ a', s.Loses w type c a' → a' = a := by
  obtain ⟨same, slot, userKey, located, lost, rfl⟩ := lost
  subst same
  obtain ⟨there, unique⟩ := lost.isSome_entry_unique
  refine ⟨there, ?_⟩
  rintro _ ⟨_, slot', userKey', located', lost', rfl⟩
  obtain rfl : slot = slot' := Except.ok.inj (located.symm.trans located')
  rw [unique userKey' lost']

end NamedState

end KeyedState
