import KeyedState.Proofs.Action
import KeyedState.Proofs.Table.Requests
import KeyedState.State.Named

/-!
# Where typed calls go

A typed call makes requests to its store, and all of them are about the slot that its scope
gives (`StateSpec.call_keeps`). So do the layers of a store: a request through them becomes
requests about the same slot (`Ttl.store_keeps`, `Tracker.store_keeps`). Whatever invariant
such requests keep is kept by every call on a named state (`NamedState.call_keeps`).
-/

namespace KeyedState

open KeyedState.Action (Keeps)

/-- The requests about slots with the property `S` keep an invariant. -/
def Store.Keeps {σ : Type} (I : σ → Prop) (S : SlotAddress → Prop) (store : Store σ) : Prop :=
  ∀ r : Request, S r.slot → Action.Keeps I (store.perform r) fun _ => True

/-! ## Typed calls -/

section Calls

variable {σ V K : Type} {I : σ → Prop} {S : SlotAddress → Prop} {store : Store σ}
  {scope : Action σ SlotAddress}

theorem removeWhole_keeps (hstore : store.Keeps I S) (hscope : Keeps I scope S) :
    Keeps I (removeWhole store scope) fun _ => True :=
  hscope.bind fun slot hs => (hstore (.remove slot.whole) hs).bind fun _ _ => .pure trivial

/-- The requests of a call on a value. -/
theorem ValueCall.perform_keeps (hstore : store.Keeps I S) (hscope : Keeps I scope S)
    (serializer : Serializer V) (c : ValueCall V) :
    Keeps I (c.perform serializer store scope) fun _ => True := by
  cases c with
  | get =>
      apply hscope.bind
      intro slot hs
      apply (hstore (.get slot.whole) hs).bind
      intro found _
      exact .lift fun _ _ => trivial
  | set value =>
      apply hscope.bind
      intro slot hs
      apply Keeps.bind (.lift fun _ _ => trivial)
      intro bytes _
      exact hstore (.put slot.whole bytes) hs
  | clear => exact removeWhole_keeps hstore hscope

namespace ListCall

theorem load_keeps (hstore : store.Keeps I S) {slot : SlotAddress} (hs : S slot) :
    Keeps I (load store slot) fun _ => True := by
  apply (hstore (.get slot.whole) hs).bind
  intro found _
  cases found with
  | none => exact .pure trivial
  | some bytes => exact .lift fun _ _ => trivial

theorem save_keeps (hstore : store.Keeps I S) {slot : SlotAddress} (hs : S slot)
    (elements : List Bytes) : Keeps I (save store slot elements) fun _ => True := by
  rw [save]
  split
  · exact (hstore (.remove slot.whole) hs).bind fun _ _ => .pure trivial
  · exact hstore (.put slot.whole _) hs

theorem append_keeps (hstore : store.Keeps I S) (hscope : Keeps I scope S)
    (serializer : Serializer V) (values : List V) :
    Keeps I (append serializer store scope values) fun _ => True := by
  rw [append]
  split
  · exact .pure trivial
  · apply hscope.bind
    intro slot hs
    apply (load_keeps hstore hs).bind
    intro elements _
    apply Keeps.bind (.lift fun _ _ => trivial)
    intro added _
    exact save_keeps hstore hs _

/-- The requests of a call on a list. -/
theorem perform_keeps (hstore : store.Keeps I S) (hscope : Keeps I scope S)
    (serializer : Serializer V) (c : ListCall V) :
    Keeps I (c.perform serializer store scope) fun _ => True := by
  cases c with
  | get =>
      apply hscope.bind
      intro slot hs
      apply (load_keeps hstore hs).bind
      intro elements _
      exact .lift fun _ _ => trivial
  | add value => exact append_keeps hstore hscope serializer [value]
  | addAll values => exact append_keeps hstore hscope serializer values
  | update values =>
      apply hscope.bind
      intro slot hs
      apply Keeps.bind (.lift fun _ _ => trivial)
      intro elements _
      exact save_keeps hstore hs elements
  | clear => exact removeWhole_keeps hstore hscope

end ListCall

namespace MapCall

variable {keys : Serializer K} {values : Serializer V}

theorem lookup_keeps (hstore : store.Keeps I S) (hscope : Keeps I scope S) (key : K) :
    Keeps I (lookup keys values store scope key) fun _ => True := by
  apply hscope.bind
  intro slot hs
  apply Keeps.bind (.lift fun _ _ => trivial)
  intro userKey _
  exact (hstore (.get (slot.entry userKey)) hs).bind fun found _ => .lift fun _ _ => trivial

theorem rawEntries_keeps (hstore : store.Keeps I S) (hscope : Keeps I scope S) :
    Keeps I (rawEntries store scope) fun _ => True :=
  hscope.bind fun slot hs => hstore (.entries slot) hs

/-- The requests of a call on a map. -/
theorem perform_keeps (hstore : store.Keeps I S) (hscope : Keeps I scope S) (c : MapCall K V) :
    Keeps I (c.perform keys values store scope) fun _ => True := by
  cases c with
  | get key => exact lookup_keeps hstore hscope key
  | put key value =>
      apply hscope.bind
      intro slot hs
      apply Keeps.bind (.lift fun _ _ => trivial)
      intro userKey _
      apply Keeps.bind (.lift fun _ _ => trivial)
      intro bytes _
      exact hstore (.put (slot.entry userKey) bytes) hs
  | remove key =>
      apply hscope.bind
      intro slot hs
      apply Keeps.bind (.lift fun _ _ => trivial)
      intro userKey _
      apply (hstore (.remove (slot.entry userKey)) hs).bind
      intro found _
      exact .lift fun _ _ => trivial
  | contains key => exact (lookup_keeps hstore hscope key).bind fun found _ => .pure trivial
  | keys => exact (rawEntries_keeps hstore hscope).bind fun _ _ => .lift fun _ _ => trivial
  | values => exact (rawEntries_keeps hstore hscope).bind fun _ _ => .lift fun _ _ => trivial
  | entries => exact (rawEntries_keeps hstore hscope).bind fun _ _ => .lift fun _ _ => trivial
  | clear => exact hscope.bind fun slot hs => hstore (.clear slot) hs
  | isEmpty => exact (rawEntries_keeps hstore hscope).bind fun _ _ => .pure trivial

end MapCall

/-- The requests of a call on an aggregate. -/
theorem ReducingCall.perform_keeps (hstore : store.Keeps I S) (hscope : Keeps I scope S)
    (serializer : Serializer V) (reduce : V → V → V) (c : ReducingCall V) :
    Keeps I (c.perform serializer reduce store scope) fun _ => True := by
  cases c with
  | get =>
      apply hscope.bind
      intro slot hs
      apply (hstore (.get slot.whole) hs).bind
      intro found _
      exact .lift fun _ _ => trivial
  | add value =>
      apply hscope.bind
      intro slot hs
      apply (hstore (.get slot.whole) hs).bind
      intro found _
      apply Keeps.bind (.lift fun _ _ => trivial)
      intro aggregate _
      apply Keeps.bind (.lift fun _ _ => trivial)
      intro bytes _
      exact hstore (.put slot.whole bytes) hs
  | clear => exact removeWhole_keeps hstore hscope

/-- All requests of a call are about the slot of its scope. -/
theorem StateSpec.call_keeps (hstore : store.Keeps I S) (hscope : Keeps I scope S)
    (spec : StateSpec Id) (c : spec.type.Call) :
    Keeps I (spec.call store scope c) fun _ => True := by
  cases spec with
  | value v serializer => exact ValueCall.perform_keeps hstore hscope serializer c
  | list v serializer => exact ListCall.perform_keeps hstore hscope serializer c
  | map k v keys values => exact MapCall.perform_keeps hstore hscope c
  | reducing v serializer reduce =>
      exact ReducingCall.perform_keeps hstore hscope serializer reduce c

end Calls

/-! ## Layers -/

section Layers

variable {σ : Type} {I : σ → Prop} {S : SlotAddress → Prop} {inner : Store σ}

namespace Ttl

variable (c : TtlConfig) (now : UInt64)

theorem deliver_keeps (hinner : inner.Keeps I S) {a : Address} (ha : S a.slot) (stored : Bytes) :
    Keeps I (deliver c now inner a stored) fun _ => True := by
  apply Keeps.bind (.lift fun _ _ => trivial)
  rintro ⟨stamp, value⟩ _
  dsimp only
  split
  · split
    · exact .pure trivial
    · exact (hinner (.remove a) ha).bind fun _ _ => .pure trivial
  · split
    · exact (hinner (.put a _) ha).bind fun _ _ => .pure trivial
    · exact .pure trivial

theorem deliverAll_keeps (hinner : inner.Keeps I S) {s : SlotAddress} (hs : S s)
    (listed : List (Bytes × Bytes)) : Keeps I (deliverAll c now inner s listed) fun _ => True := by
  induction listed with
  | nil => exact .pure trivial
  | cons e rest ih =>
      apply (deliver_keeps c now hinner (a := s.entry e.1) hs e.2).bind
      intro value _
      exact ih.bind fun live _ => .pure trivial

/-- A request behind expiry becomes requests about the same slot. -/
theorem store_keeps (hinner : inner.Keeps I S) : (store c now inner).Keeps I S := by
  intro r hr
  cases r with
  | get a =>
      apply (hinner (.get a) hr).bind
      intro found _
      cases found with
      | none => exact .pure trivial
      | some stored => exact deliver_keeps c now hinner hr stored
  | put a value => exact hinner (.put a _) hr
  | remove a =>
      apply (hinner (.remove a) hr).bind
      intro found _
      cases found with
      | none => exact .pure trivial
      | some stored => exact Keeps.bind (.lift fun _ _ => trivial) fun _ _ => .pure trivial
  | entries s => exact (hinner (.entries s) hr).bind fun listed _ =>
      deliverAll_keeps c now hinner hr listed
  | clear s => exact hinner (.clear s) hr

end Ttl

/-- A request that is sampled is carried out as it is. -/
theorem Tracker.store_keeps (accepts : Sample → Bool) (hinner : inner.Keeps I S) :
    (Tracker.store accepts inner).Keeps (fun s => I s.1) S :=
  fun r hr s hs => ⟨(hinner r hr s.1 hs).1, fun _ _ => trivial⟩

end Layers

/-! ## Named states -/

namespace NamedState

variable {keys : Schema} {C : KeyContext keys → Prop} {T : Table → Prop} {S : SlotAddress → Prop}

/-- The layers of a named state make requests to its table about the same slot. -/
theorem workspaceStore_keeps (table : Table.store.Keeps T S) (s : NamedState) (c : Conditions) :
    Store.Keeps (fun w : Workspace keys => C w.context ∧ T w.table) S (s.workspaceStore c) := by
  have layered : (s.store c).Keeps (fun x => T x.1) S := by
    apply Tracker.store_keeps c.accepts
    split
    · exact Ttl.store_keeps s.ttl c.now table
    · exact table
  intro r hr
  exact (layered r hr).within (fun w hw => hw.2) fun w hw part hpart => ⟨hw.1, hpart⟩

/-- The scope of a named state is a slot of the current key. -/
theorem scope_keeps
    (coordinates : Keeps C KeyContext.coordinates fun k => ∀ ns, S ⟨k.group, k.key, ns⟩)
    (s : NamedState) : Keeps (fun w : Workspace keys => C w.context ∧ T w.table) s.scope S := by
  have current : Keeps (fun w : Workspace keys => C w.context ∧ T w.table)
      (KeyContext.coordinates.within contextPart) fun k => ∀ ns, S ⟨k.group, k.key, ns⟩ :=
    coordinates.within (fun w hw => hw.1) fun w hw part hpart => ⟨hpart, hw.2⟩
  apply current.bind
  intro k hk
  cases s.ns with
  | none => exact .lift fun _ same => by cases same
  | some ns => exact .pure (hk ns)

/-- A call on a named state keeps what finding its slot keeps and requests about the slots that may be
found keep of the table. -/
theorem callAs_keeps_of_scope (table : Table.store.Keeps T S) {s : NamedState}
    (scope : Keeps (fun w : Workspace keys => C w.context ∧ T w.table) s.scope S)
    (conditions : Conditions) (type : StateType) (c : type.Call) :
    Keeps (fun w : Workspace keys => C w.context ∧ T w.table) (s.callAs conditions type c)
      fun _ => True := by
  rw [callAs]
  split
  · next same =>
      subst same
      exact StateSpec.call_keeps (workspaceStore_keeps table s conditions) scope s.spec c
  · exact .lift fun _ _ => trivial

/-- A call on a named state keeps what looking up the current key keeps of the context and requests
about the slots of that key keep of the table. -/
theorem callAs_keeps (table : Table.store.Keeps T S)
    (coordinates : Keeps C KeyContext.coordinates fun k => ∀ ns, S ⟨k.group, k.key, ns⟩)
    (s : NamedState) (conditions : Conditions) (type : StateType) (c : type.Call) :
    Keeps (fun w : Workspace keys => C w.context ∧ T w.table) (s.callAs conditions type c)
      fun _ => True :=
  callAs_keeps_of_scope table (scope_keeps coordinates s) conditions type c

end NamedState

end KeyedState
