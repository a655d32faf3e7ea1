import KeyedState.Proofs.State.Requests
import KeyedState.Proofs.State.Workspace
import KeyedState.Proofs.Table.Listings

/-!
# What typed calls leave in a table

A typed call leaves in its slot only what a state of its type may store (`StateSpec.Stores`): what
was written for a value, elements of a list of which there is at least one, or entries of a map. It
puts something in only under the current key. So a table whose slots belong to keys, and hold what
may be stored, stays so under the calls of its state (`Table.Guarded`, `NamedState.callAs_guards`).
-/

namespace KeyedState

open Binary (Codec)
open KeyedState.Action (Keeps)

/-! ## What is written is read back -/

/-- If one function takes back what another gives for each element, it does so for the list. -/
theorem exists_mapM_back {α β : Type} {f : α → Except StateError β} {g : β → Except StateError α}
    {l : List α} (each : ∀ a ∈ l, ∃ b, f a = .ok b ∧ g b = .ok a) :
    ∃ l', l.mapM f = .ok l' ∧ l'.mapM g = .ok l := by
  induction l with
  | nil => exact ⟨[], rfl, rfl⟩
  | cons a rest ih =>
      obtain ⟨b, there, back⟩ := each a List.mem_cons_self
      obtain ⟨l', all, allBack⟩ := ih fun a' member => each a' (List.mem_cons_of_mem a member)
      refine ⟨b :: l', ?_, ?_⟩
      · rw [List.mapM_cons, there, all]
        rfl
      · rw [List.mapM_cons, back, allBack]
        rfl

/-- Bytes that were each written for a value are all read back, as the values that they are written
for. -/
theorem Serializer.RoundTrips.exists_mapM {V : Type} {s : Serializer V} {Q : V → Prop}
    (roundTrips : s.RoundTrips Q) {elements : List Bytes}
    (written : ∀ e ∈ elements, ∃ v, s.Writes Q v e) :
    ∃ values, elements.mapM s.deserialize = .ok values ∧
      values.mapM s.serialize = .ok elements := by
  refine exists_mapM_back fun e member => ?_
  obtain ⟨v, hv⟩ := written e member
  exact ⟨v, (roundTrips v e hv).1, hv.2⟩

/-- The values that a state is given are read back as they were written, and aggregates of them are
such values. Maps do not matter here, since nothing of them is read. -/
def StateSpec.RoundTrips (used : Selection) : StateSpec Id → Prop
  | value v serializer => Serializer.RoundTrips serializer (used v)
  | list v serializer => Serializer.RoundTrips serializer (used v)
  | map _ _ _ _ => True
  | reducing v serializer reduce =>
    Serializer.RoundTrips serializer (used v) ∧ ∀ a b, used v a → used v b → used v (reduce a b)

/-! ## Lists of any length -/

namespace ListCall

/-- The number of a list is a word. A list that is too long for it is read back in part. -/
theorem exists_read_encode (elements : List Bytes) (small : ∀ e ∈ elements, e.length < 2 ^ 64) :
    ∃ n, elementsCodec.read (elementsCodec.encode elements) = some (elements.take n) ∧
      (elements.length < 2 ^ 64 → n = elements.length) := by
  have count : (UInt64.ofNat elements.length).toNat = elements.length % 2 ^ 64 :=
    UInt64.toNat_ofNat'
  refine ⟨(UInt64.ofNat elements.length).toNat, ?_, fun room => count.trans (Nat.mod_eq_of_lt room)⟩
  have inside : (UInt64.ofNat elements.length).toNat ≤ elements.length := by
    rw [count]
    exact Nat.mod_le _ _
  have decoded : elementsCodec.decode (elementsCodec.encode elements) =
      Codec.bytes.decodeMany (UInt64.ofNat elements.length).toNat []
        (elements.flatMap Codec.bytes.encode) := by
    simp only [elementsCodec, Codec.list, Codec.length, Codec.u64.decode_encode _ _ trivial,
      Option.map_some, Option.bind_some]
  rw [Codec.read, decoded]
  generalize (UInt64.ofNat elements.length).toNat = n at inside
  -- the elements are those that are read and those behind them
  have many := Codec.bytes.decodeMany_encode (elements.take n) []
    ((elements.drop n).flatMap Codec.bytes.encode)
    fun e member => small e (List.mem_of_mem_take member)
  rw [List.length_take_of_le inside, ← List.flatMap_append, List.take_append_drop] at many
  rw [many]
  rfl

/-- There are no more elements than bytes. -/
theorem length_le_encode (elements : List Bytes) :
    elements.length ≤ (elementsCodec.encode elements).length := by
  have each : elements.length ≤ (elements.flatMap Codec.bytes.encode).length := by
    induction elements with
    | nil => exact Nat.le_refl 0
    | cons e rest ih =>
        have long : 8 ≤ (Codec.bytes.encode e).length := by
          show 8 ≤ (littleEndian 8 _ ++ e).length
          rw [List.length_append, length_littleEndian]
          exact Nat.le_add_right _ _
        rw [List.flatMap_cons, List.length_append, List.length_cons]
        omega
  refine Nat.le_trans each ?_
  show _ ≤ (_ ++ elements.flatMap Codec.bytes.encode).length
  rw [List.length_append]
  exact Nat.le_add_left _ _

end ListCall

/-! ## What may be stored -/

/-- The slot's own value is written for a value of `Q`; there are no entries. -/
def ValueCall.Stores {V : Type} (serializer : Serializer V) (Q : V → Prop)
    (userKey : Option Bytes) (bytes : Bytes) : Prop :=
  userKey = none ∧ ∃ v, serializer.Writes Q v bytes

/-- The slot's own value consists of elements that are written for values of `Q`, at least one. -/
def ListCall.Stores {V : Type} (serializer : Serializer V) (Q : V → Prop)
    (userKey : Option Bytes) (bytes : Bytes) : Prop :=
  userKey = none ∧ ∃ elements, elements ≠ [] ∧ bytes = ListCall.elementsCodec.encode elements ∧
    ∀ e ∈ elements, ∃ v, serializer.Writes Q v e

/-- What a slot may hold, as its own value or under a user key, if the calls on a state are given
selected values only. -/
def StateSpec.Stores (used : Selection) : StateSpec Id → Option Bytes → Bytes → Prop
  | value v serializer => ValueCall.Stores serializer (used v)
  | list v serializer => ListCall.Stores serializer (used v)
  | map _ _ _ _ => fun userKey _ => userKey.isSome = true
  | reducing v serializer _ => ValueCall.Stores serializer (used v)

/-- The call puts a value in. -/
def ValueCall.Puts {V : Type} : ValueCall V → Prop
  | set _ => True
  | _ => False

/-- The call puts an entry in. -/
def MapCall.Puts {K V : Type} : MapCall K V → Prop
  | put _ _ => True
  | _ => False

/-- The call takes a value in. -/
def ReducingCall.Puts {V : Type} : ReducingCall V → Prop
  | add _ => True
  | _ => False

/-- The call leaves something that it was handed over. -/
def StateType.Puts : (t : StateType) → t.Call → Prop
  | value _, c => ValueCall.Puts c
  | list _, c => ListCall.elements c ≠ []
  | map _ _, c => MapCall.Puts c
  | reducing _, c => ReducingCall.Puts c

/-! ## Stores that are guarded -/

section Guards

variable {σ : Type} {I : σ → Prop} {P : Option Bytes → Bytes → Prop} {S : SlotAddress → Prop}

namespace Request

/-- What is put in is legal there, in a slot where something may be. -/
def Legal (P : Option Bytes → Bytes → Prop) (S : SlotAddress → Prop) : Request → Prop
  | put a value => S a.slot ∧ P a.userKey value
  | _ => True

/-- What is got was legal where it was. -/
def Gives (P : Option Bytes → Bytes → Prop) : (r : Request) → r.Reply → Prop
  | get a, found => ∀ value, found = some value → P a.userKey value
  | _, _ => True

end Request

/-- Legal requests keep `I`, under which what is got is legal. -/
def Store.Guards (I : σ → Prop) (P : Option Bytes → Bytes → Prop) (S : SlotAddress → Prop)
    (store : Store σ) : Prop :=
  ∀ r : Request, r.Legal P S → Action.Keeps I (store.perform r) (r.Gives P)

/-- A table of a kind keeps nothing empty, and holds what is legal in slots where something may
be. -/
structure Table.Guarded (kind : StateKind) (P : Option Bytes → Bytes → Prop)
    (S : SlotAddress → Prop) (t : Table) : Prop where
  kind : t.kind = kind
  pruned : t.Pruned
  allowed : ∀ a, t.slot a ≠ .empty → S a
  legal : ∀ a value, t.get a = some value → P a.userKey value

theorem Table.guarded_empty (kind : StateKind) : (empty kind).Guarded kind P S where
  kind := rfl
  pruned := pruned_empty kind
  allowed a holds := absurd (slot_empty kind a) holds
  legal a value found := by
    rw [get, slot_empty, Slot.get_empty] at found
    cases found

/-- Taking something out of a slot does not fill it. -/
theorem Slot.ne_empty_of_remove {s : Slot} {userKey : Option Bytes}
    (holds : s.remove userKey ≠ .empty) : s ≠ .empty := by
  rintro rfl
  obtain ⟨userKey', value, found⟩ := ne_empty_iff.1 holds
  rw [get_remove, get_empty] at found
  split at found <;> cases found

/-- A legal request leaves in its slot what is legal there, and fills it only where something may
be. -/
theorem Request.Legal.change {r : Request} (legal : r.Legal P S) {s : Slot}
    (allowed : s ≠ .empty → S r.slot)
    (stored : ∀ userKey value, s.get userKey = some value → P userKey value) :
    (r.change s ≠ .empty → S r.slot) ∧
      ∀ userKey value, (r.change s).get userKey = some value → P userKey value := by
  cases r with
  | get a => exact ⟨allowed, stored⟩
  | entries a => exact ⟨allowed, stored⟩
  | put a value =>
      refine ⟨fun _ => legal.1, fun userKey value' found => ?_⟩
      rw [Request.change, Slot.get_put] at found
      split at found
      · next here =>
          cases found
          exact here ▸ legal.2
      · exact stored userKey value' found
  | remove a =>
      refine ⟨fun holds => allowed (Slot.ne_empty_of_remove holds), fun userKey value found => ?_⟩
      rw [Request.change, Slot.get_remove] at found
      split at found
      · cases found
      · exact stored userKey value found
  | clear a =>
      refine ⟨fun holds => absurd rfl holds, fun userKey value found => ?_⟩
      rw [Request.change, Slot.get_empty] at found
      cases found

/-- What is got from a guarded table is legal. -/
theorem Table.Guarded.gives {kind : StateKind} {t : Table} (guarded : t.Guarded kind P S)
    (r : Request) : r.Gives P (r.reply (t.slot r.slot)) := by
  cases r with
  | get a => exact guarded.legal a
  | put a value => trivial
  | remove a => trivial
  | entries a => trivial
  | clear a => trivial

/-- Legal requests keep a table guarded. -/
theorem Table.store_guards (kind : StateKind) :
    Table.store.Guards (Table.Guarded kind P S) P S := by
  intro r legal t guarded
  obtain ⟨allowed, stored⟩ := legal.change (s := t.slot r.slot) (guarded.allowed r.slot)
    fun userKey => guarded.legal ⟨r.slot, userKey⟩
  refine ⟨⟨?_, guarded.pruned.perform r, fun b holds => ?_, fun b value found => ?_⟩, ?_⟩
  · exact (t.kind_perform r).trans guarded.kind
  · rw [slot_perform] at holds
    split at holds
    · next here => exact here ▸ allowed holds
    · exact guarded.allowed b holds
  · rw [get_perform] at found
    split at found
    · exact stored b.userKey value found
    · exact guarded.legal b value found
  · intro reply answered
    rw [outcome_perform] at answered
    exact Except.ok.inj answered ▸ guarded.gives r

/-- A request that is sampled is carried out as it is. -/
theorem Tracker.store_guards (accepts : Sample → Bool) {inner : Store σ}
    (hinner : inner.Guards I P S) : (Tracker.store accepts inner).Guards (fun s => I s.1) P S := by
  rintro r legal ⟨s, t⟩ hs
  obtain ⟨kept, gives⟩ := hinner r legal s hs
  refine ⟨kept, fun reply answered => gives reply ?_⟩
  rw [store, Action.perform_of] at answered
  dsimp only at answered
  split at answered
  · exact answered
  · cases answered

end Guards

/-! ## Calls are guarded -/

section Calls

variable {σ V K : Type} {I : σ → Prop} {S : SlotAddress → Prop} {store : Store σ}
  {scope : Action σ SlotAddress} {serializer : Serializer V} {Q : V → Prop}
  {P : Option Bytes → Bytes → Prop}

namespace Store.Guards

variable (hstore : store.Guards I P S)
include hstore

theorem get (slot : SlotAddress) :
    Action.Keeps I (store.get slot.whole) fun found => ∀ value, found = some value → P none value :=
  hstore (.get slot.whole) trivial

theorem put {slot : SlotAddress} (hs : S slot) {value : Bytes} (legal : P none value) :
    Action.Keeps I (store.put slot.whole value) fun _ => True :=
  hstore (.put slot.whole value) ⟨hs, legal⟩

theorem remove (a : Address) : Action.Keeps I (store.remove a) fun _ => True :=
  hstore (.remove a) trivial

end Store.Guards

theorem removeWhole_guards (hstore : store.Guards I P S) {R : SlotAddress → Prop}
    (hscope : Keeps I scope R) : Keeps I (removeWhole store scope) fun _ => True :=
  hscope.bind fun slot _ => (hstore.remove slot.whole).bind fun _ _ => .pure trivial

/-- A call on a value. -/
theorem ValueCall.perform_guards (hstore : store.Guards I (ValueCall.Stores serializer Q) S)
    {c : ValueCall V} (hscope : Keeps I scope fun slot => c.Puts → S slot)
    (within : c.Puts → c.Within Q) : Keeps I (c.perform serializer store scope) fun _ => True := by
  cases c with
  | get =>
      apply hscope.bind
      intro slot _
      apply (hstore.get slot).bind
      intro found _
      exact .lift fun _ _ => trivial
  | set value =>
      apply hscope.bind
      intro slot hs
      refine Keeps.bind (.lift fun _ same => same) fun bytes written => ?_
      exact hstore.put (hs trivial) ⟨rfl, value, within trivial, written⟩
  | clear => exact removeWhole_guards hstore hscope

namespace ListCall

/-- Values of `Q` are written one by one. -/
theorem writes_of_mapM {values : List V} {elements : List Bytes}
    (written : values.mapM serializer.serialize = .ok elements) (within : ∀ v ∈ values, Q v) :
    elements.length = values.length ∧ ∀ e ∈ elements, ∃ v, serializer.Writes Q v e := by
  induction values generalizing elements with
  | nil =>
      cases written
      exact ⟨rfl, fun e member => absurd member List.not_mem_nil⟩
  | cons v rest ih =>
      rw [List.mapM_cons] at written
      cases first : serializer.serialize v with
      | error e => rw [first] at written; cases written
      | ok bytes =>
          cases others : rest.mapM serializer.serialize with
          | error e => rw [first, others] at written; cases written
          | ok elements' =>
              rw [first, others] at written
              cases written
              obtain ⟨length, each⟩ :=
                ih others fun w member => within w (List.mem_cons_of_mem v member)
              refine ⟨congrArg Nat.succ length, fun e member => ?_⟩
              rcases List.mem_cons.1 member with rfl | member
              · exact ⟨v, within v List.mem_cons_self, first⟩
              · exact each e member

/-- The elements that are loaded were written for values of `Q`. -/
theorem load_guards (hstore : store.Guards I (Stores serializer Q) S)
    (roundTrips : serializer.RoundTrips Q) (slot : SlotAddress) :
    Keeps I (load store slot) fun elements => ∀ e ∈ elements, ∃ v, serializer.Writes Q v e := by
  apply (hstore.get slot).bind
  intro found legal
  cases found with
  | none => exact .pure fun e member => absurd member List.not_mem_nil
  | some bytes =>
      obtain ⟨-, elements, -, rfl, each⟩ := legal bytes rfl
      refine .lift fun loaded same => ?_
      -- a list that is too long for its number is cut, and nothing else
      obtain ⟨n, read, -⟩ := exists_read_encode elements fun e member =>
        (each e member).elim fun v hv => (roundTrips v e hv).2
      rw [read] at same
      cases same
      exact fun e member => each e (List.mem_of_mem_take member)

theorem save_guards (hstore : store.Guards I (Stores serializer Q) S) {slot : SlotAddress}
    {elements : List Bytes} (hs : elements ≠ [] → S slot)
    (each : ∀ e ∈ elements, ∃ v, serializer.Writes Q v e) :
    Keeps I (save store slot elements) fun _ => True := by
  rw [save]
  split
  · exact (hstore.remove slot.whole).bind fun _ _ => .pure trivial
  · next some =>
      have nonempty : elements ≠ [] := fun none => some (List.isEmpty_iff.2 none)
      exact hstore.put (hs nonempty) ⟨rfl, elements, nonempty, rfl, each⟩

theorem append_guards (hstore : store.Guards I (Stores serializer Q) S)
    (roundTrips : serializer.RoundTrips Q) {values : List V}
    (hscope : Keeps I scope fun slot => values ≠ [] → S slot) (within : ∀ v ∈ values, Q v) :
    Keeps I (append serializer store scope values) fun _ => True := by
  rw [append]
  split
  · exact .pure trivial
  · next some =>
      apply hscope.bind
      intro slot hs
      apply (load_guards hstore roundTrips slot).bind
      intro elements each
      refine Keeps.bind (.lift fun _ same => same) fun added written => ?_
      have fresh := (writes_of_mapM written within).2
      refine save_guards hstore (fun _ => hs fun none => some (List.isEmpty_iff.2 none)) ?_
      exact fun e member => (List.mem_append.1 member).elim (each e) (fresh e)

/-- A call on a list. -/
theorem perform_guards (hstore : store.Guards I (Stores serializer Q) S)
    (roundTrips : serializer.RoundTrips Q) {c : ListCall V}
    (hscope : Keeps I scope fun slot => c.elements ≠ [] → S slot)
    (within : c.elements ≠ [] → ∀ v ∈ c.elements, Q v) :
    Keeps I (c.perform serializer store scope) fun _ => True := by
  have used : ∀ v ∈ c.elements, Q v := fun v member => within (List.ne_nil_of_mem member) v member
  cases c with
  | get =>
      apply hscope.bind
      intro slot _
      apply (load_guards hstore roundTrips slot).bind
      intro elements _
      exact .lift fun _ _ => trivial
  | add value => exact append_guards hstore roundTrips hscope used
  | addAll values => exact append_guards hstore roundTrips hscope used
  | update values =>
      apply hscope.bind
      intro slot hs
      refine Keeps.bind (.lift fun _ same => same) fun elements written => ?_
      obtain ⟨length, each⟩ := writes_of_mapM written used
      refine save_guards hstore (fun some => hs fun none => some ?_) each
      rw [show values = [] from none] at length
      exact List.eq_nil_of_length_eq_zero length
  | clear => exact removeWhole_guards hstore hscope

end ListCall

/-- A call on a map, where what is put in is legal. -/
theorem MapCall.perform_guards {keys : Serializer K} {values : Serializer V}
    (hstore : store.Guards I P S) {c : MapCall K V}
    (hscope : Keeps I scope fun slot => c.Puts → S slot)
    (legal : ∀ key value, c = .put key value → ∀ userKey bytes, keys.serialize key = .ok userKey →
      values.serialize value = .ok bytes → P (some userKey) bytes) :
    Keeps I (c.perform keys values store scope) fun _ => True := by
  have looked : ∀ key, Keeps I (lookup keys values store scope key) fun _ => True := by
    intro key
    apply hscope.bind
    intro slot _
    apply Keeps.bind (.lift fun _ _ => trivial)
    intro userKey _
    exact (hstore (.get (slot.entry userKey)) trivial).bind fun found _ => .lift fun _ _ => trivial
  have listed : Keeps I (rawEntries store scope) fun _ => True :=
    hscope.bind fun slot _ => hstore (.entries slot) trivial
  cases c with
  | get key => exact looked key
  | put key value =>
      apply hscope.bind
      intro slot hs
      refine Keeps.bind (.lift fun _ same => same) fun userKey writtenKey => ?_
      refine Keeps.bind (.lift fun _ same => same) fun bytes written => ?_
      exact hstore (.put (slot.entry userKey) bytes)
        ⟨hs trivial, legal key value rfl userKey bytes writtenKey written⟩
  | remove key =>
      apply hscope.bind
      intro slot _
      apply Keeps.bind (.lift fun _ _ => trivial)
      intro userKey _
      exact (hstore.remove (slot.entry userKey)).bind fun found _ => .lift fun _ _ => trivial
  | contains key => exact (looked key).bind fun found _ => .pure trivial
  | keys => exact listed.bind fun entries _ => .lift fun _ _ => trivial
  | values => exact listed.bind fun entries _ => .lift fun _ _ => trivial
  | entries => exact listed.bind fun entries _ => .lift fun _ _ => trivial
  | clear => exact hscope.bind fun slot _ => hstore (.clear slot) trivial
  | isEmpty => exact listed.bind fun entries _ => .pure trivial

/-- A call on an aggregate. -/
theorem ReducingCall.perform_guards (hstore : store.Guards I (ValueCall.Stores serializer Q) S)
    (roundTrips : serializer.RoundTrips Q) {reduce : V → V → V}
    (closed : ∀ a b, Q a → Q b → Q (reduce a b)) {c : ReducingCall V}
    (hscope : Keeps I scope fun slot => c.Puts → S slot) (within : c.Puts → c.Within Q) :
    Keeps I (c.perform serializer reduce store scope) fun _ => True := by
  cases c with
  | get =>
      apply hscope.bind
      intro slot _
      apply (hstore.get slot).bind
      intro found _
      exact .lift fun _ _ => trivial
  | add value =>
      apply hscope.bind
      intro slot hs
      apply (hstore.get slot).bind
      intro found legal
      -- an aggregate that is read back is a value of `Q`, and so is the next one
      have read : ∀ current, decodeFound serializer found = .ok (some current) → Q current := by
        intro current same
        cases found with
        | none => cases same
        | some bytes =>
            obtain ⟨-, v, hv⟩ := legal bytes rfl
            rw [decodeFound, (roundTrips v bytes hv).1] at same
            cases same
            exact hv.1
      refine Keeps.bind (.lift fun _ same => same) fun aggregate decoded => ?_
      refine Keeps.bind (.lift fun _ same => same) fun bytes written => ?_
      refine hstore.put (hs trivial) ⟨rfl, _, ?_, written⟩
      cases aggregate with
      | none => exact within trivial
      | some current => exact closed current value (read current decoded) (within trivial)
  | clear => exact removeWhole_guards hstore hscope

/-- A call that is given selected values, and that finds a slot where something may be if it puts
something in, stores what may be stored there. -/
theorem StateSpec.call_guards {used : Selection} {spec : StateSpec Id}
    (hstore : store.Guards I (spec.Stores used) S) (roundTrips : spec.RoundTrips used)
    {c : spec.type.Call} (hscope : Keeps I scope fun slot => spec.type.Puts c → S slot)
    (within : spec.type.Puts c → spec.type.Within used c) :
    Keeps I (spec.call store scope c) fun _ => True := by
  cases spec with
  | value v serializer => exact ValueCall.perform_guards hstore hscope within
  | list v serializer => exact ListCall.perform_guards hstore roundTrips hscope within
  | map k v keys values => exact MapCall.perform_guards hstore hscope fun _ _ _ _ _ _ _ => rfl
  | reducing v serializer reduce =>
      exact ReducingCall.perform_guards hstore roundTrips.1 roundTrips.2 hscope within

end Calls

/-! ## Named states -/

namespace NamedState

variable {keys : Schema} {C : KeyContext keys → Prop} {T : Table → Prop}
  {P : Option Bytes → Bytes → Prop} {S : SlotAddress → Prop}

/-- Without expiry legal requests reach the table as they are. -/
theorem workspaceStore_guards (table : Table.store.Guards T P S) {s : NamedState}
    (plain : s.ttl.isEnabled = false) (c : Conditions) :
    Store.Guards (fun w : Workspace keys => C w.context ∧ T w.table) P S
      (s.workspaceStore c) := by
  intro r legal
  have layered : (s.store c).Guards (fun x => T x.1) P S := by
    rw [store_of_plain plain]
    exact Tracker.store_guards c.accepts table
  exact (layered r legal).within (fun w hw => hw.2) fun w hw part hpart => ⟨hw.1, hpart⟩

/-- A call on a named state stores what may be stored there. -/
theorem callAs_guards {used : Selection} {s : NamedState}
    (table : Table.store.Guards T (s.spec.Stores used) S) (plain : s.ttl.isEnabled = false)
    (roundTrips : s.spec.RoundTrips used) {type : StateType} {c : type.Call}
    (coordinates : Keeps C KeyContext.coordinates fun k =>
      type.Puts c → ∀ ns, S ⟨k.group, k.key, ns⟩)
    (within : type.Puts c → type.Within used c) (conditions : Conditions) :
    Keeps (fun w : Workspace keys => C w.context ∧ T w.table) (s.callAs conditions type c)
      fun _ => True := by
  rw [callAs]
  split
  · next same =>
      subst same
      refine StateSpec.call_guards (workspaceStore_guards table plain conditions) roundTrips ?_
        within
      have current : Keeps (fun w : Workspace keys => C w.context ∧ T w.table)
          (KeyContext.coordinates.within contextPart)
          fun k => s.type.Puts c → ∀ ns, S ⟨k.group, k.key, ns⟩ :=
        coordinates.within (fun w hw => hw.1) fun w hw part hpart => ⟨hpart, hw.2⟩
      apply current.bind
      intro k hk
      cases s.ns with
      | none => exact .lift fun _ same => by cases same
      | some ns => exact .pure fun puts => hk puts ns
  · exact .lift fun _ _ => trivial

end NamedState

end KeyedState
