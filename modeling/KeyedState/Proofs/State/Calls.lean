import KeyedState.Proofs.Action
import KeyedState.Proofs.State.Reference
import KeyedState.Proofs.Table.Requests
import Mathlib.Data.List.Forall2
import Mathlib.Logic.IsEmpty.Basic
import Mathlib.Tactic.Choose

/-!
# Typed calls on a slot

A call that finds its slot, over a store that carries out every request on that slot
(`Store.Serves`), is answered from what the slot holds, and the slot then holds what the call makes
of that (`StateSpec.call_yields`). There is one lemma for each request that a call is made of
(`load_yields`, `save_yields`, `lookup_yields` and so on) and one for each type.

A call that does not find its slot is refused for the same reason and changes nothing, unless it
has nothing to do (`StateSpec.call_refused`).
-/

namespace KeyedState

open Std (ExtTreeMap)
open Binary (Codec)

/-- The requests about a slot are carried out on it; `I` says what the slot of a state holds. -/
def Store.Serves {σ : Type} (I : σ → Slot → Prop) (a : SlotAddress) (store : Store σ) : Prop :=
  ∀ r : Request, r.slot = a → ∀ s, Action.Yields I (store.perform r) s (r.reply s) (r.change s)

/-! ## Lists of serialized values -/

section Lists

variable {α β : Type}

/-- A function that succeeds on the elements of a list succeeds on the list. -/
theorem mapM_ok {f : α → Except StateError β} {l : List α} {l' : List β}
    (h : List.Forall₂ (fun a b => f a = .ok b) l l') : l.mapM f = .ok l' := by
  induction h with
  | nil => rfl
  | cons first _ ih =>
      rw [List.mapM_cons, first, ih]
      rfl

/-- Values of `Q` are written and read back one by one. -/
theorem Serializer.Faithful.mapM {s : Serializer α} {Q : α → Prop} (faithful : s.Faithful Q)
    {values : List α} (used : ∀ v ∈ values, Q v) :
    ∃ elements, values.mapM s.serialize = .ok elements ∧
      elements.mapM s.deserialize = .ok values ∧ elements.length = values.length ∧
      ∀ e ∈ elements, e.length < 2 ^ 64 := by
  induction values with
  | nil => exact ⟨[], rfl, rfl, rfl, fun e member => absurd member List.not_mem_nil⟩
  | cons v rest ih =>
      obtain ⟨bytes, written, readBack, fits⟩ := faithful v (used v List.mem_cons_self)
      obtain ⟨elements, all, back, length, small⟩ :=
        ih fun w member => used w (List.mem_cons_of_mem v member)
      refine ⟨bytes :: elements, ?_, ?_, congrArg Nat.succ length, ?_⟩
      · rw [List.mapM_cons, written, all]
        rfl
      · rw [List.mapM_cons, readBack, back]
        rfl
      · rintro e (_ | ⟨_, member⟩)
        · exact fits
        · exact small e member

end Lists

section Calls

variable {σ V K : Type} {I : σ → Slot → Prop} {a : SlotAddress} {store : Store σ}
  {scope : Action σ SlotAddress} {serializer : Serializer V} {Q : V → Prop} {slot : Slot}

open KeyedState.Action (Yields)

/-! ## Requests of calls -/

/-- The slot's own value is looked up. -/
theorem Store.Serves.get (served : store.Serves I a) (s : Slot) :
    Yields I (store.get a.whole) s s.value s :=
  served (.get a.whole) rfl s

/-- The slot's own value is replaced. -/
theorem Store.Serves.put (served : store.Serves I a) (s : Slot) (value : Bytes) :
    Yields I (store.put a.whole value) s () { s with value := some value } :=
  served (.put a.whole value) rfl s

/-- The slot's own value is removed. -/
theorem Store.Serves.remove (served : store.Serves I a) (s : Slot) :
    Yields I (store.remove a.whole) s s.value { s with value := none } :=
  served (.remove a.whole) rfl s

theorem removeWhole_yields (served : store.Serves I a) (located : ∀ s, Yields I scope s a s) :
    Yields I (removeWhole store scope) slot () { slot with value := none } :=
  (located slot).bind ((served.remove slot).bind (.pure ()))

/-- What was found is read back, if anything was. -/
theorem decodeFound_ok (faithful : serializer.Faithful Q) {x : Option V} {found : Option Bytes}
    (h : Option.Rel (serializer.Writes Q) x found) : decodeFound serializer found = .ok x := by
  cases h with
  | none => rfl
  | some written =>
      rw [decodeFound, (faithful.roundTrips _ _ written).1]
      rfl

/-! ## Values -/

/-- A value that a slot holds is selected. -/
theorem ValueCall.Holds.selected {x : Option V} (holds : Holds serializer Q slot x) {v : V}
    (same : x = some v) : Q v := by
  subst same
  rw [Holds] at holds
  generalize slot.value = found at holds
  cases holds with
  | some written => exact written.1

/-- A call on a value. -/
theorem ValueCall.perform_yields (served : store.Serves I a) (located : ∀ s, Yields I scope s a s)
    (faithful : serializer.Faithful Q) {x : Option V} (holds : Holds serializer Q slot x)
    {c : ValueCall V} (within : c.Within Q) :
    ∃ slot', Yields I (c.perform serializer store scope) slot (c.answer x) slot' ∧
      Holds serializer Q slot' (c.after x) := by
  cases c with
  | get =>
      refine ⟨slot, (located slot).bind ((served.get slot).bind ?_), holds⟩
      exact .lift (decodeFound_ok faithful holds)
  | set value =>
      obtain ⟨bytes, written⟩ := faithful.exists_writes within
      refine ⟨_, (located slot).bind ((Yields.lift written.2).bind (served.put slot bytes)), ?_⟩
      exact .some written
  | clear => exact ⟨_, removeWhole_yields served located, .none⟩

/-! ## Lists -/

namespace ListCall

/-- The serialized elements are loaded. -/
theorem load_yields (served : store.Serves I a) {elements : List Bytes}
    (stored : slot.value = stored elements) (count : elements.length < 2 ^ 64)
    (small : ∀ e ∈ elements, e.length < 2 ^ 64) :
    Yields I (load store a) slot elements slot := by
  apply (served.get slot).bind
  rw [stored, ListCall.stored]
  cases elements with
  | nil => exact .pure []
  | cons e rest =>
      refine .lift ?_
      show Serializer.orMalformed (elementsCodec.read (elementsCodec.encode (e :: rest))) = _
      rw [elementsCodec.read_encode ⟨count, small⟩]
      rfl

/-- Serialized elements are stored. -/
theorem save_yields (served : store.Serves I a) (elements : List Bytes) :
    Yields I (save store a elements) slot () { slot with value := stored elements } := by
  rw [save, stored]
  split
  · exact (served.remove slot).bind (.pure ())
  · exact served.put slot _

/-- Values are written behind those that the slot holds. -/
theorem append_yields (served : store.Serves I a) (located : ∀ s, Yields I scope s a s)
    (faithful : serializer.Faithful Q) {x : List V} (holds : Holds serializer Q slot x)
    (room : x.length < 2 ^ 64) {values : List V} (used : ∀ v ∈ values, Q v) :
    ∃ slot', Yields I (append serializer store scope values) slot () slot' ∧
      Holds serializer Q slot' (x ++ values) := by
  rw [append]
  cases values with
  | nil => exact ⟨slot, .pure (), by rwa [List.append_nil]⟩
  | cons v rest =>
      -- what is stored are the elements of the list, each written by itself
      obtain ⟨elements, written, stored⟩ := holds.stored
      obtain ⟨elements', written', -, length, small⟩ := faithful.mapM holds.used
      cases Except.ok.inj (written.symm.trans written')
      obtain ⟨added, addedWritten, -⟩ := faithful.mapM used
      refine ⟨_, (located slot).bind ((load_yields served stored (length ▸ room) small).bind
        ((Yields.lift addedWritten).bind (save_yields served _))), ?_, elements ++ added, ?_, rfl⟩
      · exact fun w member => (List.mem_append.1 member).elim (holds.used w) (used w)
      · rw [List.mapM_append, written, addedWritten]
        rfl

/-- A call on a list. -/
theorem perform_yields (served : store.Serves I a) (located : ∀ s, Yields I scope s a s)
    (faithful : serializer.Faithful Q) {x : List V} (holds : Holds serializer Q slot x)
    (room : x.length < 2 ^ 64) {c : ListCall V} (within : ∀ v ∈ c.elements, Q v) :
    ∃ slot', Yields I (c.perform serializer store scope) slot (c.answer x) slot' ∧
      Holds serializer Q slot' (c.after x) := by
  cases c with
  | get =>
      obtain ⟨elements, written, stored⟩ := holds.stored
      obtain ⟨elements', written', back, length, small⟩ := faithful.mapM holds.used
      cases Except.ok.inj (written.symm.trans written')
      refine ⟨slot, (located slot).bind
        ((load_yields served stored (length ▸ room) small).bind ?_), holds⟩
      exact .lift back
  | add value => exact append_yields served located faithful holds room within
  | addAll values => exact append_yields served located faithful holds room within
  | update values =>
      obtain ⟨elements, written, -⟩ := faithful.mapM within
      refine ⟨_, (located slot).bind ((Yields.lift written).bind (save_yields served elements)), ?_⟩
      exact ⟨within, elements, written, rfl⟩
  | clear =>
      refine ⟨_, removeWhole_yields served located, ?_, [], rfl, rfl⟩
      exact fun v member => absurd member List.not_mem_nil

end ListCall

/-! ## Aggregates -/

/-- A call on an aggregate. -/
theorem ReducingCall.perform_yields (served : store.Serves I a)
    (located : ∀ s, Yields I scope s a s) (faithful : serializer.Faithful Q) {reduce : V → V → V}
    (closed : ∀ v w, Q v → Q w → Q (reduce v w)) {added : List V}
    (holds : ValueCall.Holds serializer Q slot (aggregate reduce added)) {c : ReducingCall V}
    (within : c.Within Q) :
    ∃ slot', Yields I (c.perform serializer reduce store scope) slot (c.answer reduce added) slot' ∧
      ValueCall.Holds serializer Q slot' (aggregate reduce (c.after added)) := by
  cases c with
  | get =>
      refine ⟨slot, (located slot).bind ((served.get slot).bind ?_), holds⟩
      exact .lift (decodeFound_ok faithful holds)
  | add value =>
      -- the aggregate that is written is a selected value
      have used : ∀ v, aggregate reduce (added ++ [value]) = some v → Q v := by
        intro v same
        rw [aggregate_append] at same
        cases found : aggregate reduce added with
        | none =>
            rw [found] at same
            cases same
            exact within
        | some current =>
            rw [found] at same
            cases same
            exact closed current value (holds.selected found) within
      obtain ⟨bytes, written⟩ :=
        faithful.exists_writes (used _ (aggregate_append reduce added value))
      refine ⟨{ slot with value := some bytes }, (located slot).bind ((served.get slot).bind
        ((Yields.lift (decodeFound_ok faithful holds)).bind
          ((Yields.lift written.2).bind (served.put slot bytes)))), ?_⟩
      rw [ValueCall.Holds, after, aggregate_append]
      exact .some written
  | clear => exact ⟨_, removeWhole_yields served located, .none⟩

/-! ## Maps -/

namespace MapCall

variable {keys : Serializer K} {values : Serializer V} {P : K → Prop} {m : K → Option V}

/-- What is stored under a serialized user key is the value of that key. -/
theorem Holds.found (holds : Holds keys values P Q slot m) (faithful : keys.Faithful P)
    (faithful' : values.Faithful Q) {key : K} {x : Bytes} (written : keys.Writes P key x) :
    Option.Rel (values.Writes Q) (m key) (slot.get (some x)) := by
  -- a key is found under its bytes only, since no other key is written so
  cases stored : slot.get (some x) with
  | some y =>
      obtain ⟨k, v, present, hx, hy⟩ := (holds.stored x y).1 stored
      obtain ⟨hk, hv⟩ := holds.used k v present
      obtain rfl := faithful.roundTrips.inj ⟨hk, hx⟩ written
      rw [present]
      exact .some ⟨hv, hy⟩
  | none =>
      cases present : m key with
      | none => exact .none
      | some v =>
          obtain ⟨y, hy⟩ := faithful'.exists_writes (holds.used key v present).2
          have := (holds.stored x y).2 ⟨key, v, present, written.2, hy.2⟩
          rw [stored] at this
          cases this

/-- One key holds something else, or nothing any more, in the slot and in the map. -/
theorem Holds.alter [DecidableEq K] (holds : Holds keys values P Q slot m)
    (faithful : keys.Faithful P) {key : K} {x : Bytes} (written : keys.Writes P key x)
    {w : Option V} {y : Option Bytes} (altered : Option.Rel (values.Writes Q) w y) {slot' : Slot}
    (slot_at : ∀ u, slot'.get u = if some x = u then y else slot.get u)
    {m' : K → Option V} (map_at : ∀ k, m' k = if k = key then w else m k) :
    Holds keys values P Q slot' m' where
  used k v present := by
    rw [map_at] at present
    -- the altered key holds a selected value; the others hold what they held
    split at present
    · next same =>
        subst same present
        cases altered with
        | some value => exact ⟨written.1, value.1⟩
    · exact holds.used k v present
  stored x' y' := by
    rw [slot_at]
    constructor
    · intro found
      split at found
      · next same =>
          cases same
          subst found
          cases altered with
          | some value => exact ⟨key, _, by rw [map_at, if_pos rfl], written.2, value.2⟩
      · next other =>
          obtain ⟨k, v, present, hx, hy⟩ := (holds.stored x' y').1 found
          refine ⟨k, v, ?_, hx, hy⟩
          have differs : ¬ k = key := by
            rintro rfl
            exact other (congrArg some (Except.ok.inj (written.2.symm.trans hx)))
          rw [map_at, if_neg differs, present]
    · rintro ⟨k, v, present, hx, hy⟩
      rw [map_at] at present
      split at present
      · next same =>
          subst same present
          rw [if_pos (congrArg some (Except.ok.inj (written.2.symm.trans hx)))]
          cases altered with
          | some value => exact congrArg some (Except.ok.inj (value.2.symm.trans hy))
      · next other =>
          have differs : ¬ some x = some x' := by
            rintro ⟨⟩
            exact other (faithful.roundTrips.inj ⟨(holds.used k v present).1, hx⟩ written)
          rw [if_neg differs]
          exact (holds.stored x' y').2 ⟨k, v, present, hx, hy⟩

/-- An empty slot holds the map without keys. -/
theorem holds_empty : Holds keys values P Q .empty fun _ => none where
  used k v present := by cases present
  stored x y := by
    constructor
    · intro found
      rw [Slot.get_empty] at found
      cases found
    · rintro ⟨k, v, present, -⟩
      cases present

/-- The entries of a slot are the listing of the map, serialized. -/
theorem Holds.exists_listing (holds : Holds keys values P Q slot m) (faithful : keys.Faithful P)
    (faithful' : values.Faithful Q) :
    ∃ listed, Lists keys.Precedes m listed ∧
      List.Forall₂ (fun e p => keys.deserialize e.1 = .ok p.1 ∧ values.deserialize e.2 = .ok p.2)
        slot.entries.toList listed := by
  -- each entry is read as the key and the value that it was written for
  have entry : ∀ e ∈ slot.entries.toList, ∃ p : K × V, m p.1 = some p.2 ∧
      keys.Writes P p.1 e.1 ∧ values.Writes Q p.2 e.2 := by
    rintro ⟨x, y⟩ member
    obtain ⟨k, v, present, hx, hy⟩ :=
      (holds.stored x y).1 (ExtTreeMap.mem_toList_iff_getElem?_eq_some.1 member)
    obtain ⟨hk, hv⟩ := holds.used k v present
    exact ⟨(k, v), present, ⟨hk, hx⟩, hv, hy⟩
  -- a key to read from each entry can only be chosen if there are any keys
  rcases isEmpty_or_nonempty (K × V) with none | some
  · refine ⟨[], ⟨.nil, fun k v => none.elim (k, v)⟩, ?_⟩
    rw [List.eq_nil_iff_forall_not_mem.2 fun e member => none.elim (entry e member).choose]
    exact .nil
  choose! read present hx hy using entry
  refine ⟨slot.entries.toList.map read, ⟨?_, fun k v => ⟨fun listed => ?_, fun held => ?_⟩⟩, ?_⟩
  · rw [List.pairwise_map]
    refine List.Pairwise.imp_of_mem (fun {e e'} member member' less => ?_)
      (ExtTreeMap.ordered_keys_toList (t := slot.entries))
    exact ⟨e.1, e'.1, (hx e member).2, (hx e' member').2, less⟩
  · obtain ⟨e, member, same⟩ := List.mem_map.1 listed
    have := present e member
    rwa [same] at this
  · obtain ⟨hk, hv⟩ := holds.used k v held
    obtain ⟨x, wx⟩ := faithful.exists_writes hk
    obtain ⟨y, wy⟩ := faithful'.exists_writes hv
    have member : (x, y) ∈ slot.entries.toList :=
      ExtTreeMap.mem_toList_iff_getElem?_eq_some.2
        ((holds.stored x y).2 ⟨k, v, held, wx.2, wy.2⟩)
    refine List.mem_map.2 ⟨(x, y), member, ?_⟩
    exact Prod.ext (faithful.roundTrips.inj (hx _ member) wx)
      (faithful'.roundTrips.inj (hy _ member) wy)
  · rw [List.forall₂_map_right_iff, List.forall₂_same]
    exact fun e member => ⟨(faithful.roundTrips _ _ (hx e member)).1,
      (faithful'.roundTrips _ _ (hy e member)).1⟩

/-- The value of a user key is looked up. -/
theorem lookup_yields (served : store.Serves I a) (located : ∀ s, Yields I scope s a s)
    (faithful : keys.Faithful P) (faithful' : values.Faithful Q)
    (holds : Holds keys values P Q slot m) {key : K} (used : P key) :
    Yields I (lookup keys values store scope key) slot (m key) slot := by
  obtain ⟨x, written⟩ := faithful.exists_writes used
  refine (located slot).bind ((Yields.lift written.2).bind ?_)
  refine Yields.bind (served (.get (a.entry x)) rfl slot) (.lift ?_)
  exact decodeFound_ok faithful' (holds.found faithful faithful' written)

/-- The entries of the slot are listed. -/
theorem rawEntries_yields (served : store.Serves I a) (located : ∀ s, Yields I scope s a s) :
    Yields I (rawEntries store scope) slot slot.entries.toList slot :=
  (located slot).bind (served (.entries a) rfl slot)

/-- A call on a map. -/
theorem perform_yields [DecidableEq K] (served : store.Serves I a)
    (located : ∀ s, Yields I scope s a s) (faithful : keys.Faithful P)
    (faithful' : values.Faithful Q) (holds : Holds keys values P Q slot m) {c : MapCall K V}
    (within : c.Within P Q) :
    ∃ (reply : c.Reply) (slot' : Slot),
      Yields I (c.perform keys values store scope) slot reply slot' ∧
        c.Answers keys.Precedes m reply ∧ Holds keys values P Q slot' (c.after m) := by
  -- a call on one key alters the entry of its bytes; a listing reads all entries
  cases c with
  | get key =>
      exact ⟨_, slot, lookup_yields served located faithful faithful' holds within, rfl, holds⟩
  | put key value =>
      obtain ⟨x, wx⟩ := faithful.exists_writes within.1
      obtain ⟨y, wy⟩ := faithful'.exists_writes within.2
      refine ⟨(), _, (located slot).bind ((Yields.lift wx.2).bind ((Yields.lift wy.2).bind
        (served (.put (a.entry x) y) rfl slot))), trivial, ?_⟩
      exact holds.alter faithful wx (.some wy) (Slot.get_put slot y (some x)) fun _ => rfl
  | remove key =>
      obtain ⟨x, wx⟩ := faithful.exists_writes within
      refine ⟨m key, _, (located slot).bind ((Yields.lift wx.2).bind (Yields.bind
        (served (.remove (a.entry x)) rfl slot) (.lift ?_))), rfl, ?_⟩
      · exact decodeFound_ok faithful' (holds.found faithful faithful' wx)
      · exact holds.alter faithful wx .none (Slot.get_remove slot (some x)) fun _ => rfl
  | contains key =>
      exact ⟨_, slot, (lookup_yields served located faithful faithful' holds within).bind
        (.pure _), rfl, holds⟩
  | keys =>
      obtain ⟨listed, lists, read⟩ := holds.exists_listing faithful faithful'
      refine ⟨_, slot, (rawEntries_yields served located).bind (.lift (mapM_ok ?_)),
        ⟨listed, lists, rfl⟩, holds⟩
      exact List.forall₂_map_right_iff.2 (read.imp fun _ _ both => both.1)
  | values =>
      obtain ⟨listed, lists, read⟩ := holds.exists_listing faithful faithful'
      refine ⟨_, slot, (rawEntries_yields served located).bind (.lift (mapM_ok ?_)),
        ⟨listed, lists, rfl⟩, holds⟩
      exact List.forall₂_map_right_iff.2 (read.imp fun _ _ both => both.2)
  | entries =>
      obtain ⟨listed, lists, read⟩ := holds.exists_listing faithful faithful'
      refine ⟨_, slot, (rawEntries_yields served located).bind (.lift (mapM_ok ?_)), lists, holds⟩
      apply read.imp
      intro e p both
      rw [both.1, both.2]
      rfl
  | clear =>
      exact ⟨(), .empty, (located slot).bind (served (.clear a) rfl slot), trivial, holds_empty⟩
  | isEmpty =>
      obtain ⟨listed, lists, read⟩ := holds.exists_listing faithful faithful'
      refine ⟨_, slot, (rawEntries_yields served located).bind (.pure _), ?_, holds⟩
      rw [Answers, List.isEmpty_iff_length_eq_zero, read.length_eq, List.length_eq_zero_iff]
      exact lists.eq_nil_iff

end MapCall

/-! ## All types -/

namespace StateSpec

variable {used : Selection} {spec : StateSpec Id}

/-- An empty slot holds nothing. -/
theorem holds_empty (used : Selection) (spec : StateSpec Id) :
    spec.Holds used .empty spec.type.nothing := by
  cases spec with
  | value v serializer => exact .none
  | list v serializer =>
      exact ⟨fun v member => absurd member List.not_mem_nil, [], rfl, rfl⟩
  | map k v keys values => exact MapCall.holds_empty
  | reducing v serializer reduce => exact .none

open Classical in
/-- A call is answered from what the slot holds, which then is what the call makes of it. -/
theorem call_yields (served : store.Serves I a) (located : ∀ s, Yields I scope s a s)
    (faithful : spec.Faithful used) {x : spec.type.Content} (holds : spec.Holds used slot x)
    (room : spec.type.FitsMemory x) {c : spec.type.Call} (within : spec.type.Within used c) :
    ∃ (reply : spec.type.Reply c) (slot' : Slot),
      Yields I (spec.call store scope c) slot reply slot' ∧
        spec.Answers c x reply ∧ spec.Holds used slot' (spec.type.after c x) := by
  cases spec with
  | value v serializer =>
      obtain ⟨slot', yields, holds'⟩ :=
        ValueCall.perform_yields served located faithful holds (c := c) within
      exact ⟨_, slot', yields, rfl, holds'⟩
  | list v serializer =>
      obtain ⟨slot', yields, holds'⟩ :=
        ListCall.perform_yields served located faithful holds room (c := c) within
      exact ⟨_, slot', yields, rfl, holds'⟩
  | map k v keys values =>
      exact MapCall.perform_yields served located faithful.1 faithful.2 holds (c := c) within
  | reducing v serializer reduce =>
      obtain ⟨slot', yields, holds'⟩ :=
        ReducingCall.perform_yields served located faithful.1 faithful.2 holds (c := c) within
      exact ⟨_, slot', yields, rfl, holds'⟩

end StateSpec

end Calls

/-! ## Calls without a slot -/

section Refusals

variable {σ : Type} {store : Store σ} {scope : Action σ SlotAddress} {s s' : σ} {e : StateError}

open KeyedState.Action (perform_bind_error)

namespace ListCall

variable {V : Type} (serializer : Serializer V) {values : List V}

theorem append_refused (refused : scope.perform s = (.error e, s'))
    (busy : values.isEmpty = false) :
    (append serializer store scope values).perform s = (.error e, s') := by
  rw [append, if_neg (Bool.eq_false_iff.1 busy)]
  exact perform_bind_error refused _

theorem append_idle (idle : values.isEmpty = true) (s : σ) :
    (append serializer store scope values).perform s = (.ok (), s) := by
  rw [append, if_pos idle]
  rfl

end ListCall

/-- A call that has something to do and does not find its slot is refused for the same reason. -/
theorem StateSpec.call_refused (refused : scope.perform s = (.error e, s')) (spec : StateSpec Id)
    {c : spec.type.Call} (busy : spec.type.isIdle c = false) :
    (spec.call store scope c).perform s = (.error e, s') := by
  -- every such call looks for its slot before anything else
  cases spec with
  | value v serializer => cases c <;> exact perform_bind_error refused _
  | list v serializer =>
      cases c with
      | addAll values => exact ListCall.append_refused serializer refused busy
      | get => exact perform_bind_error refused _
      | add value => exact perform_bind_error refused _
      | update values => exact perform_bind_error refused _
      | clear => exact perform_bind_error refused _
  | map k v keys values =>
      cases c with
      | contains key => exact perform_bind_error (perform_bind_error refused _) _
      | keys => exact perform_bind_error (perform_bind_error refused _) _
      | values => exact perform_bind_error (perform_bind_error refused _) _
      | entries => exact perform_bind_error (perform_bind_error refused _) _
      | isEmpty => exact perform_bind_error (perform_bind_error refused _) _
      | get key => exact perform_bind_error refused _
      | put key value => exact perform_bind_error refused _
      | remove key => exact perform_bind_error refused _
      | clear => exact perform_bind_error refused _
  | reducing v serializer reduce => cases c <;> exact perform_bind_error refused _

/-- A call that has nothing to do looks for no slot. -/
theorem StateSpec.call_idle (spec : StateSpec Id) {c : spec.type.Call}
    (idle : spec.type.isIdle c = true) (s : σ) :
    ∃ reply, (spec.call store scope c).perform s = (.ok reply, s) := by
  cases spec with
  | list v serializer =>
      cases c with
      | addAll values => exact ⟨(), ListCall.append_idle serializer idle s⟩
      | get => cases idle
      | add value => cases idle
      | update values => cases idle
      | clear => cases idle
  | value v serializer => cases idle
  | map k v keys values => cases idle
  | reducing v serializer reduce => cases idle

end Refusals

end KeyedState
