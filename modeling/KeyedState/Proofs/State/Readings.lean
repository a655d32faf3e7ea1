import KeyedState.Proofs.State.Presence

/-!
# What is read, and what a query is answered with

A query for a slot is answered with the bytes that are stored, and for a map with its entries as one
value (`Slot.serialized`). A typed state reads values. Both say the same as long as slots hold what
the calls of the type leave there: a query is answered with what the values that are read are
written as (`StateSpec.Encodes`, `StateSpec.exists_read`). Of a map this asks more of a slot than
its presence does: user keys and values have to be written for selected ones
(`StateSpec.Retains`), which calls see to as well (`NamedState.callAs_retains`).
-/

namespace KeyedState

open Std (ExtTreeMap)
open KeyedState.Action (Keeps)

/-! ## What may be stored, with maps -/

/-- The entry is written for a user key of `P` and a value of `Q`; there is no own value. -/
def MapCall.Stores {K V : Type} (keys : Serializer K) (values : Serializer V) (P : K → Prop)
    (Q : V → Prop) (userKey : Option Bytes) (bytes : Bytes) : Prop :=
  ∃ x, userKey = some x ∧ (∃ key, keys.Writes P key x) ∧ ∃ value, values.Writes Q value bytes

namespace StateSpec

/-- What a slot may hold if the calls on a state are given selected values only; of a map, entries
that are written for selected user keys and values. -/
def Retains (used : Selection) : StateSpec Id → Option Bytes → Bytes → Prop
  | map k v keys values => MapCall.Stores keys values (used k) (used v)
  | spec => spec.Stores used

/-- The values that a state is given are read back as they were written, also the user keys and the
values of a map. -/
def ReadsBack (used : Selection) : StateSpec Id → Prop
  | map k v keys values =>
    Serializer.RoundTrips keys (used k) ∧ Serializer.RoundTrips values (used v)
  | spec => spec.RoundTrips used

end StateSpec

/-- A call that is given selected values stores what may be stored, also in maps. -/
theorem StateSpec.call_retains {σ : Type} {I : σ → Prop} {store : Store σ}
    {scope : Action σ SlotAddress} {used : Selection} {spec : StateSpec Id}
    (hstore : store.Guards I (spec.Retains used) fun _ => True) (readsBack : spec.ReadsBack used)
    {c : spec.type.Call} (hscope : Keeps I scope fun _ => True)
    (within : spec.type.Puts c → spec.type.Within used c) :
    Keeps I (spec.call store scope c) fun _ => True := by
  have located : ∀ puts : Prop, Keeps I scope fun _ => puts → True :=
    fun _ => hscope.weaken fun _ _ _ => trivial
  cases spec with
  | value v serializer => exact ValueCall.perform_guards hstore (located _) within
  | list v serializer => exact ListCall.perform_guards hstore readsBack (located _) within
  | reducing v serializer reduce =>
      exact ReducingCall.perform_guards hstore readsBack.1 readsBack.2 (located _) within
  | map k v keys values =>
      refine MapCall.perform_guards hstore (located _) fun key value put userKey bytes hk hv => ?_
      obtain ⟨usedKey, usedValue⟩ : used k key ∧ used v value := by
        subst put
        exact within trivial
      exact ⟨userKey, rfl, ⟨key, usedKey, hk⟩, value, usedValue, hv⟩

/-! ## What is read -/

namespace StateType

/-- The call that reads all that a state holds. -/
def read : (t : StateType) → t.Call
  | value _ => ValueCall.get
  | list _ => ListCall.get
  | map _ _ => MapCall.entries
  | reducing _ => ReducingCall.get

end StateType

/-- Reads an entry of a map. -/
def MapCall.readEntry {K V : Type} (keys : Serializer K) (values : Serializer V)
    (e : Bytes × Bytes) : Except StateError (K × V) := do
  return (← keys.deserialize e.1, ← values.deserialize e.2)

/-- Writes an entry of a map. -/
def MapCall.writeEntry {K V : Type} (keys : Serializer K) (values : Serializer V) (p : K × V) :
    Except StateError (Bytes × Bytes) := do
  return (← keys.serialize p.1, ← values.serialize p.2)

/-- What a query is answered with if this is read: the value as it is written, the list of the
elements as they are written, or the list of the entries as they are written, in ascending order of
the user keys. -/
def StateSpec.Encodes : (spec : StateSpec Id) → spec.type.Reply spec.type.read → Option Bytes → Prop
  | value _ serializer, x, answer =>
    Option.Rel (fun v bytes => Serializer.serialize serializer v = .ok bytes) x answer
  | list _ serializer, x, answer => ∃ elements,
    List.mapM (Serializer.serialize serializer) x = .ok elements ∧
      answer = ListCall.stored elements
  | map _ _ keys values, x, answer => ∃ entries,
    List.mapM (MapCall.writeEntry keys values) x = .ok entries ∧
      (entries.Pairwise fun e e' => compare e.1 e'.1 = .lt) ∧
      answer = if entries.isEmpty then none else some (entriesCodec.encode entries)
  | reducing _ serializer _, x, answer =>
    Option.Rel (fun v bytes => Serializer.serialize serializer v = .ok bytes) x answer

/-- What a query for a slot is answered with. -/
def Slot.serialized (slot : Slot) : StateKind → Option Bytes
  | .map =>
    if slot.entries.toList.isEmpty then none else some (entriesCodec.encode slot.entries.toList)
  | _ => slot.value

/-- What is written for selected values is what they are written as. -/
theorem Serializer.rel_of_writes {V : Type} {serializer : Serializer V} {Q : V → Prop}
    {x : Option V} {found : Option Bytes} (written : Option.Rel (serializer.Writes Q) x found) :
    Option.Rel (fun v bytes => serializer.serialize v = .ok bytes) x found := by
  cases written with
  | none => exact .none
  | some writes => exact .some writes.2

section Reading

variable {σ : Type} {store : Store σ} {scope : Action σ SlotAddress} {a : SlotAddress} {slot : Slot}
  {found looked : σ} {F : Prop}

/-- A query makes one request. -/
theorem serializedContent_returns (kind : StateKind)
    (answered : ∀ r : Request, r.slot = a →
      Returns ((store.perform r).perform found).1 (r.reply slot) F) :
    Returns ((serializedContent kind store a).perform found).1 (slot.serialized kind) F := by
  have located : (pure a : Action σ SlotAddress).perform found = (.ok a, found) := rfl
  cases kind with
  | map =>
      have listed := returns_of_request (r := fun b => .entries b)
        (f := fun _ (entries : List (Bytes × Bytes)) => (pure (if entries.isEmpty then none
          else some (entriesCodec.encode entries)) : Action σ (Option Bytes)))
        located (answered _ rfl) fun _ => rfl
      rwa [pure_bind] at listed
  | value => exact answered (.get a.whole) rfl
  | list => exact answered (.get a.whole) rfl
  | reducing => exact answered (.get a.whole) rfl

/-- Entries that may be stored are read back, as what they are written for. -/
theorem MapCall.exists_read {K V : Type} {keys : Serializer K} {values : Serializer V}
    {P : K → Prop} {Q : V → Prop} (hkeys : keys.RoundTrips P) (hvalues : values.RoundTrips Q)
    (legal : ∀ userKey value, slot.get userKey = some value →
      Stores keys values P Q userKey value) :
    ∃ pairs, slot.entries.toList.mapM (readEntry keys values) = .ok pairs ∧
      pairs.mapM (writeEntry keys values) = .ok slot.entries.toList := by
  refine exists_mapM_back ?_
  rintro ⟨x, y⟩ member
  obtain ⟨_, ⟨⟩, ⟨key, hk⟩, value, hv⟩ :=
    legal (some x) y (ExtTreeMap.mem_toList_iff_getElem?_eq_some.1 member)
  refine ⟨(key, value), ?_, ?_⟩
  · simp only [readEntry, (hkeys key x hk).1, (hvalues value y hv).1]
    rfl
  · simp only [writeEntry, hk.2, hv.2]
    rfl

/-- **A query for a slot is answered with what the typed state reads there, as it is written.** -/
theorem StateSpec.exists_read {used : Selection} {spec : StateSpec Id}
    (readsBack : spec.ReadsBack used) (located : scope.perform found = (.ok a, looked))
    (answered : ∀ r : Request, r.slot = a →
      Returns ((store.perform r).perform looked).1 (r.reply slot) F)
    (legal : ∀ userKey value, slot.get userKey = some value → spec.Retains used userKey value)
    (room : slot.FitsMemory) :
    ∃ x, Returns ((spec.call store scope spec.type.read).perform found).1 x F ∧
      spec.Encodes x (slot.serialized spec.type.kind) := by
  -- the typed state makes the request that the query makes, and decodes what it is given
  cases spec with
  | value v serializer =>
      obtain ⟨x, read, written, -⟩ := ValueCall.exists_decodeFound readsBack legal
      exact ⟨x, returns_of_request (r := fun b => .get b.whole)
        (f := fun _ x => .lift (decodeFound serializer x)) located (answered _ rfl) fun _ => read,
        Serializer.rel_of_writes written⟩
  | reducing v serializer reduce =>
      obtain ⟨x, read, written, -⟩ := ValueCall.exists_decodeFound readsBack.1 legal
      exact ⟨x, returns_of_request (r := fun b => .get b.whole)
        (f := fun _ x => .lift (decodeFound serializer x)) located (answered _ rfl) fun _ => read,
        Serializer.rel_of_writes written⟩
  | list v serializer =>
      obtain ⟨elements, values, stored, loaded, read, written, -⟩ :=
        ListCall.exists_loaded readsBack legal room
      exact ⟨values, ListCall.perform_get_returns located (answered _ rfl) loaded read,
        elements, written, stored⟩
  | map k v keys values =>
      obtain ⟨pairs, read, written⟩ := MapCall.exists_read readsBack.1 readsBack.2 legal
      refine ⟨pairs, ?_, slot.entries.toList, written, ExtTreeMap.ordered_keys_toList, rfl⟩
      show Returns (((scope >>= store.entries) >>= fun entries =>
        Action.lift (entries.mapM (MapCall.readEntry keys values))).perform found).1 _ _
      rw [bind_assoc]
      exact returns_of_request (r := fun b => .entries b) located (answered _ rfl) fun _ => read

end Reading

/-! ## Named states -/

namespace NamedState

variable {keys : Schema} {s : NamedState} {T : Table → Prop}

/-- A call on a named state stores what may be stored there, also in maps. -/
theorem callAs_retains {used : Selection}
    (table : Table.store.Guards T (s.spec.Retains used) fun _ => True)
    (plain : s.ttl.isEnabled = false) (readsBack : s.spec.ReadsBack used) {type : StateType}
    {c : type.Call} (within : type.Puts c → type.Within used c) {C : KeyContext keys → Prop}
    (coordinates : Keeps C KeyContext.coordinates fun _ => True) (conditions : Conditions) :
    Keeps (fun w : Workspace keys => C w.context ∧ T w.table) (s.callAs conditions type c)
      fun _ => True := by
  rw [callAs]
  split
  · next same =>
      subst same
      exact StateSpec.call_retains (workspaceStore_guards table plain conditions) readsBack
        (scope_keeps (S := fun _ => True) (coordinates.weaken fun _ _ _ => trivial) s) within
  · exact .lift fun _ _ => trivial

/-- A query for a slot is answered from the table. Only samples that are not accepted are in the
way. -/
theorem serialized_returns (plain : s.ttl.isEnabled = false) (conditions : Conditions)
    (w : Workspace keys) (a : SlotAddress) :
    Returns ((s.serialized conditions a).perform w).1 ((w.table.slot a).serialized s.kind)
      (¬ w.tracker.Admits conditions.accepts) := by
  refine serializedContent_returns s.kind fun r about => ?_
  rw [← about]
  exact workspaceStore_returns plain conditions w r

/-- What is read in the slot of the current key and the current namespace is what a query for that
slot is answered with. -/
theorem exists_read {used : Selection} (found : Workspace keys)
    (readsBack : s.spec.ReadsBack used) (plain : s.ttl.isEnabled = false)
    (coherent : found.context.Coherent) {g : KeyGroup} (group : found.context.group = some g)
    {key : Bytes} (written : found.context.serialize = .ok key) {ns : Bytes}
    (current : s.ns = some ns)
    (legal : ∀ userKey value, (found.table.slot ⟨g, key, ns⟩).get userKey = some value →
      s.spec.Retains used userKey value)
    (room : (found.table.slot ⟨g, key, ns⟩).FitsMemory) (conditions : Conditions) :
    ∃ x, Returns ((s.callAs conditions s.type s.type.read).perform found).1 x
        (¬ found.tracker.Admits conditions.accepts) ∧
      s.spec.Encodes x ((found.table.slot ⟨g, key, ns⟩).serialized s.kind) := by
  rw [callAs, dif_pos rfl]
  refine StateSpec.exists_read readsBack (perform_scope coherent group written current) ?_ legal
    room
  intro r about
  rw [← about]
  exact workspaceStore_returns plain conditions
    { found with context := { found.context with serialized := some key } } r

end NamedState

end KeyedState
