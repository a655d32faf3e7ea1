import KeyedState.Proofs.State.Guards
import KeyedState.Proofs.Storage.Stream

/-!
# When something is present

A typed state shows that something is present in a slot: a value or an aggregate is there, a list
has elements, a map is not empty (`StateType.Shows`). A slot of a table just holds something or not.
Both are the same as long as slots hold only what the calls of the type leave there, since no call
stores an emptied list, and what was written can be read back (`StateSpec.perform_probe`).
-/

namespace KeyedState

/-! ## Telling presence -/

namespace StateType

/-- The call that tells whether something is present. -/
def probe : (t : StateType) → t.Call
  | value _ => ValueCall.get
  | list _ => ListCall.get
  | map _ _ => MapCall.isEmpty
  | reducing _ => ReducingCall.get

/-- The answer is that something is: there is a value or an aggregate, the list has elements, the
map is not empty. -/
def Shows : (t : StateType) → t.Reply t.probe → Prop
  | value _, found => Option.isSome found = true
  | list _, elements => elements ≠ ([] : List _)
  | map _ _, isEmpty => isEmpty = false
  | reducing _, found => Option.isSome found = true

end StateType

/-- The outcome tells whether something is present: it is an answer that shows so exactly if it is.
Where `F` holds it may also be the fault of a sample that could not be recorded. -/
def Tells {α : Type} (outcome : Except StateError α) (shows : α → Prop) (present F : Prop) : Prop :=
  (∃ reply, outcome = .ok reply ∧ (shows reply ↔ present)) ∨
    F ∧ outcome = .error .historyTooLarge

/-- A fault may also be expected more often. -/
theorem Tells.weaken {α : Type} {outcome : Except StateError α} {shows : α → Prop}
    {present F F' : Prop} (told : Tells outcome shows present F) (weaker : F → F') :
    Tells outcome shows present F' :=
  told.imp_right fun fault => ⟨weaker fault.1, fault.2⟩

/-- A value that shows whether something is present tells it. -/
theorem Returns.tells {α : Type} {outcome : Except StateError α} {x : α} {shows : α → Prop}
    {present F : Prop} (returned : Returns outcome x F) (shown : shows x ↔ present) :
    Tells outcome shows present F :=
  returned.imp_left fun same => ⟨x, same, shown⟩

/-- What the slot holds may be stored there. -/
def StateSpec.Legal (used : Selection) (spec : StateSpec Id) (slot : Slot) : Prop :=
  ∀ userKey value, slot.get userKey = some value → spec.Stores used userKey value

section Probe

variable {σ : Type} {store : Store σ} {scope : Action σ SlotAddress} {a : SlotAddress} {slot : Slot}
  {found looked : σ} {F : Prop}

/-- A slot whose entries do not count holds something exactly if it has a value. -/
theorem Slot.ne_empty_iff_value {P : Bytes → Prop}
    (legal : ∀ userKey value, slot.get userKey = some value → userKey = none ∧ P value) :
    slot ≠ .empty ↔ slot.value.isSome = true := by
  rw [ne_empty_iff]
  constructor
  · rintro ⟨userKey, value, there⟩
    obtain ⟨rfl, -⟩ := legal userKey value there
    exact Option.isSome_iff_exists.2 ⟨value, there⟩
  · intro present
    obtain ⟨value, there⟩ := Option.isSome_iff_exists.1 present
    exact ⟨none, value, there⟩

/-- A value that may be stored is read back as what it is written for. -/
theorem ValueCall.exists_decodeFound {V : Type} {serializer : Serializer V} {Q : V → Prop}
    (roundTrips : serializer.RoundTrips Q)
    (legal : ∀ userKey value, slot.get userKey = some value → Stores serializer Q userKey value) :
    ∃ x, decodeFound serializer slot.value = .ok x ∧
      Option.Rel (serializer.Writes Q) x slot.value ∧ (x.isSome = true ↔ slot ≠ .empty) := by
  rw [Slot.ne_empty_iff_value legal]
  cases value : slot.value with
  | none => exact ⟨none, rfl, .none, Iff.rfl⟩
  | some bytes =>
      obtain ⟨-, v, hv⟩ := legal none bytes value
      refine ⟨some v, ?_, .some hv, Iff.rfl⟩
      rw [decodeFound, (roundTrips v bytes hv).1]
      rfl

/-- What is loaded of a list, once it was looked up. -/
def ListCall.loaded : Option Bytes → Except StateError (List Bytes)
  | none => .ok []
  | some bytes => Serializer.orMalformed (elementsCodec.read bytes)

theorem ListCall.load_eq (store : Store σ) (a : SlotAddress) :
    load store a = store.get a.whole >>= fun found => Action.lift (loaded found) := by
  rw [load]
  congr 1
  funext found
  cases found <;> rfl

/-- A list that may be stored, and fits into memory, is loaded and read back as a whole, as the
values that its elements are written for. -/
theorem ListCall.exists_loaded {V : Type} {serializer : Serializer V} {Q : V → Prop}
    (roundTrips : serializer.RoundTrips Q)
    (legal : ∀ userKey value, slot.get userKey = some value → Stores serializer Q userKey value)
    (room : slot.FitsMemory) :
    ∃ elements values, slot.value = stored elements ∧ loaded slot.value = .ok elements ∧
      elements.mapM serializer.deserialize = .ok values ∧
      values.mapM serializer.serialize = .ok elements ∧ (values ≠ [] ↔ slot ≠ .empty) := by
  rw [Slot.ne_empty_iff_value legal]
  cases value : slot.value with
  | none => exact ⟨[], [], rfl, rfl, rfl, rfl, by simp⟩
  | some bytes =>
      obtain ⟨-, elements, nonempty, rfl, each⟩ := legal none bytes value
      obtain ⟨n, read, whole⟩ := exists_read_encode elements fun e member =>
        (each e member).elim fun v hv => (roundTrips v e hv).2
      have count : n = elements.length :=
        whole (Nat.lt_of_le_of_lt (length_le_encode elements) (room.value _ value))
      obtain ⟨values, mapped, back⟩ := roundTrips.exists_mapM each
      refine ⟨elements, values, ?_, ?_, mapped, back, ?_⟩
      · rw [stored, if_neg fun none => nonempty (List.isEmpty_iff.1 none)]
      · rw [loaded, read, count, List.take_length]
        rfl
      · simp only [Option.isSome_some, iff_true]
        rintro rfl
        exact nonempty (Except.ok.inj back).symm

/-- A map is not empty exactly if its slot holds something. -/
theorem MapCall.isEmpty_eq_false_iff
    (legal : ∀ userKey value, slot.get userKey = some value → userKey.isSome = true) :
    slot.entries.toList.isEmpty = false ↔ slot ≠ .empty := by
  rw [Slot.ne_empty_iff, List.isEmpty_eq_false_iff_exists_mem]
  constructor
  · rintro ⟨⟨userKey, value⟩, member⟩
    exact ⟨some userKey, value, Std.ExtTreeMap.mem_toList_iff_getElem?_eq_some.1 member⟩
  · rintro ⟨userKey, value, there⟩
    obtain ⟨userKey, rfl⟩ := Option.isSome_iff_exists.1 (legal userKey value there)
    exact ⟨(userKey, value), Std.ExtTreeMap.mem_toList_iff_getElem?_eq_some.2 there⟩

/-- A request about the slot of the scope, and an answer that is read off what it gives. -/
theorem returns_of_request {α : Type} {r : SlotAddress → Request}
    {f : (b : SlotAddress) → (r b).Reply → Action σ α}
    (located : scope.perform found = (.ok a, looked))
    (answered : Returns ((store.perform (r a)).perform looked).1 ((r a).reply slot) F)
    {x : α} (given : ∀ s, ((f a ((r a).reply slot)).perform s).1 = .ok x) :
    Returns ((scope >>= fun b => store.perform (r b) >>= f b).perform found).1 x F := by
  rw [Action.perform_bind_ok located, Action.perform_bind]
  rcases performed : (store.perform (r a)).perform looked with ⟨answer, s⟩
  rw [performed] at answered
  rcases answered with same | ⟨hf, same⟩
  · obtain rfl : answer = .ok ((r a).reply slot) := same
    exact .inl (given s)
  · obtain rfl : answer = .error .historyTooLarge := same
    exact .inr ⟨hf, rfl⟩

/-- A list is read off what is loaded. -/
theorem ListCall.perform_get_returns {V : Type} {serializer : Serializer V}
    (located : scope.perform found = (.ok a, looked))
    (answered : Returns ((store.perform (.get a.whole)).perform looked).1 slot.value F)
    {elements : List Bytes} (loaded : ListCall.loaded slot.value = .ok elements) {values : List V}
    (read : elements.mapM serializer.deserialize = .ok values) :
    Returns (((get : ListCall V).perform serializer store scope).perform found).1 values F := by
  show Returns ((scope >>= fun b => load store b >>= fun elements =>
    Action.lift (elements.mapM serializer.deserialize)).perform found).1 _ _
  simp only [load_eq, bind_assoc]
  refine returns_of_request (r := fun b => .get b.whole) located answered fun s => ?_
  show ((Action.lift (ListCall.loaded slot.value) >>= _ : Action σ _).perform s).1 = _
  rw [loaded, Action.perform_bind_ok (Action.perform_lift _ _)]
  exact read

/-- **The typed state shows that something is present exactly if the slot holds something.** A
request may also end in a fault, where `F` says when. -/
theorem StateSpec.perform_probe {used : Selection} {spec : StateSpec Id}
    (roundTrips : spec.RoundTrips used) (located : scope.perform found = (.ok a, looked))
    (answered : ∀ r : Request, r.slot = a →
      Returns ((store.perform r).perform looked).1 (r.reply slot) F)
    (legal : spec.Legal used slot) (room : slot.FitsMemory) :
    Tells ((spec.call store scope spec.type.probe).perform found).1 spec.type.Shows
      (slot ≠ .empty) F := by
  -- a probe makes one request about the slot, and reads what that gives
  cases spec with
  | value v serializer =>
      obtain ⟨x, read, -, shown⟩ := ValueCall.exists_decodeFound roundTrips legal
      exact (returns_of_request (r := fun b => .get b.whole)
        (f := fun _ x => .lift (decodeFound serializer x)) located (answered _ rfl)
        fun _ => read).tells shown
  | reducing v serializer reduce =>
      obtain ⟨x, read, -, shown⟩ := ValueCall.exists_decodeFound roundTrips.1 legal
      exact (returns_of_request (r := fun b => .get b.whole)
        (f := fun _ x => .lift (decodeFound serializer x)) located (answered _ rfl)
        fun _ => read).tells shown
  | list v serializer =>
      obtain ⟨elements, values, -, loaded, read, -, shown⟩ :=
        ListCall.exists_loaded roundTrips legal room
      refine Returns.tells ?_ shown
      exact ListCall.perform_get_returns located (answered _ rfl) loaded read
  | map k v keys values =>
      refine Returns.tells (x := slot.entries.toList.isEmpty) ?_
        (MapCall.isEmpty_eq_false_iff legal)
      show Returns (((scope >>= store.entries) >>= fun entries => pure entries.isEmpty).perform
        found).1 _ _
      rw [bind_assoc]
      exact returns_of_request (r := fun b => .entries b) located (answered _ rfl) fun _ => rfl

end Probe

/-- In a workspace, the slot of the current key and the current namespace is probed. Only samples
that are not accepted are in the way. -/
theorem NamedState.perform_probe {keys : Schema} {used : Selection} {s : NamedState}
    (found : Workspace keys) (roundTrips : s.spec.RoundTrips used)
    (plain : s.ttl.isEnabled = false) (coherent : found.context.Coherent) {g : KeyGroup}
    (group : found.context.group = some g) {key : Bytes}
    (written : found.context.serialize = .ok key) {ns : Bytes} (current : s.ns = some ns)
    (legal : s.spec.Legal used (found.table.slot ⟨g, key, ns⟩))
    (room : (found.table.slot ⟨g, key, ns⟩).FitsMemory) (conditions : Conditions) :
    Tells ((s.callAs conditions s.type s.type.probe).perform found).1 s.type.Shows
      (found.table.slot ⟨g, key, ns⟩ ≠ .empty)
      (¬ found.tracker.Admits conditions.accepts) := by
  rw [callAs, dif_pos rfl]
  refine StateSpec.perform_probe roundTrips (perform_scope coherent group written current) ?_ legal
    room
  intro r about
  rw [← about]
  exact workspaceStore_returns plain conditions
    { found with context := { found.context with serialized := some key } } r

end KeyedState
