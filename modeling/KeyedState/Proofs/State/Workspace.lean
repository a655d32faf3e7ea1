import KeyedState.Proofs.State.Calls
import KeyedState.Proofs.Storage.Tracking

/-!
# Calls on a named state

A named state without expiry, whose samples are accepted, answers a call from the slot of the
current key and its current namespace, and touches no other slot (`NamedState.call_served`). Where
the key or the namespace is missing, the call is refused and nothing is touched
(`NamedState.scope_without_key`, `NamedState.scope_without_namespace`).

Either way the key context at most remembers the serialized key: it is the same if that is
forgotten (`KeyContext.forget`), and what it remembers is right (`KeyContext.Coherent`).
-/

namespace KeyedState

open KeyedState.Action (Yields)

variable {keys : Schema}

/-! ## Answers and faults -/

/-- The outcome is the given value. Where `F` holds it may also be the fault of a sample that could
not be recorded. -/
def Returns {α : Type} (outcome : Except StateError α) (x : α) (F : Prop) : Prop :=
  outcome = .ok x ∨ F ∧ outcome = .error .historyTooLarge

theorem Returns.weaken {α : Type} {outcome : Except StateError α} {x : α} {F F' : Prop}
    (returned : Returns outcome x F) (weaker : F → F') : Returns outcome x F' :=
  returned.imp_right fun fault => ⟨weaker fault.1, fault.2⟩

/-! ## The current key -/

namespace KeyContext

/-- The context apart from what it remembers. -/
def forget (c : KeyContext keys) : KeyContext keys := { c with serialized := none }

/-- What is remembered is the serialized form of the current key. -/
def Coherent (c : KeyContext keys) : Prop :=
  ∀ bytes, c.serialized = some bytes → c.serialize = .ok bytes

variable {c c' : KeyContext keys}

theorem group_eq_of_forget (same : c'.forget = c.forget) : c'.group = c.group :=
  congrArg (·.group) same

theorem serialize_eq_of_forget (same : c'.forget = c.forget) : c'.serialize = c.serialize := by
  show c'.forget.serialize = c.forget.serialize
  rw [same]

/-- Looking up the current key remembers how it is written. -/
theorem perform_coordinates (coherent : c.Coherent) {g : KeyGroup} (group : c.group = some g)
    {bytes : Bytes} (written : c.serialize = .ok bytes) :
    coordinates.perform c = (.ok ⟨bytes, g⟩, { c with serialized := some bytes }) := by
  obtain ⟨groups, range, serializer, key, group', serialized⟩ := c
  cases group
  rw [coordinates, Action.perform_of]
  -- what is remembered is how the key is written, so it makes no difference
  cases serialized with
  | none => simp only [written]
  | some bytes' =>
      have same : (.ok bytes : Except StateError Bytes) = .ok bytes' :=
        written.symm.trans (coherent bytes' rfl)
      cases same
      rfl

/-- Without a key or without a group there is nothing to look up. -/
theorem perform_coordinates_none (coherent : c.Coherent) (missing : c.key = none ∨ c.group = none) :
    coordinates.perform c = (.error .noCurrentKey, c) := by
  rw [coordinates, Action.perform_of]
  cases group : c.group with
  | none => rfl
  | some g =>
      have key : c.key = none := missing.resolve_right (by rw [group]; exact Option.some_ne_none g)
      have unwritten : c.serialize = .error .noCurrentKey := by rw [serialize, key]
      cases remembered : c.serialized with
      | none => simp only [unwritten]
      | some bytes =>
          have := coherent bytes remembered
          rw [unwritten] at this
          cases this

theorem Coherent.remember {bytes : Bytes} (written : c.serialize = .ok bytes) :
    Coherent { c with serialized := some bytes } := by
  rintro _ ⟨⟩
  exact written

end KeyContext

/-- Looking up the current key in a workspace. -/
theorem NamedState.perform_lookUp {found : Workspace keys} (coherent : found.context.Coherent)
    {g : KeyGroup} (group : found.context.group = some g) {key : Bytes}
    (written : found.context.serialize = .ok key) :
    (KeyContext.coordinates.within contextPart).perform found =
      (.ok ⟨key, g⟩, { found with context := { found.context with serialized := some key } }) := by
  rw [Action.perform_within]
  simp only [contextPart, KeyContext.perform_coordinates coherent group written]

namespace NamedState

/-! ## One slot of a workspace -/

/-- In the workspace a slot holds the given content; apart from that slot, the samplers and what
the context remembers, the workspace is the one that the call found. -/
structure Here (found : Workspace keys) (a : SlotAddress) (w : Workspace keys) (slot : Slot) :
    Prop where
  context : w.context.forget = found.context.forget
  coherent : w.context.Coherent
  tracker : found.tracker.Alike w.tracker
  slot : w.table.slot a = slot
  others : ∀ b, b ≠ a → w.table.slot b = found.table.slot b

variable {s : NamedState} {conditions : Conditions} {found : Workspace keys} {a : SlotAddress}

/-- Without expiry only the tracker stands around the table. -/
theorem store_of_plain (plain : s.ttl.isEnabled = false) (conditions : Conditions) :
    s.store conditions = Tracker.store conditions.accepts Table.store := by
  rw [store, plain]
  rfl

/-- Without expiry a request to the store of a state is answered from its table. Only samples that
are not accepted are in the way. -/
theorem workspaceStore_returns (plain : s.ttl.isEnabled = false) (conditions : Conditions)
    (w : Workspace keys) (r : Request) :
    Returns (((s.workspaceStore conditions).perform r).perform w).1 (r.reply (w.table.slot r.slot))
      (¬ w.tracker.Admits conditions.accepts) := by
  rw [workspaceStore, Store.within, Action.perform_within, store_of_plain plain]
  by_cases admits : w.tracker.Admits conditions.accepts
  · obtain ⟨t, performed, -⟩ := Tracker.perform_of_admits Table.store admits r w.table
    left
    simp only [stored, performed, Table.outcome_perform]
  · simp only [stored, Tracker.store, Action.perform_of, Table.outcome_perform]
    split
    · exact .inl rfl
    · exact .inr ⟨admits, rfl⟩

/-- The store of a state carries out the requests about a slot on it. -/
theorem workspaceStore_serves (plain : s.ttl.isEnabled = false)
    (admits : found.tracker.Admits conditions.accepts) (a : SlotAddress) :
    Store.Serves (Here found a) a (s.workspaceStore conditions) := by
  rintro r rfl slot w here
  obtain ⟨t', performed, alike⟩ :=
    Tracker.perform_of_admits Table.store (admits.alike here.tracker) r w.table
  refine ⟨{ w with table := ((Table.store.perform r).perform w.table).2, tracker := t' }, ?_,
    here.context, here.coherent, fun family => (alike family).trans (here.tracker family), ?_, ?_⟩
  · show (((s.store conditions).perform r).within stored).perform w = _
    rw [Action.perform_within, store_of_plain plain]
    simp only [stored, performed, Table.outcome_perform, here.slot]
  -- of the slots of the table the request changes this one only
  · rw [← here.slot]
    exact (Table.slot_perform w.table r r.slot).trans (if_pos rfl)
  · intro b other
    exact (Table.slot_perform w.table r b).trans ((if_neg other).trans (here.others b other))

/-- The slot of the current key and the current namespace is found once the key was looked up. -/
theorem perform_scope (coherent : found.context.Coherent) {g : KeyGroup}
    (group : found.context.group = some g) {key : Bytes}
    (written : found.context.serialize = .ok key) {ns : Bytes} (current : s.ns = some ns) :
    s.scope.perform found =
      (.ok ⟨g, key, ns⟩,
        { found with context := { found.context with serialized := some key } }) := by
  rw [scope, Action.perform_bind_ok (perform_lookUp coherent group written), current]
  rfl

/-- The scope of a state is the slot of the current key and the current namespace. -/
theorem scope_located {g : KeyGroup} (group : found.context.group = some g) {key : Bytes}
    (written : found.context.serialize = .ok key) {ns : Bytes} (current : s.ns = some ns)
    (slot : Slot) :
    Yields (Here found ⟨g, key, ns⟩) s.scope slot ⟨g, key, ns⟩ slot := by
  intro w here
  have written' := (KeyContext.serialize_eq_of_forget here.context).trans written
  have group' := (KeyContext.group_eq_of_forget here.context).trans group
  exact ⟨_, perform_scope here.coherent group' written' current, here.context, .remember written',
    here.tracker, here.slot, here.others⟩

/-- A call is answered from what the slot of the current key and the current namespace holds, and
the slot then holds what the call makes of it. -/
theorem call_served (conditions : Conditions) (found : Workspace keys) {used : Selection}
    (plain : s.ttl.isEnabled = false) (faithful : s.spec.Faithful used)
    (coherent : found.context.Coherent)
    (admits : found.tracker.Admits conditions.accepts) {g : KeyGroup}
    (group : found.context.group = some g) {key : Bytes}
    (written : found.context.serialize = .ok key) {ns : Bytes} (current : s.ns = some ns)
    {x : s.spec.type.Content}
    (holds : s.spec.Holds used (found.table.slot ⟨g, key, ns⟩) x) (room : s.spec.type.FitsMemory x)
    {c : s.type.Call} (within : s.spec.type.Within used c) :
    ∃ (reply : s.type.Reply c) (slot : Slot) (w : Workspace keys),
      (s.call conditions c).perform found = (.ok reply, w) ∧ s.spec.Answers c x reply ∧
        s.spec.Holds used slot (s.spec.type.after c x) ∧
          Here found ⟨g, key, ns⟩ w slot := by
  have served : Store.Serves (Here found ⟨g, key, ns⟩) ⟨g, key, ns⟩ (s.workspaceStore conditions) :=
    workspaceStore_serves plain admits ⟨g, key, ns⟩
  obtain ⟨reply, slot, yields, answers, holds'⟩ := StateSpec.call_yields served
    (scope_located group written current) faithful holds room within
  obtain ⟨w, performed, here⟩ := yields found ⟨rfl, coherent, fun _ => rfl, rfl, fun _ _ => rfl⟩
  exact ⟨reply, slot, w, performed, answers, holds', here⟩

/-! ## Calls without a slot -/

/-- Without a current key there is no slot. -/
theorem scope_without_key (coherent : found.context.Coherent)
    (missing : found.context.key = none ∨ found.context.group = none) :
    s.scope.perform found = (.error .noCurrentKey, found) := by
  refine Action.perform_bind_error ?_ _
  rw [Action.perform_within]
  simp only [contextPart, KeyContext.perform_coordinates_none coherent missing]

/-- Without a current namespace there is no slot, after the current key was looked up. -/
theorem scope_without_namespace (coherent : found.context.Coherent) {g : KeyGroup}
    (group : found.context.group = some g) {key : Bytes}
    (written : found.context.serialize = .ok key) (missing : s.ns = none) :
    s.scope.perform found = (.error (.noNamespace s.name),
      { found with context := { found.context with serialized := some key } }) := by
  rw [scope, Action.perform_bind_ok (perform_lookUp coherent group written), missing]
  rfl

end NamedState

end KeyedState
