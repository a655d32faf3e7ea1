import KeyedState.Proofs.Backend.Reference
import KeyedState.Proofs.State.Workspace
import KeyedState.Proofs.Storage.Contents

/-!
# A backend follows the reference

`Backend.Represents` ties a backend over tables to a reference: the current key and group are the
same, the states have the same numbers and names, and the table of each state holds, at the
serialized key and namespace, what the reference has for the key and the namespace. Every operation
keeps this and is answered as the reference answers it (`Backend.Represents.step`), and so is every
run (`Backend.Represents.follows`).
-/

namespace KeyedState

open Std (ExtTreeMap)

variable {keys : Schema}

/-! ## What is represented -/

/-- The current key of a context is that of a reference. -/
structure KeyContext.Represents (used : Selection) (serializer : Serializer keys.Val)
    (c : KeyContext keys) (r : Reference keys) : Prop where
  groups : c.groups = r.groups
  serializer : c.serializer = some serializer
  key : c.key = r.key
  group : c.group = r.group
  used : ∀ key, r.key = some key → used keys key
  coherent : c.Coherent

/-- The current key of a context is also that of a reference with the same one. -/
theorem KeyContext.Represents.congr {used : Selection} {serializer : Serializer keys.Val}
    {c : KeyContext keys} {r r' : Reference keys} (represents : c.Represents used serializer r)
    (groups : r'.groups = r.groups) (key : r'.key = r.key) (group : r'.group = r.group) :
    c.Represents used serializer r' :=
  ⟨represents.groups.trans groups.symm, represents.serializer, represents.key.trans key.symm,
    represents.group.trans group.symm, key ▸ represents.used, represents.coherent⟩

/-- The names of states are numbered as in a reference; the one that was accessed last is among
them. -/
structure StateNames.Represents (n : StateNames) (r : Reference keys) : Prop where
  states : ∀ name, n.states[name]? = r.ids name
  recent : ∀ name id, n.lastAccessed = some (name, id) → r.ids name = some id

/-- Each number belongs to one name. -/
structure Reference.WellNamed (r : Reference keys) : Prop where
  states : ∀ name id, r.ids name = some id → ∃ x, r.states[id]? = some x ∧ x.name = name
  ids : ∀ id x, r.states[id]? = some x → r.ids x.name = some id

/-- A named state over a table has a current namespace and contents. -/
structure NamedState.Holds (used : Selection) (serializer : Serializer keys.Val)
    (t : Table) (s : NamedState) (ns : Option s.namespaces.schema.Val)
    (cells : KeyGroup → keys.Val → s.namespaces.schema.Val → s.spec.type.Content) : Prop where
  faithful : s.spec.Faithful used
  namespaces : s.namespaces.serializer.Faithful (used s.namespaces.schema)
  ns : Option.Rel (s.namespaces.serializer.Writes (used s.namespaces.schema)) ns s.ns
  plain : s.ttl.isEnabled = false
  shared : s.place = .shared
  cells : ∀ g key n key' n', serializer.Writes (used keys) key key' →
    s.namespaces.serializer.Writes (used s.namespaces.schema) n n' →
      s.spec.Holds used (t.slot ⟨g, key', n'⟩) (cells g key n)

/-- A named state over a table is one of a reference. -/
def NamedState.Represents (used : Selection) (serializer : Serializer keys.Val)
    (t : Table) (s : NamedState) (x : ReferenceState keys) : Prop :=
  ∃ ns cells, x = ⟨s.name, s.spec, s.namespaces.schema, ns, cells⟩ ∧
    s.Holds used serializer t ns cells

namespace Backend

/-- The settings of a family of samples. -/
def sampling (b : Backend keys) : Tracked → SamplingConfig
  | .latency => b.latency
  | .size => b.size

/-- For every family that is tracked, histories of the size that is asked for can be set up. -/
def Trackable (b : Backend keys) : Prop :=
  ∀ m, b.metrics = some m → ∀ family, (b.sampling family).enabled = true →
    (b.sampling family).history.toNat ≤ SampleHistory.greatestCapacity

/-- There is room for the samples that a state takes. -/
def Admits (b : Backend keys) (s : NamedState) : Prop :=
  ∀ m, b.metrics = some m → ∀ family, (s.tracker.sampler family).isSome = true →
    m.capacity family s.name ≤ SampleHistory.greatestCapacity

/-- A backend over tables is one of a reference. A name without a state has no table, unless
creating its state was refused; the table is empty then. -/
structure Represents (used : Selection) (serializer : Serializer keys.Val)
    (b : Backend keys) (r : Reference keys) : Prop where
  context : b.context.Represents used serializer r
  names : b.names.Represents r
  wellNamed : r.WellNamed
  format : b.execution.format = r.format
  heap : ∃ h, b.storage = .heap h
  length : b.states.length = r.states.length
  states : ∀ (id : StateId) (s : NamedState) (x : ReferenceState keys), b.states[id]? = some s →
    r.states[id]? = some x → s.Represents used serializer (b.tableOf s) x
  unnamed : ∀ name, r.ids name = none → ∀ t, b.storage.table? name = some t →
    name ∈ r.refused ∧ ∀ a, t.slot a = .empty
  admits : ∀ s ∈ b.states, b.Admits s
  trackable : b.Trackable

variable {used : Selection} {serializer : Serializer keys.Val} {b : Backend keys}
  {r : Reference keys}

/-- A state that has room for its samples has them accepted. -/
theorem Admits.conditions {s : NamedState} (admits : b.Admits s) :
    s.tracker.Admits (b.conditions s).accepts := by
  intro x tracked
  show b.metrics.all (fun m => m.acceptsSample s.name x) = true
  cases metrics : b.metrics with
  | none => rfl
  | some m =>
      have small := admits m metrics x.family tracked
      cases x with
      | latency op => exact Metrics.accepts_of_capacity small op
      | size op bytes => exact Metrics.accepts_of_capacity small op

/-- Recording samples changes no capacity. -/
theorem capacity_collect (m : Metrics) (family : Tracked) (state name : String)
    (samples : List Sample) :
    (samples.foldl (fun m x => m.recordSample state x) m).capacity family name =
      m.capacity family name := by
  induction samples generalizing m with
  | nil => rfl
  | cons x rest ih => exact (ih _).trans (m.capacity_recordSample family state name x)

namespace Represents

/-- The state of a number, with the reference's. -/
theorem state (rep : b.Represents used serializer r) {id : StateId} {s : NamedState}
    (found : b.states[id]? = some s) :
    ∃ x, r.states[id]? = some x ∧ s.Represents used serializer (b.tableOf s) x := by
  have inside : id < r.states.length := by
    rw [← rep.length]
    exact (List.getElem?_eq_some_iff.1 found).1
  exact ⟨r.states[id], List.getElem?_eq_getElem inside,
    rep.states id s _ found (List.getElem?_eq_getElem inside)⟩

/-- A number without a state has none in the reference. -/
theorem no_state (rep : b.Represents used serializer r) {id : StateId}
    (none : b.states[id]? = none) : r.states[id]? = .none := by
  rw [List.getElem?_eq_none_iff] at none ⊢
  exact rep.length ▸ none

end Represents

end Backend

/-! ## A state in its place -/

namespace NamedState.Represents

variable {used : Selection} {serializer : Serializer keys.Val} {t : Table}
  {s : NamedState} {x : ReferenceState keys}

theorem name_eq (represents : s.Represents used serializer t x) : x.name = s.name := by
  obtain ⟨ns, cells, rfl, -⟩ := represents
  rfl

theorem shared (represents : s.Represents used serializer t x) : s.place = .shared := by
  obtain ⟨ns, cells, -, holds⟩ := represents
  exact holds.shared

/-- What a state represents does not depend on its samplers. -/
theorem track (represents : s.Represents used serializer t x) (tracker : Tracker) :
    NamedState.Represents used serializer t { s with tracker } x := by
  obtain ⟨ns, cells, same, holds⟩ := represents
  exact ⟨ns, cells, same, holds.faithful, holds.namespaces, holds.ns, holds.plain, holds.shared,
    holds.cells⟩

end NamedState.Represents

/-- A namespace of its schema that is serialized becomes the current one of a state. -/
theorem NamedState.setNamespace_same {s : NamedState} {ns : s.namespaces.schema.Val}
    {bytes : Bytes} (writes : s.namespaces.serializer.serialize ns = .ok bytes) :
    s.setNamespace s.namespaces.schema ns = .ok { s with ns := some bytes } := by
  rw [setNamespace, dif_pos rfl, writes]
  rfl

theorem NamedState.setNamespace_other {s : NamedState} {schema : Schema}
    (other : ¬ schema = s.namespaces.schema) (ns : schema.Val) :
    s.setNamespace schema ns = .error (.typeMismatch s.name) :=
  dif_neg other

/-- Each number belongs to one name, also after a state of that name was replaced. -/
theorem Reference.WellNamed.set {r : Reference keys} (named : r.WellNamed) {id : StateId}
    {x x' : ReferenceState keys} (found : r.states[id]? = some x) (name : x'.name = x.name) :
    (r.set id x').WellNamed where
  states name' id' numbered := by
    obtain ⟨y, held, same⟩ := named.states name' id' numbered
    by_cases here : id = id'
    · subst here
      cases Option.some.inj (found.symm.trans held)
      refine ⟨x', ?_, name.trans same⟩
      exact List.getElem?_set_self (List.getElem?_eq_some_iff.1 found).1
    · exact ⟨y, (List.getElem?_set_ne here).trans held, same⟩
  ids id' y held := by
    by_cases here : id = id'
    · subst here
      have := List.getElem?_set_self (a := x') (List.getElem?_eq_some_iff.1 found).1
      cases Option.some.inj (this.symm.trans held)
      exact name ▸ named.ids id x found
    · exact named.ids id' y ((List.getElem?_set_ne here).symm.trans held)

namespace Backend

variable {used : Selection} {serializer : Serializer keys.Val} {b : Backend keys}
  {r : Reference keys}

/-- The table of a state that shares it is the one of its name. -/
theorem tableOf_shared {s : NamedState} (shared : s.place = .shared) :
    b.tableOf s = (b.storage.table? s.name).getD (.empty s.kind) := by
  rw [tableOf, shared]

/-- The backend after a state worked on its workspace. -/
def afterWork (b : Backend keys) (id : StateId) (s : NamedState) (w : Workspace keys) :
    Backend keys :=
  { b with
    context := w.context
    storage := b.storage.setTable s.name w.table
    states := b.states.set id { s with tracker := { w.tracker with samples := [] } }
    metrics := b.metrics.map fun m =>
      w.tracker.samples.foldl (fun m x => m.recordSample s.name x) m
    events := b.events ++ w.tracker.samples.map fun x => .sampled s.name x }

/-- Work on a state is done on its workspace. -/
theorem perform_onState {α : Type} {id : StateId} {s : NamedState}
    (found : b.states[id]? = some s) (shared : s.place = .shared)
    (run : NamedState → Action (Workspace keys) α) {outcome : Except StateError α}
    {w : Workspace keys}
    (performed : (run s).perform ⟨b.context, b.tableOf s, s.tracker⟩ = (outcome, w)) :
    (onState id run).perform b = (outcome, b.afterWork id s w) := by
  obtain ⟨name, spec, namespaces, ns, ttl, tracker, place⟩ := s
  cases shared
  rw [onState, Action.perform_of, state, found]
  simp only [performed]
  rfl

/-- Work on a number without a state is refused. -/
theorem perform_onState_none {α : Type} {id : StateId} (none : b.states[id]? = none)
    (run : NamedState → Action (Workspace keys) α) :
    (onState id run).perform b = (.error .unknownState, b) := by
  rw [onState, Action.perform_of, state, none]

/-- The namespace of a state is set as the state sets it. -/
theorem perform_setNamespace {id : StateId} {s : NamedState} (found : b.states[id]? = some s)
    (schema : Schema) (ns : schema.Val) :
    (setNamespace id schema ns).perform b = match s.setNamespace schema ns with
      | .ok s' => (.ok (), { b with states := b.states.set id s' })
      | .error e => (.error e, b) := by
  have looked : (Action.lift (b.state id) : Action (Backend keys) NamedState).perform b =
      (.ok s, b) := by
    rw [state, found]
    rfl
  rw [setNamespace, Action.perform_bind_ok (Action.perform_get b), Action.perform_bind_ok looked]
  cases s.setNamespace schema ns <;> rfl

/-- No state has a name without a number. -/
theorem Represents.name_ne (rep : b.Represents used serializer r) {name : String}
    (unnamed : r.ids name = none) {id : StateId} {s : NamedState} (found : b.states[id]? = some s) :
    s.name ≠ name := by
  rintro rfl
  obtain ⟨x, held, represents⟩ := rep.state found
  have numbered := rep.wellNamed.ids id x held
  rw [represents.name_eq, unnamed] at numbered
  cases numbered

/-- Two states with one name have one number. -/
theorem Represents.id_eq (rep : b.Represents used serializer r) {id id' : StateId}
    {s s' : NamedState} (found : b.states[id]? = some s) (found' : b.states[id']? = some s')
    (same : s.name = s'.name) : id = id' := by
  obtain ⟨x, held, represents⟩ := rep.state found
  obtain ⟨x', held', represents'⟩ := rep.state found'
  have hid := rep.wellNamed.ids id x held
  have hid' := rep.wellNamed.ids id' x' held'
  rw [represents.name_eq, same] at hid
  rw [represents'.name_eq] at hid'
  exact Option.some.inj (hid.symm.trans hid')

/-- The context remembers more at most. -/
theorem Represents.remember (rep : b.Represents used serializer r) {c : KeyContext keys}
    (same : c.forget = b.context.forget) (coherent : c.Coherent) :
    Represents used serializer { b with context := c } r := by
  refine ⟨⟨(congrArg (·.groups) same).trans rep.context.groups,
    (congrArg (·.serializer) same).trans rep.context.serializer,
    (congrArg (·.key) same).trans rep.context.key,
    (congrArg (·.group) same).trans rep.context.group, rep.context.used, coherent⟩, rep.names,
    rep.wellNamed, rep.format, rep.heap, rep.length, rep.states, rep.unnamed, rep.admits,
    rep.trackable⟩

/-- Samples of a state were recorded. -/
theorem Represents.record (rep : b.Represents used serializer r) (state : String)
    (samples : List Sample) (events : List (Event keys)) :
    Represents used serializer { b with
      metrics := b.metrics.map fun m => samples.foldl (fun m x => m.recordSample state x) m
      events } r := by
  refine ⟨rep.context, rep.names, rep.wellNamed, rep.format, rep.heap, rep.length, rep.states,
    rep.unnamed, fun s member m' metrics family tracked => ?_, fun m' metrics family tracked => ?_⟩
  · obtain ⟨m, metrics', rfl⟩ := Option.map_eq_some_iff.1 metrics
    rw [capacity_collect]
    exact rep.admits s member m metrics' family tracked
  · obtain ⟨m, metrics', -⟩ := Option.map_eq_some_iff.1 metrics
    exact rep.trackable m metrics' family tracked

/-- A state was replaced by one of the same name, perhaps with its table; no other table changed. -/
theorem Represents.replace (rep : b.Represents used serializer r) {id : StateId}
    {s : NamedState} (found : b.states[id]? = some s) (s' : NamedState) (name : s'.name = s.name)
    (alike : s.tracker.Alike s'.tracker) {storage : Storage} (heap : ∃ h, storage = .heap h)
    (others : ∀ name, name ≠ s.name → storage.table? name = b.storage.table? name)
    {x' : ReferenceState keys} (represents' : s'.Represents used serializer
      ((storage.table? s'.name).getD (.empty s'.kind)) x') :
    Represents used serializer { b with storage, states := b.states.set id s' }
      (r.set id x') := by
  obtain ⟨x, held, represents⟩ := rep.state found
  have name' : x'.name = x.name := represents'.name_eq.trans (name.trans represents.name_eq.symm)
  refine ⟨rep.context.congr rfl rfl rfl, ⟨rep.names.states, rep.names.recent⟩,
    rep.wellNamed.set held name', rep.format, heap, ?_, ?_, ?_, ?_, rep.trackable⟩
  · exact (List.length_set ..).trans (rep.length.trans (List.length_set ..).symm)
  · intro id' s₁ y found' held'
    -- another state has another name, and with it another table
    by_cases here : id = id'
    · subst here
      cases Option.some.inj
        ((List.getElem?_set_self (List.getElem?_eq_some_iff.1 found).1).symm.trans found')
      cases Option.some.inj
        ((List.getElem?_set_self (List.getElem?_eq_some_iff.1 held).1).symm.trans held')
      rw [tableOf_shared represents'.shared]
      exact represents'
    · replace found' := (List.getElem?_set_ne here).symm.trans found'
      replace held' := (List.getElem?_set_ne here).symm.trans held'
      have old := rep.states id' s₁ y found' held'
      have other : s₁.name ≠ s.name := fun same => here (rep.id_eq found found' same.symm)
      rw [tableOf_shared old.shared] at old ⊢
      rw [others s₁.name other]
      exact old
  · intro name none t opened
    rw [others name (rep.name_ne none found).symm] at opened
    exact rep.unnamed name none t opened
  · intro s₁ member m metrics family tracked
    rcases List.mem_or_eq_of_mem_set member with old | rfl
    · exact rep.admits s₁ old m metrics family tracked
    · rw [name]
      apply rep.admits s (List.mem_of_getElem? found) m metrics family
      exact (alike family).symm.trans tracked

/-- A state worked on its workspace. -/
theorem Represents.afterWork (rep : b.Represents used serializer r) {id : StateId}
    {s : NamedState} (found : b.states[id]? = some s) {w : Workspace keys}
    (context : w.context.forget = b.context.forget) (coherent : w.context.Coherent)
    (alike : s.tracker.Alike w.tracker) {x' : ReferenceState keys}
    (represents' : s.Represents used serializer w.table x') :
    (b.afterWork id s w).Represents used serializer (r.set id x') := by
  obtain ⟨h, storage⟩ := rep.heap
  have storage' : b.storage.setTable s.name w.table = .heap ⟨h.tables.insert s.name w.table⟩ := by
    rw [storage]
    rfl
  -- the table is put back under the name of the state
  have tables : ∀ name, (b.storage.setTable s.name w.table).table? name =
      if name = s.name then some w.table else b.storage.table? name := by
    intro name
    rw [storage', storage]
    exact h.getElem?_insert s.name name w.table
  have tracked : NamedState.Represents used serializer
      (((b.storage.setTable s.name w.table).table? s.name).getD (.empty s.kind))
      { s with tracker := { w.tracker with samples := [] } } x' := by
    rw [tables, if_pos rfl]
    exact represents'.track _
  have alike' : s.tracker.Alike { w.tracker with samples := [] } := alike
  have replaced := rep.replace found { s with tracker := { w.tracker with samples := [] } } rfl
    alike' ⟨_, storage'⟩
    (fun name other => (tables name).trans (if_neg other)) tracked
  exact (replaced.record s.name w.tracker.samples _).remember context coherent

end Backend

/-! ## Calls -/

section Calls

variable {used : Selection} {serializer : Serializer keys.Val} {t : Table}
  {s : NamedState} {x : ReferenceState keys} {r : Reference keys} {context : KeyContext keys}
  {conditions : Conditions}

/-- The current key is written. -/
theorem KeyContext.Represents.serialize (represents : context.Represents used serializer r)
    (faithful : serializer.Faithful (used keys)) {key : keys.Val} (current : r.key = some key) :
    ∃ bytes, serializer.Writes (used keys) key bytes ∧ context.serialize = .ok bytes := by
  obtain ⟨bytes, written⟩ := faithful.exists_writes (represents.used key current)
  refine ⟨bytes, written, ?_⟩
  rw [KeyContext.serialize, represents.key, current, represents.serializer]
  exact written.2

namespace NamedState.Represents

/-- A content is written for one key group, key and namespace, and the slot of their serialized
forms holds it; no other slot changes. -/
theorem write (represents : s.Represents used serializer t x)
    (faithful : serializer.Faithful (used keys)) {g : KeyGroup} {key : keys.Val} {key' : Bytes}
    (hk : serializer.Writes (used keys) key key') {n : x.namespaces.Val} {n' : Bytes}
    (current : x.ns = some n) (stored : s.ns = some n') {content : x.spec.type.Content} {t' : Table}
    (here : x.spec.Holds used (t'.slot ⟨g, key', n'⟩) content)
    (others : ∀ a, a ≠ ⟨g, key', n'⟩ → t'.slot a = t.slot a) :
    s.Represents used serializer t' (x.write g key n content) := by
  obtain ⟨ns, cells, rfl, holds⟩ := represents
  have hn : s.namespaces.serializer.Writes (used s.namespaces.schema) n n' := by
    have := holds.ns
    rw [show ns = some n from current, stored] at this
    cases this with
    | some written => exact written
  refine ⟨ns, _, rfl, holds.faithful, holds.namespaces, holds.ns, holds.plain, holds.shared, ?_⟩
  intro g₁ key₁ n₁ key₁' n₁' hk₁ hn₁
  -- another group, key or namespace has another slot, since it is written differently
  by_cases same : g₁ = g ∧ key₁ = key ∧ n₁ = n
  · obtain ⟨rfl, rfl, rfl⟩ := same
    cases Except.ok.inj (hk.2.symm.trans hk₁.2)
    cases Except.ok.inj (hn.2.symm.trans hn₁.2)
    rw [if_pos ⟨rfl, rfl, rfl⟩]
    exact here
  · have other : (⟨g₁, key₁', n₁'⟩ : SlotAddress) ≠ ⟨g, key', n'⟩ := by
      intro equal
      cases equal
      exact same ⟨rfl, faithful.roundTrips.inj hk₁ hk,
        holds.namespaces.roundTrips.inj hn₁ hn⟩
    rw [if_neg same, others _ other]
    exact holds.cells g₁ key₁ n₁ key₁' n₁' hk₁ hn₁

theorem ns_none (represents : s.Represents used serializer t x) (none : x.ns = .none) :
    s.ns = .none := by
  obtain ⟨ns, cells, rfl, holds⟩ := represents
  obtain rfl : ns = .none := none
  have related := holds.ns
  generalize s.ns = stored at related ⊢
  cases related
  rfl

/-- The slot of the current namespace holds the content of it. -/
theorem exists_slot (represents : s.Represents used serializer t x) {n : x.namespaces.Val}
    (current : x.ns = some n) {key : keys.Val} {key' : Bytes}
    (hk : serializer.Writes (used keys) key key') (g : KeyGroup) :
    ∃ n', s.ns = some n' ∧ x.spec.Holds used (t.slot ⟨g, key', n'⟩) (x.cells g key n) := by
  obtain ⟨ns, cells, rfl, holds⟩ := represents
  have related := holds.ns
  rw [show ns = some n from current] at related
  generalize s.ns = stored at related ⊢
  cases related with
  | some written => exact ⟨_, rfl, holds.cells g key n key' _ hk written⟩

/-- Where the key, the group or the namespace is missing, the scope of the state is refused. -/
theorem scope_missing (represents : s.Represents used serializer t x)
    (current : context.Represents used serializer r) (faithful : serializer.Faithful (used keys))
    {e : StateError} (missing : x.missing r.key r.group = some e) :
    ∃ context', s.scope.perform ⟨context, t, s.tracker⟩ = (.error e, ⟨context', t, s.tracker⟩) ∧
      context'.forget = context.forget ∧ context'.Coherent := by
  rw [ReferenceState.missing] at missing
  -- the key and the group are asked for before the namespace
  split at missing
  · next none =>
      cases missing
      refine ⟨context, scope_without_key current.coherent ?_, rfl, current.coherent⟩
      rw [current.key, current.group]
      simpa using none
  · next present =>
      split at missing
      · next none =>
          cases missing
          simp only [Bool.or_eq_true, Option.isNone_iff_eq_none, not_or] at present
          obtain ⟨key, hkey⟩ := Option.ne_none_iff_exists'.1 present.1
          obtain ⟨g, hg⟩ := Option.ne_none_iff_exists'.1 present.2
          obtain ⟨bytes, -, written⟩ := current.serialize faithful hkey
          have nowhere := represents.ns_none (Option.isNone_iff_eq_none.1 none)
          rw [represents.name_eq]
          exact ⟨_, scope_without_namespace current.coherent (current.group.trans hg) written
            nowhere, rfl, .remember written⟩
      · cases missing

/-- A call on a state over a table is answered as the reference answers it, and the table is the
reference's again. -/
theorem callAs (represents : s.Represents used serializer t x)
    (current : context.Represents used serializer r) (faithful : serializer.Faithful (used keys))
    (admits : s.tracker.Admits conditions.accepts)
    (room : ∀ g key ns, x.spec.type.FitsMemory (x.cells g key ns)) {type : StateType}
    {c : type.Call} (within : type.Within used c) :
    ∃ outcome x' w, (s.callAs conditions type c).perform ⟨context, t, s.tracker⟩ = (outcome, w) ∧
      x.Takes r.key r.group type c outcome x' ∧ w.context.forget = context.forget ∧
        w.context.Coherent ∧ s.tracker.Alike w.tracker ∧
          s.Represents used serializer w.table x' := by
  by_cases same : s.type = type
  · subst same
    rw [NamedState.callAs, dif_pos rfl]
    -- without a slot only a call that has nothing to do is answered
    cases missing : x.missing r.key r.group with
    | some e =>
        cases idle : s.type.isIdle c with
        | true =>
            have answered : ∃ reply, (s.call conditions c).perform ⟨context, t, s.tracker⟩ =
                (.ok reply, ⟨context, t, s.tracker⟩) := StateSpec.call_idle s.spec idle _
            obtain ⟨reply, performed⟩ := answered
            obtain ⟨ns, cells, rfl, holds⟩ := represents
            exact ⟨.ok reply, _, _, performed, .idle missing idle, rfl, current.coherent,
              fun _ => rfl, ⟨ns, cells, rfl, holds⟩⟩
        | false =>
            obtain ⟨context', refused, forget, coherent⟩ :=
              represents.scope_missing current faithful missing
            obtain ⟨ns, cells, rfl, holds⟩ := represents
            exact ⟨.error e, _, _, StateSpec.call_refused refused s.spec idle,
              .refused missing idle, forget, coherent, fun _ => rfl,
              ⟨ns, cells, rfl, holds⟩⟩
    | none =>
        -- the call is answered from the slot of the current key, group and namespace
        obtain ⟨key, g, n, hkey, hg, hn⟩ := ReferenceState.missing_eq_none missing
        obtain ⟨key', hk, written⟩ := current.serialize faithful hkey
        obtain ⟨n', stored, holds⟩ := represents.exists_slot hn hk g
        obtain ⟨ns, cells, rfl, all⟩ := id represents
        obtain ⟨reply, slot, w, performed, answers, holds', here⟩ :=
          call_served conditions ⟨context, t, s.tracker⟩ all.plain all.faithful
            current.coherent admits (current.group.trans hg) written stored holds (room g key n)
            within
        exact ⟨.ok reply, _, w, performed, .answered hkey hg hn answers, here.context,
          here.coherent, here.tracker, represents.write faithful hk hn stored
            (here.slot ▸ holds') here.others⟩
  · obtain ⟨ns, cells, rfl, holds⟩ := represents
    refine ⟨.error (.typeMismatch s.name), _, ⟨context, t, s.tracker⟩, ?_, .mismatched same, rfl,
      current.coherent, fun _ => rfl, ?_⟩
    · rw [NamedState.callAs, dif_neg same]
      rfl
    · exact ⟨ns, cells, rfl, holds⟩

end NamedState.Represents

end Calls

/-! ## Operations -/

namespace Backend.Represents

variable {used : Selection} {serializer : Serializer keys.Val} {b : Backend keys}
  {r : Reference keys}

/-- A key and its group were made current. -/
theorem setKeyAndGroup (rep : b.Represents used serializer r) {key : keys.Val}
    (selected : used keys key) (g : KeyGroup) :
    (b.setKeyAndGroup key g).Represents used serializer (r.setKeyAndGroup key g) := by
  refine ⟨⟨rep.context.groups, rep.context.serializer, rfl, rfl, ?_, ?_⟩,
    ⟨rep.names.states, rep.names.recent⟩, ⟨rep.wellNamed.states, rep.wellNamed.ids⟩, rep.format,
    rep.heap, rep.length, rep.states, rep.unnamed, rep.admits, rep.trackable⟩
  · rintro key' ⟨⟩
    exact selected
  · rintro bytes ⟨⟩

/-- Another group was made current under the same key. -/
theorem setGroup (rep : b.Represents used serializer r) (g : KeyGroup) :
    (b.setGroup g).Represents used serializer { r with group := some g } :=
  ⟨⟨rep.context.groups, rep.context.serializer, rep.context.key, rfl, rep.context.used,
    rep.context.coherent⟩, ⟨rep.names.states, rep.names.recent⟩,
    ⟨rep.wellNamed.states, rep.wellNamed.ids⟩, rep.format, rep.heap, rep.length, rep.states,
    rep.unnamed, rep.admits, rep.trackable⟩

/-- A call is answered as the reference answers it. -/
theorem call (rep : b.Represents used serializer r)
    (faithful : serializer.Faithful (used keys)) (room : r.FitsMemory) (id : StateId)
    {type : StateType} {c : type.Call} (within : type.Within used c) :
    ∃ r', r.Takes (.call id type c) ((Backend.call id type c).perform b).1 r' ∧
      ((Backend.call id type c).perform b).2.Represents used serializer
        r' := by
  rw [Backend.call, Action.perform_bind_ok (Action.perform_get b)]
  cases found : b.states[id]? with
  | none =>
      rw [perform_onState_none found]
      exact ⟨r, .callNone (rep.no_state found), rep⟩
  | some s =>
      obtain ⟨x, held, represents⟩ := rep.state found
      have admits := (rep.admits s (List.mem_of_getElem? found)).conditions
      obtain ⟨outcome, x', w, performed, takes, context, coherent, alike, represents'⟩ :=
        represents.callAs rep.context faithful admits (room x (List.mem_of_getElem? held)) within
      rw [perform_onState found represents.shared _ performed]
      exact ⟨_, .call held takes,
        rep.afterWork found context coherent alike represents'⟩

/-- Setting a namespace goes as in the reference. -/
theorem setNamespace (rep : b.Represents used serializer r) (id : StateId) {schema : Schema}
    {ns : schema.Val} (selected : used schema ns) :
    (∃ r' b', r.setNamespace id schema ns = .ok r' ∧
      (Backend.setNamespace id schema ns).perform b = (.ok (), b') ∧
        b'.Represents used serializer r') ∨
    ∃ e, r.setNamespace id schema ns = .error e ∧
      (Backend.setNamespace id schema ns).perform b = (.error e, b) := by
  cases found : b.states[id]? with
  | none =>
      refine .inr ⟨.unknownState, ?_, ?_⟩
      · rw [Reference.setNamespace, rep.no_state found]
      · rw [Backend.setNamespace, Action.perform_bind_ok (Action.perform_get b), Backend.state,
          found]
        rfl
  | some s =>
      obtain ⟨x, held, represents⟩ := rep.state found
      have shared := represents.shared
      obtain ⟨ns₀, cells, rfl, holds⟩ := represents
      rw [perform_setNamespace found, Reference.setNamespace_eq held]
      -- a selected namespace can be written, so only one of another schema is refused
      by_cases same : schema = s.namespaces.schema
      · subst same
        obtain ⟨bytes, written⟩ := holds.namespaces.exists_writes selected
        have represents : NamedState.Represents used serializer
            ((b.storage.table? s.name).getD (.empty s.kind)) { s with ns := some bytes }
            ⟨s.name, s.spec, s.namespaces.schema, some ns, cells⟩ := by
          rw [← tableOf_shared shared]
          exact ⟨some ns, cells, rfl, holds.faithful, holds.namespaces, .some written, holds.plain,
            holds.shared, holds.cells⟩
        refine .inl ⟨_, { b with states := b.states.set id { s with ns := some bytes } }, ?_, ?_,
          rep.replace found { s with ns := some bytes } rfl (fun _ => rfl) rep.heap
            (fun _ _ => rfl) represents⟩
        · rw [ReferenceState.setNamespace_same rfl]
          rfl
        · rw [NamedState.setNamespace_same written.2]
      · refine .inr ⟨.typeMismatch s.name, ?_, ?_⟩
        · exact congrArg (Except.map _) (ReferenceState.setNamespace_other same ns)
        · rw [NamedState.setNamespace_other same]

end Backend.Represents

end KeyedState
