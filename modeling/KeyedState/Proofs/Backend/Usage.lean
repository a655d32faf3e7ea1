import KeyedState.Proofs.Backend.Opening
import KeyedState.Proofs.Backend.Rescaling
import KeyedState.Proofs.Backend.Restore
import KeyedState.Proofs.State.Presence

/-!
# What backends hold under a name

Several backends may use a name, on one storage or one after the other (`Usage`): they open it with
one descriptor and one serializer of namespaces, and put something in only while the current key is
in the group that it is assigned to. Then what their storage holds under that name belongs to keys,
in the groups that they are assigned to, and is what a state of its type may store
(`HeapStorage.Legal`). Each operation of such a backend keeps it so (`Backend.Sound`), and so does
restoring a key group that another one of them has written (`Backend.Sound.readKeyGroup`). What
backends do under other names does not matter.
-/

namespace KeyedState

open Std (ExtTreeMap)
open KeyedState.Action (Keeps)

variable {keys : Schema}

/-- How a name is used: the number of key groups and the serializer of keys of all backends that use
it, the name, how its state and its namespaces are written, and which values are used. -/
structure Usage (keys : Schema) where
  groups : UInt32
  serializer : Serializer keys.Val
  name : String
  spec : StateSpec Id
  namespaces : NamespaceType
  used : Selection

namespace Usage

variable (u : Usage keys)

/-- The group that a key is assigned to. -/
def groupOf (key : keys.Val) : KeyGroup := KeyGroup.assign (keys.hash key) u.groups

/-- The bytes are written for a used key that is assigned to the group. -/
def Locates (g : KeyGroup) (bytes : Bytes) : Prop :=
  ∃ key, u.serializer.Writes (u.used keys) key bytes ∧ g = u.groupOf key

/-- Used keys are read back as they were written, and so are used values of the state. -/
structure RoundTrips : Prop where
  key : u.serializer.RoundTrips (u.used keys)
  spec : u.spec.RoundTrips u.used

/-- The slot of a key in a group may hold this: nothing if the key does not belong there, and else
what may be stored. -/
structure Allows (g : KeyGroup) (key : Bytes) (slot : Slot) : Prop where
  located : slot ≠ .empty → u.Locates g key
  legal : u.spec.Legal u.used slot

/-- A table may be kept under a name: it keeps nothing empty, and if it is the name in question it
holds what belongs there. -/
structure Permits (name : String) (t : Table) : Prop where
  pruned : t.Pruned
  guarded : name = u.name → t.Guarded u.spec.type.kind (u.spec.Stores u.used) fun a =>
    u.Locates a.group a.key

/-- A descriptor may be opened: if it is one of the name, it is the one that is used for it, with
the one serializer of namespaces, and without expiry. -/
structure Describes (format : SerializerFormat) (d : Descriptor) (namespaces : NamespaceType) :
    Prop where
  spec : d.name = u.name → d.spec.settled format = u.spec
  namespaces : d.name = u.name → namespaces = u.namespaces
  plain : d.name = u.name → d.ttl.isEnabled = false

variable {u}

/-- Under the name a table has to hold what belongs there. -/
theorem permits_iff_guarded {name : String} (same : name = u.name) {t : Table} :
    u.Permits name t ↔ t.Guarded u.spec.type.kind (u.spec.Stores u.used) fun a =>
      u.Locates a.group a.key :=
  ⟨fun permits => permits.guarded same, fun guarded => ⟨guarded.pruned, fun _ => guarded⟩⟩

/-- Under another name a table only has to keep nothing empty. -/
theorem permits_iff_pruned {name : String} (other : name ≠ u.name) {t : Table} :
    u.Permits name t ↔ t.Pruned :=
  ⟨Permits.pruned, fun pruned => ⟨pruned, fun same => absurd same other⟩⟩

theorem permits_empty {name : String} {kind : StateKind} (same : name = u.name →
    kind = u.spec.type.kind) : u.Permits name (.empty kind) where
  pruned := Table.pruned_empty kind
  guarded here := same here ▸ Table.guarded_empty kind

end Usage

/-! ## Storages -/

/-- What a storage holds under the name belongs there. -/
structure HeapStorage.Legal (u : Usage keys) (h : HeapStorage) : Prop where
  pruned : h.Pruned
  kind : ∀ kind, h.kind? u.name = some kind → kind = u.spec.type.kind
  allowed : ∀ g key ns, u.Allows g key ((h.contents u.name g).slot key ns)

namespace HeapStorage

variable {u : Usage keys} {h : HeapStorage}

/-- Every table of such a storage may be kept under its name. -/
theorem legal_iff : h.Legal u ↔
    ∀ (name : String) (t : Table), h.tables[name]? = some t → u.Permits name t := by
  constructor
  · intro legal name t found
    refine ⟨legal.pruned name t found, ?_⟩
    rintro rfl
    have slot_eq : ∀ a, t.slot a = (h.contents u.name a.group).slot a.key a.ns := fun a => by
      rw [contents_of_getElem? found, Table.slot_eq]
    refine ⟨legal.kind _ (by rw [kind?, found]; rfl), legal.pruned _ t found, fun a holds => ?_,
      fun a value there => ?_⟩
    · rw [slot_eq] at holds
      exact (legal.allowed a.group a.key a.ns).located holds
    · rw [Table.get, slot_eq] at there
      exact (legal.allowed a.slot.group a.slot.key a.slot.ns).legal a.userKey value there
  · intro permits
    refine ⟨fun name t found => (permits name t found).pruned, fun kind same => ?_,
      fun g key ns => ?_⟩
    · obtain ⟨t, found, rfl⟩ := Option.map_eq_some_iff.1 same
      exact ((permits u.name t found).guarded rfl).kind
    · cases found : h.tables[u.name]? with
      | none =>
          rw [contents_of_none found, GroupContents.slot_empty]
          refine ⟨fun holds => absurd rfl holds, fun userKey value there => ?_⟩
          rw [Slot.get_empty] at there
          cases there
      | some t =>
          have guarded := (permits u.name t found).guarded rfl
          rw [contents_of_getElem? found]
          exact ⟨guarded.allowed ⟨g, key, ns⟩, fun userKey =>
            guarded.legal ⟨⟨g, key, ns⟩, userKey⟩⟩

theorem legal_empty (u : Usage keys) : Legal u .empty :=
  legal_iff.2 fun name t found => by simp [empty] at found

theorem Legal.insert (legal : h.Legal u) {name : String} {t : Table} (permits : u.Permits name t) :
    Legal u ⟨h.tables.insert name t⟩ := by
  refine legal_iff.2 fun name' t' found => ?_
  rw [getElem?_insert] at found
  split at found
  · next same =>
      cases found
      exact same ▸ permits
  · exact legal_iff.1 legal name' t' found

/-- A key group that was written elsewhere, in any order, takes the place of what is held in it. -/
theorem Legal.restore {source : HeapStorage} (legal : h.Legal u) (source_legal : source.Legal u)
    {g : KeyGroup} {s : KeyGroupSnapshot} (order : (source.snapshot g).Reorders s) :
    (h.restore s).Legal u := by
  have carried : source.Carried h [g] (h.restore s) := carried_restore source_legal.pruned order
  refine ⟨legal.pruned.restore _, fun kind found => ?_, fun g' key ns => ?_⟩
  · cases old : h.kind? u.name with
    | some kind' =>
        rw [carried.known u.name kind' old] at found
        exact Option.some.inj found ▸ legal.kind kind' old
    | none =>
        by_cases moved : ∃ g' ∈ [g], source.contents u.name g' ≠ ∅
        · rw [carried.opened u.name old moved] at found
          exact source_legal.kind kind found
        · push Not at moved
          rw [carried.unopened u.name old moved] at found
          cases found
  · by_cases here : g' ∈ [g]
    · rw [carried.listed u.name g' here]
      exact source_legal.allowed g' key ns
    · rw [carried.others u.name g' here]
      exact legal.allowed g' key ns

end HeapStorage

/-! ## Backends -/

/-- The context of a backend that uses the name. -/
structure KeyContext.Fits (u : Usage keys) (c : KeyContext keys) : Prop where
  groups : c.groups = u.groups
  serializer : c.serializer = some u.serializer
  coherent : c.Coherent

/-- The current key is a used one, and the current group is the one it is assigned to. -/
def KeyContext.Homed (u : Usage keys) (c : KeyContext keys) : Prop :=
  ∀ key g, c.key = some key → c.group = some g → u.used keys key ∧ g = u.groupOf key

/-- A state finds its table in the storage. If it is one of the name, it is written as it should
be. -/
structure NamedState.Conforms (u : Usage keys) (s : NamedState) : Prop where
  shared : s.place = .shared
  spec : s.name = u.name → s.spec = u.spec
  namespaces : s.name = u.name → s.namespaces = u.namespaces
  plain : s.name = u.name → s.ttl.isEnabled = false

/-- A backend over tables that uses the name as it should. Names stand for states that have them. If
it can set up the histories of the families that it tracks, it can for all its states. -/
structure Backend.Sound (u : Usage keys) (b : Backend keys) : Prop where
  context : b.context.Fits u
  storage : ∃ h, b.storage = .heap h ∧ h.Legal u
  states : ∀ s ∈ b.states, s.Conforms u
  named : ∀ name id, b.names.states[name]? = some id ∨ b.names.lastAccessed = some (name, id) →
    ∃ s, b.states[id]? = some s ∧ s.name = name
  admits : b.Trackable → ∀ s ∈ b.states, b.Admits s

/-! ### Work on a state -/

/-- Looking up the current key at most remembers how it is written. -/
theorem KeyContext.coordinates_keeps_current (current : KeyContext keys) :
    Keeps (fun c => c.forget = current.forget ∧ c.Coherent) coordinates fun k =>
      current.group = some k.group ∧ current.serialize = .ok k.key := by
  rintro c ⟨same, coherent⟩
  rw [← group_eq_of_forget same, ← serialize_eq_of_forget same, coordinates, Action.perform_of]
  cases group : c.group with
  | none => exact ⟨⟨same, coherent⟩, fun _ located => by cases located⟩
  | some g =>
      cases remembered : c.serialized with
      | some bytes =>
          refine ⟨⟨same, coherent⟩, fun k located => ?_⟩
          cases located
          exact ⟨rfl, coherent bytes remembered⟩
      | none =>
          cases written : c.serialize with
          | error e => exact ⟨⟨same, coherent⟩, fun _ located => by cases located⟩
          | ok bytes =>
              refine ⟨⟨?_, .remember written⟩, fun k located => ?_⟩
              · rw [← same, KeyContext.forget, KeyContext.forget, group]
              · cases located
                exact ⟨rfl, rfl⟩

namespace Tracker

/-- The layer that takes samples tracks the same families all along. -/
theorem store_keeps_alike {σ : Type} (tracker : Tracker) (accepts : Sample → Bool)
    (inner : Store σ) :
    (store accepts inner).Keeps (fun s => tracker.Alike s.2) fun _ => True :=
  fun r _ s alike => ⟨fun family => (alike_observe accepts s.2 r _ family).trans (alike family),
    fun _ _ => trivial⟩

end Tracker

namespace NamedState

variable (tracker : Tracker) (s : NamedState) (conditions : Conditions)

theorem workspaceStore_keeps_alike :
    Store.Keeps (fun w : Workspace keys => tracker.Alike w.tracker) (fun _ => True)
      (s.workspaceStore conditions) :=
  fun r _ => (Tracker.store_keeps_alike tracker conditions.accepts _ r trivial).within
    (fun _ alike => alike) fun _ _ _ alike => alike

/-- A call on a state does not change which families are tracked. -/
theorem callAs_keeps_alike (type : StateType) (c : type.Call) :
    Keeps (fun w : Workspace keys => tracker.Alike w.tracker) (s.callAs conditions type c)
      fun _ => True := by
  rw [callAs]
  split
  · next same =>
      subst same
      refine StateSpec.call_keeps (workspaceStore_keeps_alike tracker s conditions) ?_ s.spec c
      have looked : Keeps (fun w : Workspace keys => tracker.Alike w.tracker)
          (KeyContext.coordinates.within contextPart) fun _ => True :=
        Keeps.within (J := fun _ => True) (fun _ _ => ⟨trivial, fun _ _ => trivial⟩)
          (fun _ _ => trivial) fun _ alike _ _ => alike
      apply looked.bind
      intro k _
      cases s.ns with
      | none => exact .lift fun _ _ => trivial
      | some ns => exact .pure trivial
  · exact .lift fun _ _ => trivial

end NamedState

/-- A query makes one request, and puts nothing in. -/
theorem serializedContent_keeps {σ : Type} {I : σ → Prop} {store : Store σ} {slot : SlotAddress}
    {Q : Option Bytes → Prop} {Q' : List (Bytes × Bytes) → Prop}
    (get : Keeps I (store.get slot.whole) Q) (entries : Keeps I (store.entries slot) Q')
    (kind : StateKind) : Keeps I (serializedContent kind store slot) fun _ => True := by
  cases kind with
  | map => exact entries.bind fun _ _ => .pure trivial
  | value => exact get.weaken fun _ _ => trivial
  | list => exact get.weaken fun _ _ => trivial
  | reducing => exact get.weaken fun _ _ => trivial

namespace NamedState

variable {s : NamedState} {conditions : Conditions} {I : Workspace keys → Prop}

/-- What every request keeps is kept by a query. -/
theorem serialized_keeps
    (keeps : Store.Keeps I (fun _ => True) (s.workspaceStore conditions)) (slot : SlotAddress) :
    Keeps I (s.serialized conditions slot) fun _ => True :=
  serializedContent_keeps (keeps (.get slot.whole) trivial) (keeps (.entries slot) trivial) s.kind

/-- What legal requests keep is kept by a query. -/
theorem serialized_guards {P : Option Bytes → Bytes → Prop} {S : SlotAddress → Prop}
    (guards : Store.Guards I P S (s.workspaceStore conditions)) (slot : SlotAddress) :
    Keeps I (s.serialized conditions slot) fun _ => True :=
  serializedContent_keeps (guards (.get slot.whole) trivial) (guards (.entries slot) trivial) s.kind

end NamedState

/-- A namespace that was set is one of the state's own, and is written. -/
theorem NamedState.exists_of_setNamespace {s s' : NamedState} {schema : Schema} {ns : schema.Val}
    (named : s.setNamespace schema ns = .ok s') :
    ∃ (same : schema = s.namespaces.schema) (bytes : Bytes),
      s.namespaces.serializer.serialize (same ▸ ns) = .ok bytes ∧
        s' = { s with ns := some bytes } := by
  rw [setNamespace] at named
  split at named
  · next same =>
      cases written : s.namespaces.serializer.serialize (same ▸ ns) with
      | error e => rw [written] at named; cases named
      | ok bytes =>
          rw [written] at named
          cases named
          exact ⟨same, bytes, written, rfl⟩
  · cases named

/-- Of a state only its current namespace is set. -/
theorem NamedState.eq_of_setNamespace {s s' : NamedState} {schema : Schema} {ns : schema.Val}
    (named : s.setNamespace schema ns = .ok s') : ∃ bytes, s' = { s with ns := some bytes } := by
  obtain ⟨-, bytes, -, set⟩ := exists_of_setNamespace named
  exact ⟨bytes, set⟩

/-- Setting a namespace changes a state, or nothing. -/
theorem Backend.perform_setNamespace_cases (id : StateId) (schema : Schema) (ns : schema.Val)
    (b : Backend keys) :
    ((setNamespace id schema ns).perform b).2 = b ∨
      ∃ s bytes, b.states[id]? = some s ∧ ((setNamespace id schema ns).perform b).2 =
        { b with states := b.states.set id { s with ns := some bytes } } := by
  cases found : b.states[id]? with
  | none =>
      rw [setNamespace, Action.perform_bind_ok (Action.perform_get b), state, found]
      exact .inl rfl
  | some s =>
      rw [perform_setNamespace found]
      cases named : s.setNamespace schema ns with
      | error e => exact .inl rfl
      | ok s' =>
          obtain ⟨bytes, rfl⟩ := NamedState.eq_of_setNamespace named
          exact .inr ⟨s, bytes, rfl, rfl⟩

/-- The serialized form of a key that is at home belongs to its group. -/
theorem KeyContext.Homed.locates {u : Usage keys} {c : KeyContext keys} (homed : c.Homed u)
    (fits : c.Fits u) {g : KeyGroup} {bytes : Bytes} (group : c.group = some g)
    (written : c.serialize = .ok bytes) : u.Locates g bytes := by
  rw [serialize, fits.serializer] at written
  cases current : c.key with
  | none => rw [current] at written; cases written
  | some key =>
      rw [current] at written
      obtain ⟨used, assigned⟩ := homed key g current group
      exact ⟨key, ⟨used, written⟩, assigned⟩

namespace Backend

variable {u : Usage keys} {b : Backend keys} {id : StateId} {s : NamedState} {α : Type}

namespace Sound

/-- The table of a state may be kept under its name. -/
theorem tableOf (sound : b.Sound u) (conforms : s.Conforms u) :
    u.Permits s.name (b.tableOf s) := by
  obtain ⟨h, held, legal⟩ := sound.storage
  rw [tableOf_eq held conforms.shared]
  cases found : h.tables[s.name]? with
  | none =>
      refine Usage.permits_empty fun same => ?_
      rw [NamedState.kind, NamedState.type, conforms.spec same]
  | some t => exact HeapStorage.legal_iff.1 legal s.name t found

/-- A state was replaced by one of the same name, perhaps with its table. -/
theorem replace (sound : b.Sound u) (found : b.states[id]? = some s) (s' : NamedState)
    (name : s'.name = s.name) (conforms : s'.Conforms u) (alike : s.tracker.Alike s'.tracker)
    {storage : Storage} (heap : ∃ h, storage = .heap h ∧ h.Legal u) :
    Sound u { b with storage, states := b.states.set id s' } := by
  refine ⟨sound.context, heap, fun s₁ member => ?_, fun name' id' numbered => ?_,
    RoomForSamples.replace sound.admits found name alike storage⟩
  · rcases List.mem_or_eq_of_mem_set member with old | rfl
    · exact sound.states s₁ old
    · exact conforms
  · obtain ⟨s₁, held, same⟩ := sound.named name' id' numbered
    by_cases here : id = id'
    · subst here
      cases Option.some.inj (found.symm.trans held)
      exact ⟨s', List.getElem?_set_self (List.getElem?_eq_some_iff.1 found).1, name.trans same⟩
    · exact ⟨s₁, (List.getElem?_set_ne here).trans held, same⟩

/-- Samples were recorded, and the context remembers more at most. -/
theorem record (sound : b.Sound u) {context : KeyContext keys} (fits : context.Fits u)
    (state : String) (samples : List Sample) (events : List (Event keys)) :
    Sound u { b with
      context
      metrics := b.metrics.map fun m => samples.foldl (fun m x => m.recordSample state x) m
      events } :=
  ⟨fits, sound.storage, sound.states, sound.named,
    RoomForSamples.record sound.admits context state samples events⟩

/-- A state worked on its workspace. -/
theorem afterWork (sound : b.Sound u) (found : b.states[id]? = some s) {w : Workspace keys}
    (same : w.context.forget = b.context.forget) (coherent : w.context.Coherent)
    (permits : u.Permits s.name w.table) (alike : s.tracker.Alike w.tracker) :
    (b.afterWork id s w).Sound u := by
  obtain ⟨h, held, legal⟩ := sound.storage
  have conforms := sound.states s (List.mem_of_getElem? found)
  have heap : ∃ h, b.storage.setTable s.name w.table = .heap h ∧ h.Legal u := by
    rw [held]
    exact ⟨_, rfl, legal.insert permits⟩
  have fits : w.context.Fits u :=
    ⟨(congrArg (·.groups) same).trans sound.context.groups,
      (congrArg (·.serializer) same).trans sound.context.serializer, coherent⟩
  have replaced := sound.replace found { s with tracker := { w.tracker with samples := [] } } rfl
    ⟨conforms.shared, conforms.spec, conforms.namespaces, conforms.plain⟩ alike heap
  exact replaced.record fits s.name w.tracker.samples _

/-- What works on the workspace of a state and keeps its parts keeps the backend sound. -/
theorem onState (sound : b.Sound u) {run : NamedState → Action (Workspace keys) α}
    (keeps : ∀ s, b.states[id]? = some s → s.Conforms u →
      Keeps (fun w => (w.context.forget = b.context.forget ∧ w.context.Coherent) ∧
        u.Permits s.name w.table) (run s) fun _ => True)
    (alike : ∀ s, Keeps (fun w => s.tracker.Alike w.tracker) (run s) fun _ => True) :
    ((Backend.onState id run).perform b).2.Sound u := by
  cases found : b.states[id]? with
  | none =>
      rw [perform_onState_none found]
      exact sound
  | some s =>
      have conforms := sound.states s (List.mem_of_getElem? found)
      obtain ⟨⟨⟨same, coherent⟩, permits⟩, -⟩ := keeps s found conforms
        ⟨b.context, b.tableOf s, s.tracker⟩ ⟨⟨rfl, sound.context.coherent⟩, sound.tableOf conforms⟩
      have tracked := (alike s ⟨b.context, b.tableOf s, s.tracker⟩ fun _ => rfl).1
      rw [perform_onState found conforms.shared run rfl]
      exact sound.afterWork found same coherent permits tracked

/-- A call keeps the backend sound, if it puts used values in only, and only while the current key
is at home. -/
theorem call (sound : b.Sound u) (roundTrips : u.RoundTrips) (id : StateId) {type : StateType}
    {c : type.Call} (proper : ∀ s, b.states[id]? = some s → s.name = u.name → type.Puts c →
      type.Within u.used c ∧ b.context.Homed u) :
    ((Backend.call id type c).perform b).2.Sound u := by
  rw [Backend.call, Action.perform_bind_ok (Action.perform_get b)]
  refine sound.onState (fun s found conforms => ?_) fun s =>
    NamedState.callAs_keeps_alike s.tracker s _ type c
  have current := KeyContext.coordinates_keeps_current b.context
  by_cases same : s.name = u.name
  · simp only [Usage.permits_iff_guarded same]
    have spec := conforms.spec same
    rw [← spec]
    refine NamedState.callAs_guards (Table.store_guards _) (conforms.plain same)
      (spec ▸ roundTrips.spec) (current.weaken ?_) (fun puts => (proper s found same puts).1) _
    rintro k ⟨group, written⟩ puts ns
    exact (proper s found same puts).2.locates sound.context group written
  · simp only [Usage.permits_iff_pruned same]
    refine NamedState.callAs_keeps (S := fun _ => True) ?_ (current.weaken fun _ _ _ => trivial) s _
      type c
    exact fun r _ t pruned => ⟨pruned.perform r, fun _ _ => trivial⟩

/-- A query keeps the backend sound. -/
theorem serialized (sound : b.Sound u) (id : StateId) (slot : SlotAddress) :
    ((Backend.serialized id slot).perform b).2.Sound u := by
  rw [Backend.serialized, Action.perform_bind_ok (Action.perform_get b)]
  refine sound.onState (fun s found conforms => ?_) fun s => ?_
  · by_cases same : s.name = u.name
    · simp only [Usage.permits_iff_guarded same]
      have guards : Store.Guards
          (fun w : Workspace keys => (w.context.forget = b.context.forget ∧ w.context.Coherent) ∧
            w.table.Guarded u.spec.type.kind (u.spec.Stores u.used)
              fun a => u.Locates a.group a.key)
          (u.spec.Stores u.used) (fun a => u.Locates a.group a.key)
          (s.workspaceStore (b.conditions s)) :=
        NamedState.workspaceStore_guards (C := fun c => c.forget = b.context.forget ∧ c.Coherent)
          (Table.store_guards u.spec.type.kind) (conforms.plain same) _
      exact NamedState.serialized_guards guards slot
    · simp only [Usage.permits_iff_pruned same]
      have keeps : Store.Keeps
          (fun w : Workspace keys => (w.context.forget = b.context.forget ∧ w.context.Coherent) ∧
            w.table.Pruned) (fun _ => True) (s.workspaceStore (b.conditions s)) :=
        NamedState.workspaceStore_keeps (C := fun c => c.forget = b.context.forget ∧ c.Coherent)
          (fun r _ t pruned => ⟨pruned.perform r, fun _ _ => trivial⟩) s _
      exact NamedState.serialized_keeps keeps slot
  · exact NamedState.serialized_keeps (NamedState.workspaceStore_keeps_alike s.tracker s _) slot

/-- Setting a namespace keeps the backend sound. -/
theorem setNamespace (sound : b.Sound u) (id : StateId) (schema : Schema) (ns : schema.Val) :
    ((Backend.setNamespace id schema ns).perform b).2.Sound u := by
  rcases perform_setNamespace_cases id schema ns b with same | ⟨s, bytes, found, after⟩
  · rw [same]
    exact sound
  · rw [after]
    have conforms := sound.states s (List.mem_of_getElem? found)
    exact sound.replace found { s with ns := some bytes } rfl
      ⟨conforms.shared, conforms.spec, conforms.namespaces, conforms.plain⟩ (fun _ => rfl)
      sound.storage

/-- A key group is restored from what such a storage has written, in any order. -/
theorem readKeyGroup (sound : b.Sound u) {source : HeapStorage} (legal' : source.Legal u)
    (fits : source.FitsMemory) {g : KeyGroup} {written : KeyGroupSnapshot}
    (order : (source.snapshot g).Reorders written) {stream rest : Bytes}
    (unpacked : (b.compression.decode stream).bytes =
      KeyGroupSnapshot.codec.encode written ++ rest) (g' : KeyGroup) :
    ((Backend.readKeyGroup g' stream).perform b).2.Sound u := by
  obtain ⟨h, held, legal⟩ := sound.storage
  rcases performed : (Backend.readKeyGroup g' stream).perform b with ⟨e | rest', after⟩
  · have same : after = b := readKeyGroup_allOrNothing g' stream b e after performed
    exact same ▸ sound
  · obtain ⟨h', read, rfl⟩ := exists_of_readKeyGroup held performed
    obtain ⟨s, decoded, -, -, rfl⟩ := HeapStorage.exists_restore_of_read read
    -- what is decoded is what was written
    rw [unpacked, KeyGroupSnapshot.codec.decode_encode _ rest (order.fits (fits.fits g))] at decoded
    cases decoded
    exact ⟨sound.context, ⟨_, rfl, legal.restore legal' order⟩, sound.states, sound.named,
      sound.admits⟩

end Sound

end Backend

end KeyedState
