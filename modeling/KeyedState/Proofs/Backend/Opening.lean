import KeyedState.Proofs.Backend.Refinement

/-!
# Opening states of the reference

Asking a backend for the state of a descriptor finds or creates the state that the reference has
(`Backend.Represents.getOrCreate`). Creating a state goes in stages, each of which may end it: the
descriptor is checked, the table is opened, the capacities of the histories are registered, the
state is published, and only then it is added. What the earlier stages did stays done when a later
one refuses: an empty table of that name, and registered capacities.
-/

namespace KeyedState

open Std (ExtTreeMap)

variable {keys : Schema}

namespace Descriptor

variable (d : Descriptor) (format : SerializerFormat)

@[simp] theorem name_settle : (d.settle format).name = d.name := rfl

@[simp] theorem ttl_settle : (d.settle format).ttl = d.ttl := rfl

/-- The state of a descriptor whose serializers were set. -/
theorem create_settle (namespaces : NamespaceType) (ttl : TtlConfig) (tracker : Tracker)
    (place : Place) :
    NamedState.create (d.settle format) namespaces ttl tracker place =
      .ok ⟨d.name, d.spec.settled format, namespaces, none, ttl, tracker, place⟩ := by
  have complete : (d.settle format).spec.complete? = some (d.spec.settled format) :=
    d.spec.complete?_settle format
  rw [NamedState.create, complete, name_settle]

end Descriptor

/-- What is found in a list with one more element. -/
theorem getElem?_concat_iff {α : Type} {l : List α} {a x : α} {i : Nat} :
    (l ++ [a])[i]? = some x ↔ l[i]? = some x ∨ i = l.length ∧ a = x := by
  rw [List.getElem?_append]
  split
  · next inside =>
      constructor
      · exact .inl
      · rintro (found | ⟨rfl, -⟩)
        · exact found
        · exact absurd inside (Nat.lt_irrefl _)
  · next outside =>
      rw [List.getElem?_singleton, List.getElem?_eq_none (Nat.not_lt.1 outside)]
      constructor
      · intro found
        split at found
        · next last =>
            refine .inr ⟨?_, Option.some.inj found⟩
            have := Nat.not_lt.1 outside
            omega
        · cases found
      · rintro (found | ⟨rfl, rfl⟩)
        · cases found
        · simp

/-! ## Tables of new states -/

/-- A table is opened that is not there or empty: it is there and empty then, unless it was there
at another kind. -/
theorem Storage.perform_openTable {h : HeapStorage} {name : String} (kind : StateKind)
    (emptied : ∀ t, h.tables[name]? = some t → ∀ a, t.slot a = .empty) :
    (∃ h', (Storage.openTable name kind).perform (.heap h) = (.ok .shared, .heap h') ∧
      (∀ name', name' ≠ name → h'.tables[name']? = h.tables[name']?) ∧
        ∀ t, h'.tables[name]? = some t → ∀ a, t.slot a = .empty) ∨
    ∃ e, (Storage.openTable name kind).perform (.heap h) = (.error e, .heap h) ∧
      ∃ t, h.tables[name]? = some t := by
  simp only [openTable, Action.perform_of, HeapStorage.openTable]
  cases found : h.tables[name]? with
  | none =>
      refine .inl ⟨⟨h.tables.insert name (.empty kind)⟩, rfl, fun name' other => ?_,
        fun t opened => ?_⟩
      · rw [h.getElem?_insert, if_neg other]
      · rw [h.getElem?_insert, if_pos rfl] at opened
        cases opened
        exact fun a => Table.slot_empty kind a
  | some t =>
      by_cases same : t.kind = kind
      · refine .inl ⟨h, ?_, fun _ _ => rfl, emptied⟩
        simp only [same, if_true]
      · refine .inr ⟨.reopenedAs name t.kind kind, ?_, t, rfl⟩
        simp only [same, if_false]

/-! ## Types of states -/

theorem NamedState.isOf_iff (s : NamedState) (type : StateType) (schema : Schema) :
    s.isOf type schema = true ↔ s.type = type ∧ s.namespaces.schema = schema := by
  rw [isOf, Bool.and_eq_true, beq_iff_eq, beq_iff_eq]

/-- A state of another type, or for namespaces of another schema, is not the one asked for. -/
theorem NamedState.isOf_eq_false_iff (s : NamedState) (type : StateType) (schema : Schema) :
    s.isOf type schema = false ↔ s.type ≠ type ∨ s.namespaces.schema ≠ schema := by
  rw [← Bool.not_eq_true, isOf_iff, not_and_or]

/-! ## Capacities of new states -/

namespace Backend

variable {used : Selection} {serializer : Serializer keys.Val} {b : Backend keys}
  {r : Reference keys} {d : Descriptor}

/-- A family that a new state tracks is enabled. -/
theorem enabled_of_newTracker {family : Tracked}
    (tracked : (b.newTracker.sampler family).isSome = true) :
    (b.sampling family).enabled = true := by
  rw [newTracker] at tracked
  split at tracked
  · cases family with
    | latency =>
        simp only [Tracker.sampler, Tracker.of] at tracked
        split at tracked
        · next enabled => exact enabled
        · cases tracked
    | size =>
        simp only [Tracker.sampler, Tracker.of] at tracked
        split at tracked
        · next enabled => exact enabled
        · cases tracked
  · cases family <;> cases tracked

theorem capacity_registerFamily (m : Metrics) (family family' : Tracked) (c : SamplingConfig)
    (name name' : String) :
    (registerFamily m family c name).capacity family' name' =
      if c.enabled = true ∧ family = family' ∧ name = name' then max c.history.toNat 1
      else m.capacity family' name' := by
  rw [registerFamily]
  by_cases enabled : c.enabled = true
  · simp only [enabled, if_true, true_and]
    exact m.capacity_register family family' name name' _
  · rw [if_neg enabled, if_neg fun all => enabled all.1]

/-- The capacities after those of a new state were registered. -/
theorem capacity_registerTracking {m : Metrics} {name : String}
    (metrics : (b.registerTracking name).metrics = some m) :
    ∃ m₀, b.metrics = some m₀ ∧ ∀ family name', m.capacity family name' =
      if (b.sampling family).enabled = true ∧ name = name' then
        max (b.sampling family).history.toNat 1
      else m₀.capacity family name' := by
  obtain ⟨m₀, metrics₀, rfl⟩ := Option.map_eq_some_iff.1 metrics
  refine ⟨m₀, metrics₀, fun family name' => ?_⟩
  rw [capacity_registerFamily, capacity_registerFamily]
  cases family with
  | latency =>
      rw [if_neg fun all => Tracked.noConfusion all.2.1]
      exact if_congr (by simp [sampling]) rfl rfl
  | size =>
      rw [if_neg (c := b.latency.enabled = true ∧ Tracked.latency = .size ∧ name = name') fun all =>
        Tracked.noConfusion all.2.1]
      exact if_congr (by simp [sampling]) rfl rfl

/-- If the histories that are asked for can be set up, there is room for the samples of all
states. -/
def RoomForSamples (b : Backend keys) : Prop := b.Trackable → ∀ s ∈ b.states, b.Admits s

namespace RoomForSamples

/-- A state was replaced by one of the same name that tracks the same families, perhaps with its
table. -/
theorem replace (room : b.RoomForSamples) {id : StateId} {s s' : NamedState}
    (found : b.states[id]? = some s) (name : s'.name = s.name)
    (alike : s.tracker.Alike s'.tracker) (storage : Storage) :
    RoomForSamples { b with storage, states := b.states.set id s' } := by
  intro trackable s₁ member
  rcases List.mem_or_eq_of_mem_set member with old | rfl
  · exact room trackable s₁ old
  · intro m metrics family tracked
    rw [name]
    exact room trackable s (List.mem_of_getElem? found) m metrics family
      ((alike family).symm.trans tracked)

/-- Samples were recorded. -/
theorem record (room : b.RoomForSamples) (context : KeyContext keys) (state : String)
    (samples : List Sample) (events : List (Event keys)) :
    RoomForSamples { b with
      context
      metrics := b.metrics.map fun m => samples.foldl (fun m x => m.recordSample state x) m
      events } := by
  intro trackable s member
  have trackable' : b.Trackable := fun m metrics =>
    trackable _ (Option.map_eq_some_iff.2 ⟨m, metrics, rfl⟩)
  intro m metrics family tracked
  obtain ⟨m₀, metrics₀, rfl⟩ := Option.map_eq_some_iff.1 metrics
  rw [capacity_collect]
  exact room trackable' s member m₀ metrics₀ family tracked

/-- The capacities of a name were registered; if they can be set up, there is also room for a new
state of it. -/
theorem registerTracking (room : b.RoomForSamples) (name : String) :
    (b.registerTracking name).RoomForSamples ∧
      (b.Trackable → (b.registerTracking name).Trackable) ∧
      ∀ s : NamedState, s.name = name → s.tracker = b.newTracker →
        (b.registerTracking name).Trackable → (b.registerTracking name).Admits s := by
  -- the settings are the same, and so is whether somebody collects the samples
  have back : (b.registerTracking name).Trackable → b.Trackable := fun trackable m metrics =>
    trackable _ (Option.map_eq_some_iff.2 ⟨m, metrics, rfl⟩)
  refine ⟨?_, ?_, ?_⟩
  · intro trackable s member m metrics family tracked
    obtain ⟨m₀, metrics₀, capacity⟩ := capacity_registerTracking metrics
    rw [capacity]
    split
    · next enabled =>
        exact Nat.max_le.2 ⟨back trackable m₀ metrics₀ family enabled.1, by decide⟩
    · exact room (back trackable) s member m₀ metrics₀ family tracked
  · intro trackable m metrics family enabled
    obtain ⟨m₀, metrics₀, -⟩ := capacity_registerTracking metrics
    exact trackable m₀ metrics₀ family enabled
  · intro s named tracker trackable m metrics family tracked
    obtain ⟨m₀, metrics₀, capacity⟩ := capacity_registerTracking metrics
    rw [tracker] at tracked
    have enabled := enabled_of_newTracker tracked
    rw [capacity, if_pos ⟨enabled, named.symm⟩]
    exact Nat.max_le.2 ⟨back trackable m₀ metrics₀ family enabled, by decide⟩

/-- A state was added that has room for its samples. -/
theorem add (room : b.RoomForSamples) {s : NamedState} (admits : b.Trackable → b.Admits s)
    (names : StateNames) : RoomForSamples { b.addState s with names } := by
  intro trackable s₁ member
  rcases List.mem_append.1 member with old | last
  · exact room trackable s₁ old
  · exact List.mem_singleton.1 last ▸ admits trackable

end RoomForSamples

/-- Publishing a state changes nothing but what is published, and succeeds if nothing is to be
published. -/
theorem perform_publish (d : Descriptor) (id : StateId) (name : String) (kind : StateKind)
    (b : Backend keys) :
    ∃ outcome queries, (publish d id name kind).perform b = (outcome, { b with queries }) ∧
      (outcome = .ok () ∨ d.queryable.isSome = true ∧ ∃ e, outcome = .error e) := by
  obtain ⟨core, storage, queries, closeables, metrics, states, now, events⟩ := b
  rw [publish]
  cases d.queryable with
  | none => exact ⟨.ok (), queries, rfl, .inl rfl⟩
  | some queryName =>
      dsimp only
      rw [Action.perform_bind_ok (Action.perform_get _)]
      cases queries with
      | none => exact ⟨.error (.queryRegistryMissing d.name), none, rfl, .inr ⟨rfl, _, rfl⟩⟩
      | some service =>
          dsimp only [range]
          cases service.register queryName name kind core.context.range id with
          | error e => exact ⟨.error e, some service, rfl, .inr ⟨rfl, e, rfl⟩⟩
          | ok service' => exact ⟨.ok (), some service', rfl, .inl rfl⟩

/-- A state can be made for keys that are serialized if it has a name, and if it does not expire
where it can be queried. -/
theorem checkNew_eq_ok (named : d.name ≠ "") (known : b.context.serializer.isSome = true)
    (lasting : (d.queryable.isSome && d.ttl.isEnabled) = false) : b.checkNew d = .ok () := by
  rw [checkNew, if_neg fun empty => named (String.isEmpty_iff.1 empty),
    Option.isNone_eq_false_iff.2 known, lasting]
  rfl

/-- The stages of creating a state up to its publication, once its table was opened. -/
theorem perform_createState (checked : b.checkNew d = .ok ()) {place : Place} {storage : Storage}
    (opened : (Storage.openTable d.name (d.settle b.execution.format).kind).perform b.storage =
      (.ok place, storage))
    (namespaces : NamespaceType) :
    (createState namespaces).perform (b, d) =
      match (publish (d.settle b.execution.format) b.states.length d.name
          (d.settle b.execution.format).kind).perform
            (registerTracking { b with storage } d.name) with
      | (.error e, b') => (.error e, b', d.settle b.execution.format)
      | (.ok (), b') => (.ok b.states.length, { b'.addState ⟨d.name,
          d.spec.settled b.execution.format, namespaces, none, d.ttl, b.newTracker, place⟩ with
            names := b'.names.insert d.name b.states.length }, d.settle b.execution.format) := by
  have opened' : (((Storage.openTable d.name (d.settle b.execution.format).kind).within
      storagePart).within backendPart).perform (b, d.settle b.execution.format) =
        (.ok place, ({ b with storage }, d.settle b.execution.format)) := by
    rw [Action.perform_within, Action.perform_within]
    simp only [backendPart, storagePart, opened]
  have kind : (d.settle b.execution.format).kind =
      (d.spec.settled b.execution.format).type.kind := by
    show (d.spec.settle b.execution.format).type.kind = _
    cases d.spec <;> rfl
  -- no stage up to the publication is refused
  rw [createState, Action.perform_bind_ok (Action.perform_get (b, d))]
  dsimp only
  rw [checked, Action.perform_bind_ok (Action.perform_lift _ _),
    Action.perform_bind_ok (Action.perform_set _ _)]
  simp only [Descriptor.name_settle, Descriptor.ttl_settle, Descriptor.create_settle]
  rw [Action.perform_bind_ok opened', Action.perform_bind_ok (Action.perform_modify _ _),
    Action.perform_bind_ok (Action.perform_lift _ _), Action.perform_bind, Action.perform_within,
    kind]
  dsimp only [backendPart, NamedState.kind, NamedState.type, Descriptor.name_settle]
  rcases (publish (d.settle b.execution.format) b.states.length d.name
    (d.spec.settled b.execution.format).type.kind).perform
      (registerTracking { b with storage } d.name) with ⟨_ | _, b'⟩ <;> rfl

/-- What is not checked is not created. -/
theorem perform_createState_unchecked {e : StateError} (refused : b.checkNew d = .error e)
    (namespaces : NamespaceType) : (createState namespaces).perform (b, d) = (.error e, b, d) := by
  rw [createState, Action.perform_bind_ok (Action.perform_get (b, d))]
  dsimp only
  rw [refused, Action.perform_bind_error (Action.perform_lift _ _)]

/-- A state whose table is not opened is not created. -/
theorem perform_createState_unopened (checked : b.checkNew d = .ok ()) {e : StateError}
    {storage : Storage}
    (refused : (Storage.openTable d.name (d.settle b.execution.format).kind).perform b.storage =
      (.error e, storage)) (namespaces : NamespaceType) :
    (createState namespaces).perform (b, d) =
      (.error e, { b with storage }, d.settle b.execution.format) := by
  have closed : (((Storage.openTable d.name (d.settle b.execution.format).kind).within
      storagePart).within backendPart).perform (b, d.settle b.execution.format) =
        (.error e, ({ b with storage }, d.settle b.execution.format)) := by
    rw [Action.perform_within, Action.perform_within]
    simp only [backendPart, storagePart, refused]
  rw [createState, Action.perform_bind_ok (Action.perform_get (b, d))]
  dsimp only
  rw [checked, Action.perform_bind_ok (Action.perform_lift _ _),
    Action.perform_bind_ok (Action.perform_set _ _)]
  simp only [Descriptor.name_settle]
  rw [Action.perform_bind_error closed]

/-- The type of a state is compared with the one that is asked for. -/
theorem checkType_eq {id : StateId} {s : NamedState} (found : b.states[id]? = some s)
    (d : Descriptor) (schema : Schema) : b.checkType id d schema =
      if s.isOf d.type schema then .ok () else .error (.typeMismatch s.name) := by
  rw [checkType, state, found]
  rfl

end Backend

/-- What was accessed last under a name is the state that was accessed last. -/
theorem StateNames.accessed_of_recent {n : StateNames} {name : String} {id : StateId}
    (recent : n.recent? name = some id) : n.lastAccessed = some (name, id) := by
  rw [recent?] at recent
  split at recent
  · next last id' accessed =>
      split at recent
      · next same =>
          cases recent
          rw [accessed, same]
      · cases recent
  · cases recent

/-! ## New states -/

/-- The number of a new name is the next one. -/
theorem StateNames.Represents.insert {n : StateNames} {r : Reference keys} {d : Descriptor}
    {namespaces : Schema} (represents : n.Represents r) (fresh : r.ids d.name = none) :
    (n.insert d.name r.states.length).Represents (r.add d namespaces) := by
  constructor
  · intro name
    show (n.states.insert d.name r.states.length)[name]? =
      if name = d.name then some r.states.length else r.ids name
    simp only [ExtTreeMap.getElem?_insert, Std.LawfulEqOrd.compare_eq_iff_eq, eq_comm (a := d.name)]
    exact if_congr Iff.rfl rfl (represents.states name)
  · intro name id accessed
    have numbered : r.ids name = some id := represents.recent name id accessed
    have other : name ≠ d.name := by
      rintro rfl
      cases fresh.symm.trans numbered
    exact (if_neg other).trans numbered

/-- Each number belongs to one name, also after a state of a new name was added. -/
theorem Reference.WellNamed.add {r : Reference keys} {d : Descriptor} {namespaces : Schema}
    (named : r.WellNamed) (fresh : r.ids d.name = none) : (r.add d namespaces).WellNamed := by
  constructor
  · intro name id numbered
    by_cases same : name = d.name
    · cases (if_pos same).symm.trans numbered
      exact ⟨_, List.getElem?_concat_length, same.symm⟩
    · obtain ⟨x, held, named⟩ := named.states name id ((if_neg same).symm.trans numbered)
      exact ⟨x, getElem?_concat_iff.2 (.inl held), named⟩
  · intro id x held
    rcases getElem?_concat_iff.1 held with old | ⟨rfl, rfl⟩
    · have numbered := named.ids id x old
      have other : x.name ≠ d.name := fun same => by
        rw [same] at numbered
        cases fresh.symm.trans numbered
      exact (if_neg other).trans numbered
    · exact if_pos rfl

/-- A new state over a table without contents holds nothing. -/
theorem NamedState.Represents.fresh {used : Selection} {serializer : Serializer keys.Val}
    {name : String} {spec : StateSpec Id} (faithful : spec.Faithful used)
    {namespaces : NamespaceType}
    (faithful' : namespaces.serializer.Faithful (used namespaces.schema)) {ttl : TtlConfig}
    (plain : ttl.isEnabled = false) {tracker : Tracker} {t : Table}
    (emptied : ∀ a, t.slot a = .empty) :
    NamedState.Represents used serializer t ⟨name, spec, namespaces, none, ttl, tracker, .shared⟩
      (.fresh name spec namespaces.schema) := by
  refine ⟨none, fun _ _ _ => spec.type.nothing, rfl, faithful, faithful', .none, plain, rfl, ?_⟩
  intro g key n key' n' _ _
  rw [emptied]
  exact StateSpec.holds_empty used spec

namespace Backend

variable {used : Selection} {serializer : Serializer keys.Val} {b : Backend keys}
  {r : Reference keys} {d : Descriptor}

/-- A backend without tables makes a state that need not be published. -/
theorem perform_createState_first (namespaces : NamespaceType) (checked : b.checkNew d = .ok ())
    (storage : b.storage = .heap .empty) (unpublished : d.queryable = none) :
    ∃ h queries, (createState namespaces).perform (b, d) =
      (.ok b.states.length,
        { addState { registerTracking { b with storage := .heap h } d.name with queries } ⟨d.name,
            d.spec.settled b.execution.format, namespaces, none, d.ttl, b.newTracker, .shared⟩ with
          names := b.names.insert d.name b.states.length },
        d.settle b.execution.format) := by
  have untabled : ∀ t, HeapStorage.empty.tables[d.name]? ≠ some t := by
    intro t opened
    cases (ExtTreeMap.getElem?_empty (a := d.name)).symm.trans opened
  rcases Storage.perform_openTable (d.settle b.execution.format).kind
    (fun t opened => absurd opened (untabled t)) with ⟨h, opened, -⟩ | ⟨e, -, t, there⟩
  · rw [← storage] at opened
    obtain ⟨outcome, queries, published, rfl | ⟨queryable, -⟩⟩ := perform_publish
      (d.settle b.execution.format) b.states.length d.name (d.settle b.execution.format).kind
        (registerTracking { b with storage := .heap h } d.name)
    · refine ⟨h, queries, ?_⟩
      rw [perform_createState checked opened, published]
      rfl
    · cases (congrArg Option.isSome unpublished).symm.trans queryable
  · exact absurd there (untabled t)

/-- A name that is not known is that of a new state. -/
theorem perform_getOrCreate_unknown (namespaces : NamespaceType)
    (unknown : b.names.states[d.name]? = none) :
    (getOrCreate namespaces).perform (b, d) = (createState namespaces).perform (b, d) := by
  rw [getOrCreate, Action.perform_bind_ok (Action.perform_get (b, d))]
  dsimp only
  rw [unknown]

/-- A backend without states makes the state of a descriptor its first one, in a namespace. -/
theorem perform_getPartitioned_first (namespaces : NamespaceType)
    (serializer : b.context.serializer.isSome = true)
    (storage : b.storage = .heap .empty) (states : b.states = []) (names : b.names = .empty)
    (named : d.name ≠ "") (unpublished : d.queryable = none) {ns : namespaces.schema.Val}
    {bytes : Bytes} (writes : namespaces.serializer.serialize ns = .ok bytes) :
    ∃ b', ((getPartitioned namespaces ns).perform (b, d)).2.1 = b' ∧ b'.context = b.context ∧
      b'.metrics = (b.registerTracking d.name).metrics ∧
        b'.states = [⟨d.name, d.spec.settled b.execution.format, namespaces, some bytes, d.ttl,
          b.newTracker, .shared⟩] := by
  have unknown : b.names.states[d.name]? = none := by
    rw [names]
    exact ExtTreeMap.getElem?_empty
  have recent : b.names.recent? d.name = none := by
    rw [names]
    rfl
  have checked : b.checkNew d = .ok () :=
    checkNew_eq_ok named serializer (by rw [unpublished]; rfl)
  obtain ⟨h, queries, created⟩ := perform_createState_first namespaces checked storage unpublished
  have opened := (perform_getOrCreate_unknown namespaces unknown).trans created
  -- the name was never accessed, so its state is made and is the only one
  rw [getPartitioned, Action.perform_bind_ok (Action.perform_get (b, d))]
  dsimp only
  rw [recent]
  dsimp only
  rw [Action.perform_bind_ok opened, Action.perform_bind_ok (Action.perform_modify _ _),
    Action.perform_bind, Action.perform_within]
  dsimp only [backendPart]
  rw [perform_setNamespace List.getElem?_concat_length, NamedState.setNamespace_same writes]
  refine ⟨_, rfl, rfl, rfl, ?_⟩
  show (b.states ++ [_]).set b.states.length _ = _
  rw [states]
  rfl

namespace Represents

/-- Creating a state of a name was refused. -/
theorem refuse (rep : b.Represents used serializer r) (name : String) :
    b.Represents used serializer (r.refuse name) :=
  ⟨rep.context.congr rfl rfl rfl, ⟨rep.names.states, rep.names.recent⟩,
    ⟨rep.wellNamed.states, rep.wellNamed.ids⟩, rep.format, rep.heap, rep.length, rep.states,
    fun name' none t opened => ⟨List.mem_cons_of_mem _ (rep.unnamed name' none t opened).1,
      (rep.unnamed name' none t opened).2⟩, rep.admits, rep.trackable⟩

/-- A table without contents was opened for a name that has no state. -/
theorem openTable (rep : b.Represents used serializer r) {name : String}
    (fresh : r.ids name = none) (storage : Storage) (heap : ∃ h, storage = .heap h)
    (others : ∀ name', name' ≠ name → storage.table? name' = b.storage.table? name')
    (emptied : ∀ t, storage.table? name = some t → ∀ a, t.slot a = .empty) :
    Represents used serializer { b with storage } (r.refuse name) := by
  refine ⟨rep.context.congr rfl rfl rfl, ⟨rep.names.states, rep.names.recent⟩,
    ⟨rep.wellNamed.states, rep.wellNamed.ids⟩, rep.format, heap, rep.length, ?_, ?_, rep.admits,
    rep.trackable⟩
  -- states have other names, and their tables are as they were
  · intro id s x found held
    have old := rep.states id s x found held
    rw [tableOf_shared old.shared] at old ⊢
    rw [others s.name (rep.name_ne fresh found)]
    exact old
  · intro name' none t opened
    by_cases same : name' = name
    · subst same
      exact ⟨List.mem_cons_self, emptied t opened⟩
    · rw [others name' same] at opened
      obtain ⟨member, empty⟩ := rep.unnamed name' none t opened
      exact ⟨List.mem_cons_of_mem _ member, empty⟩

/-- The capacities of a name that has no state were registered; they can be set up. -/
theorem registerTracking (rep : b.Represents used serializer r) {name : String}
    (fresh : r.ids name = none) :
    (b.registerTracking name).Represents used serializer r ∧
      ∀ s : NamedState, s.name = name → s.tracker = b.newTracker →
        (b.registerTracking name).Admits s := by
  refine ⟨⟨rep.context, rep.names, rep.wellNamed, rep.format, rep.heap, rep.length, rep.states,
    rep.unnamed, ?_, ?_⟩, ?_⟩
  · intro s member m metrics family tracked
    obtain ⟨m₀, metrics₀, capacity⟩ := capacity_registerTracking metrics
    -- the capacities of the other names stay as they are
    obtain ⟨id, found⟩ := List.getElem?_of_mem member
    rw [capacity, if_neg fun both => rep.name_ne fresh found both.2.symm]
    exact rep.admits s member m₀ metrics₀ family tracked
  · intro m metrics family enabled
    obtain ⟨m₀, metrics₀, -⟩ := capacity_registerTracking metrics
    exact rep.trackable m₀ metrics₀ family enabled
  · intro s named tracker m metrics family tracked
    obtain ⟨m₀, metrics₀, capacity⟩ := capacity_registerTracking metrics
    rw [tracker] at tracked
    have enabled := enabled_of_newTracker tracked
    rw [capacity, if_pos ⟨enabled, named.symm⟩]
    exact Nat.max_le.2 ⟨rep.trackable m₀ metrics₀ family enabled, by decide⟩

/-- What is published is not represented. -/
theorem publish (rep : b.Represents used serializer r)
    (queries : Option (QueryService StateId)) :
    Represents used serializer { b with queries } r :=
  ⟨rep.context, rep.names, rep.wellNamed, rep.format, rep.heap, rep.length, rep.states, rep.unnamed,
    rep.admits, rep.trackable⟩

/-- A state of a new name was added, over an empty table. -/
theorem add (rep : b.Represents used serializer (r.refuse d.name))
    (fresh : r.ids d.name = none) (plain : d.ttl.isEnabled = false)
    (faithful : (d.spec.settled r.format).Faithful used) {namespaces : NamespaceType}
    (faithful' : namespaces.serializer.Faithful (used namespaces.schema)) {tracker : Tracker}
    (admits : b.Admits ⟨d.name, d.spec.settled r.format, namespaces, none, d.ttl, tracker, .shared⟩)
    (emptied : ∀ t, b.storage.table? d.name = some t → ∀ a, t.slot a = .empty) {id : StateId}
    (next : id = r.states.length) :
    Represents used serializer
      { b.addState ⟨d.name, d.spec.settled r.format, namespaces, none, d.ttl, tracker, .shared⟩ with
        names := b.names.insert d.name id } (r.add d namespaces.schema) := by
  subst next
  have length : b.states.length = r.states.length := rep.length
  have clear : ∀ kind a, ((b.storage.table? d.name).getD (.empty kind)).slot a = .empty := by
    intro kind a
    cases opened : b.storage.table? d.name with
    | none => exact Table.slot_empty kind a
    | some t => exact emptied t opened a
  refine ⟨rep.context.congr rfl rfl rfl, .insert ⟨rep.names.states, rep.names.recent⟩ fresh,
    .add ⟨rep.wellNamed.states, rep.wellNamed.ids⟩ fresh, rep.format, rep.heap, ?_, ?_, ?_, ?_,
    rep.trackable⟩
  · show (b.states ++ [_]).length = (r.states ++ [_]).length
    rw [List.length_append, List.length_append, length]
    rfl
  · intro id s x found held
    -- the new state is the last one on both sides
    rcases getElem?_concat_iff.1 found with old | ⟨last, rfl⟩
    · rcases getElem?_concat_iff.1 held with old' | ⟨last, -⟩
      · exact rep.states id s x old old'
      · have := (List.getElem?_eq_some_iff.1 old).1
        rw [last, length] at this
        exact absurd this (Nat.lt_irrefl _)
    · rcases getElem?_concat_iff.1 held with old' | ⟨-, rfl⟩
      · have := (List.getElem?_eq_some_iff.1 old').1
        rw [last, length] at this
        exact absurd this (Nat.lt_irrefl _)
      · rw [tableOf_shared rfl]
        exact .fresh faithful faithful' plain (clear _)
  · intro name none t opened
    have other : name ≠ d.name := by
      rintro rfl
      cases (if_pos rfl).symm.trans none
    obtain ⟨member, empty⟩ := rep.unnamed name ((if_neg other).symm.trans none) t opened
    exact ⟨List.mem_of_ne_of_mem other member, empty⟩
  · intro s member
    rcases List.mem_append.1 member with old | new
    · exact rep.admits s old
    · exact List.mem_singleton.1 new ▸ admits

/-- Creating the state of a new name goes as in the reference. -/
theorem createState (rep : b.Represents used serializer r) (fresh : r.ids d.name = none)
    (plain : d.ttl.isEnabled = false) (faithful : (d.spec.settled r.format).Faithful used)
    (namespaces : NamespaceType)
    (faithful' : namespaces.serializer.Faithful (used namespaces.schema)) :
    ∃ r', r.Opens d namespaces.schema ((Backend.createState namespaces).perform (b, d)).1 r' ∧
      ((Backend.createState namespaces).perform (b, d)).2.1.Represents used serializer r' := by
  -- without a name nothing is touched
  by_cases unnamed : d.name = ""
  · have checked : b.checkNew d = .error .emptyStateName := by
      rw [checkNew, if_pos (String.isEmpty_iff.2 unnamed)]
    rw [perform_createState_unchecked checked]
    exact ⟨_, .refused fresh (.inl unnamed), rep.refuse d.name⟩
  have checked : b.checkNew d = .ok () :=
    checkNew_eq_ok unnamed (by rw [rep.context.serializer]; rfl) (by rw [plain, Bool.and_false])
  obtain ⟨h, storage⟩ := rep.heap
  have unfilled : ∀ t, h.tables[d.name]? = some t → ∀ a, t.slot a = .empty := fun t opened =>
    (rep.unnamed d.name fresh t (by rw [storage]; exact opened)).2
  -- a table that cannot be opened is one that an earlier attempt has left
  rcases Storage.perform_openTable (d.settle b.execution.format).kind unfilled with
    ⟨h', performed, others, emptied⟩ | ⟨e, performed, t, there⟩
  · have rep₁ := rep.openTable fresh (.heap h') ⟨h', rfl⟩
      (fun name other => by rw [storage]; exact others name other) emptied
    obtain ⟨rep₂, admits⟩ := rep₁.registerTracking fresh
    obtain ⟨outcome, queries, published, succeeds⟩ := perform_publish (d.settle b.execution.format)
      b.states.length d.name (d.settle b.execution.format).kind
      (Backend.registerTracking { b with storage := .heap h' } d.name)
    rw [← storage] at performed
    -- a state that cannot be published is not added; its table stays, empty
    rcases succeeds with rfl | ⟨queryable, e, rfl⟩
    · rw [perform_createState checked performed namespaces, published]
      have numbered : r.Opens d namespaces.schema (.ok b.states.length)
          (r.add d namespaces.schema) := by
        rw [rep.length]
        exact .created fresh
      refine ⟨_, numbered, ?_⟩
      rw [rep.format] at *
      have admitted : (Backend.registerTracking { b with storage := .heap h' } d.name).Admits
          ⟨d.name, d.spec.settled r.format, namespaces, none, d.ttl, b.newTracker, .shared⟩ :=
        admits _ rfl rfl
      exact (rep₂.publish queries).add fresh plain faithful faithful' admitted emptied rep.length
    · rw [perform_createState checked performed namespaces, published]
      exact ⟨_, .refused fresh (.inr (.inl queryable)), rep₂.publish queries⟩
  · rw [← storage] at performed
    rw [perform_createState_unopened checked performed]
    have tried := (rep.unnamed d.name fresh t (by rw [storage]; exact there)).1
    exact ⟨_, .refused fresh (.inr (.inr tried)), rep.refuse d.name⟩

/-- The state of a name has the type that is asked for as the reference says. -/
theorem checkType (rep : b.Represents used serializer r) {id : StateId}
    (numbered : r.ids d.name = some id) (schema : Schema) :
    (b.checkType id d schema = .ok () ∧ r.Opens d schema (.ok id) r) ∨
      ∃ e, b.checkType id d schema = .error e ∧ r.Opens d schema (.error e) r := by
  obtain ⟨x, held, named⟩ := rep.wellNamed.states d.name id numbered
  obtain ⟨s, found⟩ : ∃ s, b.states[id]? = some s :=
    ⟨_, List.getElem?_eq_getElem (rep.length ▸ (List.getElem?_eq_some_iff.1 held).1)⟩
  obtain ⟨ns, cells, rfl, -⟩ := rep.states id s x found held
  -- a number stands for the same type and the same namespaces on both sides
  rw [checkType_eq found]
  by_cases same : s.spec.type = d.type ∧ s.namespaces.schema = schema
  · refine .inl ⟨if_pos ?_, .found numbered held same.1 same.2⟩
    exact (s.isOf_iff d.type schema).2 same
  · refine .inr ⟨.typeMismatch s.name, if_neg ?_, ?_⟩
    · exact mt (s.isOf_iff d.type schema).1 same
    · rw [show s.name = d.name from named]
      exact .mismatched numbered held same

/-- Asking for the state of a descriptor goes as in the reference. -/
theorem getOrCreate (rep : b.Represents used serializer r) (plain : d.ttl.isEnabled = false)
    (faithful : (d.spec.settled r.format).Faithful used) (namespaces : NamespaceType)
    (faithful' : namespaces.serializer.Faithful (used namespaces.schema)) :
    ∃ outcome b' d' r', (Backend.getOrCreate namespaces).perform (b, d) = (outcome, b', d') ∧
      r.Opens d namespaces.schema outcome r' ∧ b'.Represents used serializer r' := by
  rw [Backend.getOrCreate, Action.perform_bind_ok (Action.perform_get (b, d))]
  dsimp only
  -- both sides number the same names
  rw [rep.names.states d.name]
  cases numbered : r.ids d.name with
  | none =>
      obtain ⟨r', opens, rep'⟩ := rep.createState numbered plain faithful namespaces faithful'
      exact ⟨_, _, _, r', rfl, opens, rep'⟩
  | some id =>
      rcases rep.checkType numbered namespaces.schema with ⟨checked, opens⟩ | ⟨e, checked, opens⟩
      · refine ⟨.ok id, b, d, r, ?_, opens, rep⟩
        dsimp only
        rw [checked, Action.perform_bind_ok (Action.perform_lift _ _)]
        rfl
      · refine ⟨.error e, b, d, r, ?_, opens, rep⟩
        dsimp only
        rw [checked, Action.perform_bind_error (Action.perform_lift _ _)]

/-- The state of a name was accessed. -/
theorem promote (rep : b.Represents used serializer r) (name : String) :
    Represents used serializer { b with names := b.names.promote name } r := by
  refine ⟨rep.context, ⟨rep.names.states, fun name' id accessed => ?_⟩, rep.wellNamed, rep.format,
    rep.heap, rep.length, rep.states, rep.unnamed, rep.admits, rep.trackable⟩
  obtain ⟨id', held, same⟩ := Option.map_eq_some_iff.1 accessed
  cases same
  exact (rep.names.states name).symm.trans held

end Represents

end Backend

/-- The namespace of a state that was found or created for it can be set. -/
theorem Reference.Opens.setNamespace {r r' : Reference keys} {d : Descriptor} {schema : Schema}
    {id : StateId} (opens : r.Opens d schema (.ok id) r') (ns : schema.Val) :
    ∃ r'', r'.setNamespace id schema ns = .ok r'' := by
  cases opens with
  | found numbered held type same =>
      rw [Reference.setNamespace_eq held, ReferenceState.setNamespace_same same.symm]
      exact ⟨_, rfl⟩
  | created fresh =>
      have held : (r.add d schema).states[r.states.length]? =
          some (.fresh d.name (d.spec.settled r.format) schema) := List.getElem?_concat_length
      have same : schema = (.fresh d.name (d.spec.settled r.format) schema :
          ReferenceState keys).namespaces := rfl
      rw [Reference.setNamespace_eq held, ReferenceState.setNamespace_same same]
      exact ⟨_, rfl⟩

namespace Backend.Represents

variable {used : Selection} {serializer : Serializer keys.Val} {b : Backend keys}
  {r : Reference keys} {d : Descriptor}

/-- Setting the namespace of the state that was found or created, beside its descriptor. -/
theorem partition {b' : Backend keys} {r' : Reference keys}
    (rep : b'.Represents used serializer r') {namespaces : NamespaceType} {id : StateId}
    (opens : r.Opens d namespaces.schema (.ok id) r') {ns : namespaces.schema.Val}
    (selected : used namespaces.schema ns) (d' : Descriptor) :
    ∃ r'' b'', r.Takes (.getPartitioned d namespaces ns) (.ok id) r'' ∧
      (((Backend.setNamespace id namespaces.schema ns).within backendPart >>= fun _ =>
        pure id : Action (Backend keys × Descriptor) StateId).perform (b', d')) =
          (.ok id, b'', d') ∧ b''.Represents used serializer r'' := by
  obtain ⟨r₁, named⟩ := opens.setNamespace ns
  rcases rep.setNamespace id selected with ⟨r'', b'', named', performed, rep'⟩ | ⟨e, refused, -⟩
  · refine ⟨r'', b'', .getPartitioned opens named', ?_, rep'⟩
    have done : ((Backend.setNamespace id namespaces.schema ns).within backendPart).perform
        (b', d') = (.ok (), (b'', d')) := by
      rw [Action.perform_within]
      simp only [backendPart, performed]
    rw [Action.perform_bind_ok done]
    rfl
  · cases named.symm.trans refused

/-- Asking for the state of a descriptor in a namespace goes as in the reference. -/
theorem getPartitioned (rep : b.Represents used serializer r)
    (plain : d.ttl.isEnabled = false) (faithful : (d.spec.settled r.format).Faithful used)
    (namespaces : NamespaceType)
    (faithful' : namespaces.serializer.Faithful (used namespaces.schema))
    {ns : namespaces.schema.Val} (selected : used namespaces.schema ns) :
    ∃ r', r.Takes (.getPartitioned d namespaces ns)
        ((Backend.getPartitioned namespaces ns).perform (b, d)).1 r' ∧
      ((Backend.getPartitioned namespaces ns).perform (b, d)).2.1.Represents used serializer
        r' := by
  rw [Backend.getPartitioned, Action.perform_bind_ok (Action.perform_get (b, d))]
  dsimp only
  -- the state that was accessed last has the number that its name has
  cases recent : b.names.recent? d.name with
  | some id =>
      have numbered : r.ids d.name = some id :=
        rep.names.recent d.name id (StateNames.accessed_of_recent recent)
      dsimp only
      rcases rep.checkType numbered namespaces.schema with ⟨checked, opens⟩ | ⟨e, checked, opens⟩
      · rw [checked, Action.perform_bind_ok (Action.perform_lift _ _)]
        obtain ⟨r', b', takes, performed, rep'⟩ := rep.partition opens selected d
        rw [performed]
        exact ⟨r', takes, rep'⟩
      · rw [checked, Action.perform_bind_error (Action.perform_lift _ _)]
        exact ⟨r, .notPartitioned opens, rep⟩
  | none =>
      dsimp only
      obtain ⟨outcome, b', d', r', performed, opens, rep'⟩ :=
        rep.getOrCreate plain faithful namespaces faithful'
      cases outcome with
      | error e =>
          rw [Action.perform_bind_error performed]
          exact ⟨r', .notPartitioned opens, rep'⟩
      | ok id =>
          rw [Action.perform_bind_ok performed, Action.perform_bind_ok (Action.perform_modify _ _)]
          obtain ⟨r'', b'', takes, performed', rep''⟩ :=
            (rep'.promote d'.name).partition opens selected d'
          rw [performed']
          exact ⟨r'', takes, rep''⟩

end Backend.Represents

end KeyedState
