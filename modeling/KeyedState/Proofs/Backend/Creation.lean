import KeyedState.Proofs.Backend.Work

/-!
# Creations that are refused

The state of a new name is created in stages: the descriptor is checked, a table is opened, the
histories of samples are registered, and the state is published, named and remembered. What is
refused before the table was opened has changed nothing. Publishing is the one stage behind it that
may be refused, and then the table stays: an empty one of the kind that was asked for, where there
was none (`Backend.LeavesTable`). Names, states, the cache and what is published are as before, but
the name can not be asked for at another kind any more.

Main statement: `refused_creations_leave_a_table_iff`.
-/

namespace KeyedState

open Std (ExtTreeMap)

variable {keys : Schema}

/-- The error for a table of another kind comes from opening tables alone. -/
theorem QueryService.register_ne_reopenedAs {ρ : Type} {service : QueryService ρ}
    {queryName stateName : String} {kind : StateKind} {range : KeyGroupRange} {state : ρ}
    {e : StateError} (refused : service.register queryName stateName kind range state = .error e)
    (name : String) (found asked : StateKind) : e ≠ .reopenedAs name found asked := by
  rintro rfl
  cases service with
  | down => cases refused
  | serving r =>
      rw [register, QueryRegistry.register] at refused
      split at refused <;> cases refused

namespace HeapStorage

variable {h : HeapStorage} {name : String} {kind : StateKind}

/-- A table that is not there is opened as an empty one. -/
theorem openTable_of_none (absent : h.tables[name]? = none) (kind : StateKind) :
    h.openTable name kind = .ok ⟨h.tables.insert name (.empty kind)⟩ := by
  rw [openTable, absent]

/-- A table that is there is opened at its own kind. -/
theorem openTable_of_some {t : Table} (there : h.tables[name]? = some t) (kind : StateKind) :
    h.openTable name kind =
      if t.kind = kind then .ok h else .error (.reopenedAs name t.kind kind) := by
  rw [openTable, there]

/-- An empty table that was just added is opened again at its own kind alone. -/
theorem openTable_insert_empty (h : HeapStorage) (name : String) (kind kind' : StateKind) :
    openTable ⟨h.tables.insert name (.empty kind)⟩ name kind' =
      if kind = kind' then .ok ⟨h.tables.insert name (.empty kind)⟩
      else .error (.reopenedAs name kind kind') :=
  openTable_of_some ExtTreeMap.getElem?_insert_self kind'

end HeapStorage

namespace Storage

variable {h h' : HeapStorage} {name : String} {kind : StateKind} {e : StateError}

theorem perform_openTable_ok (opened : h.openTable name kind = .ok h') :
    (openTable name kind).perform (.heap h) = (.ok .shared, .heap h') := by
  rw [openTable, Action.perform_of]
  dsimp only
  rw [opened]

theorem perform_openTable_error (refused : h.openTable name kind = .error e) :
    (openTable name kind).perform (.heap h) = (.error e, .heap h) := by
  rw [openTable, Action.perform_of]
  dsimp only
  rw [refused]

end Storage

namespace Backend

variable {b b' : Backend keys} {d d' : Descriptor} {namespaces : NamespaceType} {e : StateError}
  {h : HeapStorage}

/-! ## The stages in one equation -/

/-- What is published after the next state of a descriptor was. -/
def publishing (b : Backend keys) (d : Descriptor) :
    Except StateError (Option (QueryService StateId)) :=
  match d.queryable with
  | none => .ok b.queries
  | some queryName =>
    match b.queries with
    | none => .error (.queryRegistryMissing d.name)
    | some service =>
      (service.register queryName d.name d.kind b.range b.states.length).map some

/-- Publishing changes what is published, and nothing if it is refused. -/
theorem perform_publish_eq (d : Descriptor) (b : Backend keys) :
    (publish d b.states.length d.name d.kind).perform b =
      match b.publishing d with
      | .ok queries => (.ok (), { b with queries })
      | .error e => (.error e, b) := by
  obtain ⟨core, storage, queries, closeables, metrics, states, now, events⟩ := b
  rw [publish, publishing]
  cases d.queryable with
  | none => rfl
  | some queryName =>
      dsimp only
      rw [Action.perform_bind_ok (Action.perform_get _)]
      cases queries with
      | none => rfl
      | some service =>
          dsimp only [range]
          cases service.register queryName d.name d.kind core.context.range states.length <;> rfl

/-- Setting the open serializers changes nothing about what is published. -/
theorem publishing_settle (b : Backend keys) (d : Descriptor) (format : SerializerFormat) :
    b.publishing (d.settle format) = b.publishing d := by
  rw [publishing, publishing, kind_settle]
  rfl

/-- What is published depends neither on the storage nor on the histories. -/
theorem perform_publish_ok {queries : Option (QueryService StateId)}
    (published : b.publishing d = .ok queries) (format : SerializerFormat) (storage : Storage)
    (metrics : Option Metrics) :
    (publish (d.settle format) b.states.length d.name (d.settle format).kind).perform
        { b with storage, metrics } = (.ok (), { b with storage, queries, metrics }) := by
  have performed := perform_publish_eq (d.settle format) { b with storage, metrics }
  rw [publishing_settle, show publishing { b with storage, metrics } d = _ from published]
    at performed
  exact performed

theorem perform_publish_error (refused : b.publishing d = .error e) (format : SerializerFormat)
    (storage : Storage) (metrics : Option Metrics) :
    (publish (d.settle format) b.states.length d.name (d.settle format).kind).perform
        { b with storage, metrics } = (.error e, { b with storage, metrics }) := by
  have performed := perform_publish_eq (d.settle format) { b with storage, metrics }
  rw [publishing_settle, show publishing { b with storage, metrics } d = _ from refused]
    at performed
  exact performed

/-- Publishing is not refused for the kind of a table. -/
theorem publishing_ne_reopenedAs (b : Backend keys) (d : Descriptor) (name : String)
    (found asked : StateKind) : b.publishing d ≠ .error (.reopenedAs name found asked) := by
  intro refused
  rw [publishing] at refused
  split at refused
  · cases refused
  · split at refused
    · cases refused
    · next service _ =>
        cases registered : service.register _ d.name d.kind b.range b.states.length with
        | ok service' =>
            rw [registered] at refused
            cases refused
        | error e =>
            rw [registered] at refused
            cases refused
            exact QueryService.register_ne_reopenedAs registered _ _ _ rfl

/-- A backend with the next state of a descriptor, once its table was opened and it is published. -/
def withState (b : Backend keys) (d : Descriptor) (namespaces : NamespaceType) (h : HeapStorage)
    (queries : Option (QueryService StateId)) : Backend keys :=
  let s : NamedState := ⟨d.name, d.spec.settled b.execution.format, namespaces, none, d.ttl,
    b.newTracker, .shared⟩
  { registerTracking b d.name with
    storage := .heap h
    queries
    states := b.states ++ [s]
    names := b.names.insert d.name b.states.length }

/-- Creating a state over a heap, stage after stage. -/
theorem perform_createState_heap (held : b.storage = .heap h) (namespaces : NamespaceType)
    (d : Descriptor) :
    (createState namespaces).perform (b, d) =
      match b.checkNew d with
      | .error e => (.error e, b, d)
      | .ok () =>
        match h.openTable d.name d.kind with
        | .error e => (.error e, b, d.settle b.execution.format)
        | .ok h' =>
          match b.publishing d with
          | .error e =>
            (.error e, { registerTracking b d.name with storage := .heap h' },
              d.settle b.execution.format)
          | .ok queries =>
            (.ok b.states.length, b.withState d namespaces h' queries,
              d.settle b.execution.format) := by
  cases checked : b.checkNew d with
  | error e => exact perform_createState_unchecked checked namespaces
  | ok _ =>
      dsimp only
      cases opened : h.openTable d.name d.kind with
      | error e =>
          rw [← kind_settle d b.execution.format] at opened
          have closed := Storage.perform_openTable_error opened
          rw [← held] at closed
          exact perform_createState_unopened checked closed namespaces
      | ok h' =>
          rw [← kind_settle d b.execution.format] at opened
          have opening := Storage.perform_openTable_ok opened
          rw [← held] at opening
          have stage : registerTracking { b with storage := .heap h' } d.name =
            { b with storage := .heap h', metrics := (registerTracking b d.name).metrics } := rfl
          rw [perform_createState checked opening namespaces, stage]
          cases published : b.publishing d with
          | error e =>
              rw [perform_publish_error published]
              rfl
          | ok queries =>
              rw [perform_publish_ok published]
              rfl

/-! ## What is left -/

/-- The creation of a state is refused when its table was opened already: the name is unknown, the
descriptor is in order, there was no table, and the state cannot be published. -/
structure LeavesTable (b : Backend keys) (h : HeapStorage) (d : Descriptor) : Prop where
  unknown : b.names.states[d.name]? = none
  checked : b.checkNew d = .ok ()
  tableless : h.tables[d.name]? = none
  unpublished : ∃ e, ((publish d b.states.length d.name d.kind).perform b).1 = .error e

/-- What asking for the state of a descriptor gives: the error that it is refused with, or the state
and the backend with it, apart from the histories of samples. -/
def creation (b : Backend keys) (d : Descriptor) (namespaces : NamespaceType) :
    Except StateError (StateId × Backend keys) :=
  match (getOrCreate namespaces).perform (b, d) with
  | (.error e, _) => .error e
  | (.ok id, b', _) => .ok (id, { b' with metrics := none })

/-- A state is not published if and only if publishing it is refused. -/
theorem unpublished_iff (b : Backend keys) (d : Descriptor) :
    (∃ e, ((publish d b.states.length d.name d.kind).perform b).1 = .error e) ↔
      ∃ e, b.publishing d = .error e := by
  rw [perform_publish_eq]
  cases b.publishing d with
  | error e => exact iff_of_true ⟨e, rfl⟩ ⟨e, rfl⟩
  | ok queries => exact iff_of_false nofun nofun

/-- Where the creation of a state may be refused: before a table was opened, and at its
publication. -/
theorem perform_createState_refused (held : b.storage = .heap h)
    (refused : (createState namespaces).perform (b, d) = (.error e, b', d')) :
    (b' = b ∧ ∀ h', b.checkNew d = .ok () → h.openTable d.name d.kind ≠ .ok h') ∨
      ∃ h', b.checkNew d = .ok () ∧ h.openTable d.name d.kind = .ok h' ∧
        b.publishing d = .error e ∧
          b' = { registerTracking b d.name with storage := .heap h' } := by
  rw [perform_createState_heap held] at refused
  cases checked : b.checkNew d with
  | error e' =>
      rw [checked] at refused
      exact .inl ⟨(congrArg (·.2.1) refused).symm, nofun⟩
  | ok _ =>
      rw [checked] at refused
      cases opened : h.openTable d.name d.kind with
      | error e' =>
          rw [opened] at refused
          exact .inl ⟨(congrArg (·.2.1) refused).symm, nofun⟩
      | ok h' =>
          rw [opened] at refused
          cases published : b.publishing d with
          | ok queries =>
              rw [published] at refused
              cases congrArg Prod.fst refused
          | error e' =>
              rw [published] at refused
              obtain rfl : e' = e := Except.error.inj (congrArg Prod.fst refused)
              exact .inr ⟨h', rfl, rfl, rfl, (congrArg (·.2.1) refused).symm⟩

/-- A refused request leaves an empty table if it opened one, and nothing else but capacities of
histories. -/
theorem perform_getOrCreate_refused (held : b.storage = .heap h)
    (refused : (getOrCreate namespaces).perform (b, d) = (.error e, b', d')) :
    (b.LeavesTable h d ∧ b' =
      { b with
        storage := .heap ⟨h.tables.insert d.name (.empty d.kind)⟩
        metrics := (b.registerTracking d.name).metrics }) ∨
      ¬ b.LeavesTable h d ∧
        (b' = b ∨ b' = { b with metrics := (b.registerTracking d.name).metrics }) := by
  cases known : b.names.states[d.name]? with
  | some id =>
      rw [perform_getOrCreate_known namespaces known] at refused
      refine .inr ⟨fun leaves => ?_, .inl (congrArg (·.2.1) refused).symm⟩
      cases known.symm.trans leaves.unknown
  | none =>
      rw [perform_getOrCreate_unknown namespaces known] at refused
      obtain ⟨same, closed⟩ | ⟨h', checked, opened, published, rfl⟩ :=
        perform_createState_refused held refused
      · refine .inr ⟨fun leaves => ?_, .inl same⟩
        exact closed _ leaves.checked (HeapStorage.openTable_of_none leaves.tableless d.kind)
      · cases there : h.tables[d.name]? with
        | none =>
            obtain rfl := Except.ok.inj
              ((HeapStorage.openTable_of_none there d.kind).symm.trans opened)
            exact .inl ⟨⟨known, checked, there, (b.unpublished_iff d).2 ⟨e, published⟩⟩, rfl⟩
        | some t =>
            -- the table that was opened is one that was there
            rw [HeapStorage.openTable_of_some there] at opened
            split at opened
            · obtain rfl := Except.ok.inj opened
              refine .inr ⟨fun leaves => ?_, .inr ?_⟩
              · cases there.symm.trans leaves.tableless
              · rw [← held]
                rfl
            · cases opened

/-- What asking for a state gives over a heap, in one equation. -/
theorem creation_eq (held : b.storage = .heap h) (d : Descriptor) (namespaces : NamespaceType) :
    b.creation d namespaces =
      match b.names.states[d.name]? with
      | some id =>
        (b.checkType id d namespaces.schema).map fun _ => (id, { b with metrics := none })
      | none => do
        b.checkNew d
        let h' ← h.openTable d.name d.kind
        let queries ← b.publishing d
        return (b.states.length, { b.withState d namespaces h' queries with metrics := none }) := by
  rw [creation]
  cases known : b.names.states[d.name]? with
  | some id =>
      rw [perform_getOrCreate_known namespaces known]
      dsimp only
      cases b.checkType id d namespaces.schema <;> rfl
  | none =>
      rw [perform_getOrCreate_unknown namespaces known, perform_createState_heap held]
      dsimp only
      cases b.checkNew d with
      | error e => rfl
      | ok _ =>
          cases h.openTable d.name d.kind with
          | error e => rfl
          | ok h' => cases b.publishing d <;> rfl

theorem creation_unknown (held : b.storage = .heap h) (unknown : b.names.states[d.name]? = none)
    (namespaces : NamespaceType) :
    b.creation d namespaces = do
      b.checkNew d
      let h' ← h.openTable d.name d.kind
      let queries ← b.publishing d
      return (b.states.length, { b.withState d namespaces h' queries with metrics := none }) := by
  rw [creation_eq held, unknown]

/-- Histories of samples play no role in what asking for a state gives. -/
theorem creation_metrics (held : b.storage = .heap h) (metrics : Option Metrics) (d : Descriptor)
    (namespaces : NamespaceType) :
    creation { b with metrics } d namespaces = b.creation d namespaces := by
  rw [creation_eq held, creation_eq (b := { b with metrics }) held]
  rfl

/-- An empty table under an unknown name is noticed by requests for its name that get as far as
opening a table, at another kind. -/
theorem creation_insert_empty_iff (held : b.storage = .heap h) {name : String} {kind : StateKind}
    (unknown : b.names.states[name]? = none) (tableless : h.tables[name]? = none)
    (metrics : Option Metrics) {d : Descriptor} (named : d.name = name)
    (namespaces : NamespaceType) :
    creation { b with storage := .heap ⟨h.tables.insert name (.empty kind)⟩, metrics } d
        namespaces = b.creation d namespaces ↔
      ¬ (b.checkNew d = .ok () ∧ d.kind ≠ kind) := by
  subst named
  have later : creation { b with storage := .heap ⟨h.tables.insert d.name (.empty kind)⟩, metrics }
      d namespaces = do
        b.checkNew d
        let h' ← HeapStorage.openTable ⟨h.tables.insert d.name (.empty kind)⟩ d.name d.kind
        let queries ← b.publishing d
        return (b.states.length, { b.withState d namespaces h' queries with metrics := none }) :=
    creation_unknown (b := { b with storage := _, metrics }) rfl unknown namespaces
  rw [later, creation_unknown held unknown, HeapStorage.openTable_insert_empty,
    HeapStorage.openTable_of_none tableless]
  cases checked : b.checkNew d with
  | error e => exact iff_of_true rfl fun both => nomatch both.1
  | ok _ =>
      by_cases same : kind = d.kind
      · rw [if_pos same, same]
        exact iff_of_true rfl fun both => both.2 rfl
      · rw [if_neg same]
        refine iff_of_false (fun equal => ?_) fun safe => safe ⟨rfl, Ne.symm same⟩
        -- one request is refused for the kind of the table, the other one is not
        cases published : b.publishing d with
        | ok queries =>
            rw [published] at equal
            cases equal
        | error e =>
            rw [published] at equal
            cases equal
            exact b.publishing_ne_reopenedAs d _ _ _ published

end Backend

variable {b b' : Backend keys} {d d' : Descriptor} {namespaces : NamespaceType} {e : StateError}
  {h : HeapStorage}

/-- **A refused creation leaves a table exactly if it could not publish the state after it opened
one**, and nothing else but capacities of histories. The table is empty and of the kind that was
asked for. A later request for the name is answered as if the refused one had not been made, unless
there is such a table and the request is in order and asks for another kind. -/
theorem refused_creations_leave_a_table_iff (held : b.storage = .heap h)
    (refused : (Backend.getOrCreate namespaces).perform (b, d) = (.error e, b', d')) :
    (b.LeavesTable h d → b' =
      { b with
        storage := .heap ⟨h.tables.insert d.name (.empty d.kind)⟩
        metrics := (b.registerTracking d.name).metrics }) ∧
    (¬ b.LeavesTable h d →
      b' = b ∨ b' = { b with metrics := (b.registerTracking d.name).metrics }) ∧
    ∀ (later : Descriptor) (namespaces' : NamespaceType), later.name = d.name →
      (b'.creation later namespaces' = b.creation later namespaces' ↔
        ¬ (b.LeavesTable h d ∧ b.checkNew later = .ok () ∧ later.kind ≠ d.kind)) := by
  obtain ⟨leaves, rfl⟩ | ⟨clean, left⟩ := Backend.perform_getOrCreate_refused held refused
  · refine ⟨fun _ => rfl, fun clean => absurd leaves clean, ?_⟩
    intro later namespaces' named
    rw [Backend.creation_insert_empty_iff held leaves.unknown leaves.tableless _ named]
    exact not_congr (and_iff_right leaves).symm
  · refine ⟨fun leaves => absurd leaves clean, fun _ => left, ?_⟩
    intro later namespaces' _
    refine iff_of_true ?_ fun both => clean both.1
    obtain rfl | rfl := left
    · rfl
    · exact Backend.creation_metrics held _ later namespaces'

/-- A state that is to be published where nobody registers states. -/
def Descriptor.countForQueries : Descriptor := ⟨"count", .initial, some "counts", .value .i64 none⟩

/-- The state is refused, and a list of its name is refused after it, which would have been created
before. -/
theorem refused_creations_leave_a_table_iff_count :
    let b : Backend .string := .plain 4 ⟨0, 3⟩
    let namespaces : NamespaceType := ⟨.unit, .binary .unit⟩
    let later : Descriptor := ⟨"count", .initial, none, .list .i64 none⟩
    ∃ b' d', (Backend.getOrCreate namespaces).perform (b, .countForQueries) =
        (.error (.queryRegistryMissing "count"), b', d') ∧
      b.LeavesTable .empty .countForQueries ∧
      b'.creation later namespaces ≠ b.creation later namespaces := by
  intro b namespaces later
  have answer : ((Backend.getOrCreate namespaces).perform (b, .countForQueries)).1 =
      .error (.queryRegistryMissing "count") := by
    decide +kernel
  rcases refused : (Backend.getOrCreate namespaces).perform (b, .countForQueries) with
    ⟨outcome, b', d'⟩
  rw [refused] at answer
  obtain rfl : outcome = .error (.queryRegistryMissing "count") := answer
  have leaves : b.LeavesTable .empty .countForQueries :=
    ⟨ExtTreeMap.getElem?_empty, rfl, ExtTreeMap.getElem?_empty, .queryRegistryMissing "count", rfl⟩
  obtain ⟨-, -, noticed⟩ := refused_creations_leave_a_table_iff (h := .empty) rfl refused
  refine ⟨b', d', rfl, leaves, fun same => ?_⟩
  exact (noticed later namespaces rfl).1 same ⟨leaves, rfl, by decide⟩

end KeyedState
