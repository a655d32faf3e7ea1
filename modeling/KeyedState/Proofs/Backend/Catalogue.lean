import KeyedState.Proofs.Backend.Work
import KeyedState.Proofs.State.Readings

/-!
# Backends with a catalogue of names

Every name is opened with one and the same descriptor (`Catalogue`), and a backend is the only user
of its query registry. Then its storage holds under the name of a state that can be queried what
calls on that state leave there (`HeapStorage.Matches`), and a query name is registered exactly for
the named state whose descriptor carries it (`Backend.Matches`). Named are the states that were made
since the last time that the backend was disposed of: those from a certain number on. Every
operation of the backend keeps it so.
-/

namespace KeyedState

open Std (ExtTreeMap)
open KeyedState.Action (Keeps)

variable {keys : Schema}

/-- What each name is opened with: how its state is written, and under which name it can be queried.
States that can be queried are given selected values. -/
structure Catalogue where
  spec : String → StateSpec Id
  queryable : String → Option String
  used : Selection

namespace Catalogue

variable (c : Catalogue)

/-- A descriptor is the one of its name. How long entries live may be different. -/
structure Describes (format : SerializerFormat) (d : Descriptor) : Prop where
  spec : d.spec.settled format = c.spec d.name
  queryable : d.queryable = c.queryable d.name

/-- What states that can be queried are given is read back as it was written. -/
def ReadsBack : Prop :=
  ∀ name, (c.queryable name).isSome = true → (c.spec name).ReadsBack c.used

/-- What may be stored under a name. A state that cannot be queried may store anything. -/
def Stores (name : String) (userKey : Option Bytes) (bytes : Bytes) : Prop :=
  (c.queryable name).isSome = true → (c.spec name).Retains c.used userKey bytes

/-- A table may be kept under a name. -/
def Permits (name : String) (t : Table) : Prop :=
  t.Guarded (c.spec name).type.kind (c.Stores name) fun _ => True

/-- What may be stored in a state that can be queried is what its calls leave. -/
theorem stores_eq {name : String} (queryable : (c.queryable name).isSome = true) :
    c.Stores name = (c.spec name).Retains c.used := by
  funext userKey bytes
  exact propext ⟨fun stores => stores queryable, fun retains _ => retains⟩

/-- Every request to a table is legal under a name that cannot be queried. -/
theorem store_keeps {name : String} (unqueryable : ¬ (c.queryable name).isSome = true) :
    Table.store.Keeps (c.Permits name) fun _ => True := by
  intro r _
  refine (Table.store_guards (c.spec name).type.kind r ?_).weaken fun _ _ => trivial
  cases r with
  | put a value => exact ⟨trivial, fun queryable => absurd queryable unqueryable⟩
  | get | remove | entries | clear => trivial

end Catalogue

/-! ## Storages -/

/-- Every table is of the kind of its name, and holds what may be stored under it. -/
structure HeapStorage.Matches (c : Catalogue) (h : HeapStorage) : Prop where
  pruned : h.Pruned
  kind : ∀ name kind, h.kind? name = some kind → kind = (c.spec name).type.kind
  stored : ∀ name g key ns userKey value,
    ((h.contents name g).slot key ns).get userKey = some value → c.Stores name userKey value

namespace HeapStorage

variable {c : Catalogue} {h : HeapStorage}

/-- Every table of such a storage may be kept under its name. -/
theorem matches_iff : h.Matches c ↔
    ∀ (name : String) (t : Table), h.tables[name]? = some t → c.Permits name t := by
  constructor
  · intro fits name t found
    refine ⟨fits.kind name _ (by rw [kind?, found]; rfl), fits.pruned name t found,
      fun _ _ => trivial, fun a value there => ?_⟩
    rw [Table.get, Table.slot_eq, ← contents_of_getElem? found] at there
    exact fits.stored name a.slot.group a.slot.key a.slot.ns a.userKey value there
  · intro permits
    refine ⟨fun name t found => (permits name t found).pruned, fun name kind same => ?_,
      fun name g key ns userKey value there => ?_⟩
    · obtain ⟨t, found, rfl⟩ := Option.map_eq_some_iff.1 same
      exact (permits name t found).kind
    · cases found : h.tables[name]? with
      | none =>
          rw [contents_of_none found, GroupContents.slot_empty, Slot.get_empty] at there
          cases there
      | some t =>
          rw [contents_of_getElem? found] at there
          exact (permits name t found).legal ⟨⟨g, key, ns⟩, userKey⟩ value there

theorem matches_empty (c : Catalogue) : Matches c .empty :=
  matches_iff.2 fun name t found => by simp [empty] at found

namespace Matches

theorem insert (fits : h.Matches c) {name : String} {t : Table} (permits : c.Permits name t) :
    Matches c ⟨h.tables.insert name t⟩ := by
  refine matches_iff.2 fun name' t' found => ?_
  rw [getElem?_insert] at found
  split at found
  · next same =>
      cases found
      exact same ▸ permits
  · exact matches_iff.1 fits name' t' found

/-- The table of a name is opened at the kind of the name, which nothing is in the way of. -/
theorem openTable (fits : h.Matches c) (name : String) :
    ∃ h', h.openTable name (c.spec name).type.kind = .ok h' ∧ h'.Matches c := by
  rw [HeapStorage.openTable]
  cases found : h.tables[name]? with
  | none => exact ⟨_, rfl, fits.insert (Table.guarded_empty _)⟩
  | some t =>
      have kind : t.kind = (c.spec name).type.kind := fits.kind name _ (by rw [kind?, found]; rfl)
      exact ⟨h, if_pos kind, fits⟩

/-- A key group that was written elsewhere, in any order, takes the place of what is held in it. -/
theorem restore {source : HeapStorage} (fits : h.Matches c) (source_fits : source.Matches c)
    {g : KeyGroup} {s : KeyGroupSnapshot} (order : (source.snapshot g).Reorders s) :
    (h.restore s).Matches c := by
  have carried : source.Carried h [g] (h.restore s) := carried_restore source_fits.pruned order
  refine ⟨fits.pruned.restore _, fun name kind found => ?_,
    fun name g' key ns userKey value there => ?_⟩
  · cases old : h.kind? name with
    | some kind' =>
        rw [carried.known name kind' old] at found
        exact Option.some.inj found ▸ fits.kind name kind' old
    | none =>
        by_cases moved : ∃ g' ∈ [g], source.contents name g' ≠ ∅
        · rw [carried.opened name old moved] at found
          exact source_fits.kind name kind found
        · push Not at moved
          rw [carried.unopened name old moved] at found
          cases found
  · by_cases here : g' ∈ [g]
    · rw [carried.listed name g' here] at there
      exact source_fits.stored name g' key ns userKey value there
    · rw [carried.others name g' here] at there
      exact fits.stored name g' key ns userKey value there

end Matches

end HeapStorage

/-! ## Backends -/

/-- A state finds its table in the storage and is written as its name is. If it can be queried, its
entries do not expire. -/
structure NamedState.Matches (c : Catalogue) (s : NamedState) : Prop where
  shared : s.place = .shared
  spec : s.spec = c.spec s.name
  plain : (c.queryable s.name).isSome = true → s.ttl.isEnabled = false

/-- A backend over tables that opens names by the catalogue and has a query registry to itself. Its
named states are those from the number `since` on, and registered are those of them that can be
queried, for the key groups of the backend. -/
structure Backend.Matches (c : Catalogue) (since : Nat) (b : Backend keys) : Prop where
  within : since ≤ b.states.length
  storage : ∃ h, b.storage = .heap h ∧ h.Matches c
  states : ∀ s ∈ b.states, s.Matches c
  named : ∀ name id, b.names.states[name]? = some id ↔
    since ≤ id ∧ ∃ s, b.states[id]? = some s ∧ s.name = name
  published : ∃ r, b.queries = some (.serving r) ∧ ∀ query registration,
    r.registrations[query]? = some registration ↔ registration.range = b.range ∧
      ∃ name, b.names.states[name]? = some registration.state ∧ c.queryable name = some query
  room : b.RoomForSamples

/-- A state that can be queried is not made with expiry. -/
theorem Backend.plain_of_checkNew {b : Backend keys} {d : Descriptor}
    (checked : b.checkNew d = .ok ()) (queryable : d.queryable.isSome = true) :
    d.ttl.isEnabled = false := by
  rw [checkNew, queryable, Bool.true_and] at checked
  split at checked
  · cases checked
  · split at checked
    · cases checked
    · split at checked
      · cases checked
      · next lasting => exact Bool.eq_false_iff.2 lasting

/-- Once a new name was inserted, a query name stands for its state if it carries that query name,
and else for the state that it stood for. -/
theorem StateNames.exists_insert {n : StateNames} {name : String}
    (unknown : n.states[name]? = none) (id : StateId) (queryable : String → Option String)
    (query : String) (x : StateId) :
    (∃ name', (n.insert name id).states[name']? = some x ∧ queryable name' = some query) ↔
      (x = id ∧ queryable name = some query) ∨
        ∃ name', n.states[name']? = some x ∧ queryable name' = some query := by
  have inserted : ∀ name', (n.insert name id).states[name']? =
      if name = name' then some id else n.states[name']? := fun name' =>
    ExtTreeMap.getElem?_insert.trans (by simp only [Std.LawfulEqOrd.compare_eq_iff_eq])
  constructor
  · rintro ⟨name', found, carries⟩
    rw [inserted] at found
    split at found
    · next same => exact .inl ⟨(Option.some.inj found).symm, same ▸ carries⟩
    · exact .inr ⟨name', found, carries⟩
  · rintro (⟨rfl, carries⟩ | ⟨name', found, carries⟩)
    · exact ⟨name, by rw [inserted, if_pos rfl], carries⟩
    · refine ⟨name', ?_, carries⟩
      rw [inserted, if_neg, found]
      rintro rfl
      cases unknown.symm.trans found

/-- What is registered once a name that was free was taken. -/
theorem QueryRegistry.getElem?_insert_iff {ρ : Type} {r : QueryRegistry ρ} {query : String}
    (free : ¬ r.registrations.contains query = true) (new : Registration ρ) (query' : String)
    (registration : Registration ρ) :
    (r.registrations.insert query new)[query']? = some registration ↔
      (registration = new ∧ query = query') ∨ r.registrations[query']? = some registration := by
  have none : r.registrations[query]? = none :=
    ExtTreeMap.getElem?_eq_none fun member => free (ExtTreeMap.mem_iff_contains.1 member)
  rw [ExtTreeMap.getElem?_insert]
  simp only [Std.LawfulEqOrd.compare_eq_iff_eq]
  split
  · next same =>
      subst same
      rw [none]
      simp [eq_comm]
  · next other => simp [other]

/-- Registering a state in a registry that serves. -/
theorem Backend.perform_publish_serving {b : Backend keys} {r : QueryRegistry StateId}
    (serving : b.queries = some (.serving r)) (d : Descriptor) (id : StateId) (name : String)
    (kind : StateKind) :
    (publish d id name kind).perform b = match d.queryable with
      | none => (.ok (), b)
      | some query =>
        if r.registrations.contains query then (.error (.queryNameTaken query), b)
        else (.ok (), { b with
          queries := some (.serving ⟨r.registrations.insert query ⟨b.range, id⟩⟩) }) := by
  rw [publish]
  cases d.queryable with
  | none => rfl
  | some query =>
      dsimp only
      rw [Action.perform_bind_ok (Action.perform_get _), serving]
      dsimp only
      rw [QueryService.register, QueryRegistry.register]
      split <;> rfl

namespace Backend.Matches

variable {c : Catalogue} {since : Nat} {b : Backend keys} {id : StateId} {s : NamedState} {α : Type}

/-- The table of a state may be kept under its name. -/
theorem tableOf (fits : b.Matches c since) (matching : s.Matches c) :
    c.Permits s.name (b.tableOf s) := by
  obtain ⟨h, held, heap⟩ := fits.storage
  rw [tableOf_eq held matching.shared]
  cases found : h.tables[s.name]? with
  | none =>
      have kind : s.kind = (c.spec s.name).type.kind := congrArg (·.type.kind) matching.spec
      exact kind ▸ Table.guarded_empty _
  | some t => exact HeapStorage.matches_iff.1 heap s.name t found

/-- A state was replaced by one of the same name, perhaps with its table. -/
theorem replace (fits : b.Matches c since) (found : b.states[id]? = some s) (s' : NamedState)
    (name : s'.name = s.name) (matching : s'.Matches c) (alike : s.tracker.Alike s'.tracker)
    {storage : Storage} (heap : ∃ h, storage = .heap h ∧ h.Matches c) :
    Matches c since { b with storage, states := b.states.set id s' } := by
  have inside := (List.getElem?_eq_some_iff.1 found).1
  -- the states have the names that they had
  have names : ∀ (id' : StateId) (name' : String),
      (∃ s₁ : NamedState, (b.states.set id s')[id']? = some s₁ ∧ s₁.name = name') ↔
        ∃ s₁ : NamedState, b.states[id']? = some s₁ ∧ s₁.name = name' := by
    intro id' name'
    by_cases here : id = id'
    · subst here
      rw [List.getElem?_set_self inside, found]
      simp [name]
    · rw [List.getElem?_set_ne here]
  refine ⟨?_, heap, fun s₁ member => ?_, fun name' id' => ?_, fits.published,
    RoomForSamples.replace fits.room found name alike storage⟩
  · exact Nat.le_trans fits.within (Nat.le_of_eq List.length_set.symm)
  · rcases List.mem_or_eq_of_mem_set member with old | rfl
    · exact fits.states s₁ old
    · exact matching
  · rw [fits.named, names]

/-- A state worked on its workspace. -/
theorem afterWork (fits : b.Matches c since) (found : b.states[id]? = some s) {w : Workspace keys}
    (same : w.context.forget = b.context.forget) (permits : c.Permits s.name w.table)
    (alike : s.tracker.Alike w.tracker) : (b.afterWork id s w).Matches c since := by
  obtain ⟨h, held, heap⟩ := fits.storage
  have matching := fits.states s (List.mem_of_getElem? found)
  have put : ∃ h, b.storage.setTable s.name w.table = .heap h ∧ h.Matches c := by
    rw [held]
    exact ⟨_, rfl, heap.insert permits⟩
  have replaced := fits.replace found { s with tracker := { w.tracker with samples := [] } } rfl
    ⟨matching.shared, matching.spec, matching.plain⟩ alike put
  have range : w.context.range = b.context.range := congrArg (·.range) same
  obtain ⟨r, serving, registered⟩ := replaced.published
  refine ⟨replaced.within, replaced.storage, replaced.states, replaced.named, ⟨r, serving, ?_⟩,
    RoomForSamples.record replaced.room w.context s.name w.tracker.samples _⟩
  intro query registration
  exact (registered query registration).trans (by rw [Backend.range, Backend.range, ← range]; rfl)

/-- What works on the workspace of a state and keeps its parts keeps the catalogue. -/
theorem onState (fits : b.Matches c since) {run : NamedState → Action (Workspace keys) α}
    (keeps : ∀ s, b.states[id]? = some s → s.Matches c →
      Keeps (fun w => w.context.forget = b.context.forget ∧ c.Permits s.name w.table) (run s)
        fun _ => True)
    (alike : ∀ s, Keeps (fun w => s.tracker.Alike w.tracker) (run s) fun _ => True) :
    ((Backend.onState id run).perform b).2.Matches c since := by
  cases found : b.states[id]? with
  | none =>
      rw [perform_onState_none found]
      exact fits
  | some s =>
      have matching := fits.states s (List.mem_of_getElem? found)
      obtain ⟨⟨same, permits⟩, -⟩ := keeps s found matching ⟨b.context, b.tableOf s, s.tracker⟩
        ⟨rfl, fits.tableOf matching⟩
      have tracked := (alike s ⟨b.context, b.tableOf s, s.tracker⟩ fun _ => rfl).1
      rw [perform_onState found matching.shared run rfl]
      exact fits.afterWork found same permits tracked

/-- A call keeps the catalogue, if it gives selected values to states that can be queried. -/
theorem call (fits : b.Matches c since) (readsBack : c.ReadsBack) (id : StateId) {type : StateType}
    {call : type.Call} (proper : ∀ s, b.states[id]? = some s →
      (c.queryable s.name).isSome = true → type.Puts call → type.Within c.used call) :
    ((Backend.call id type call).perform b).2.Matches c since := by
  rw [Backend.call, Action.perform_bind_ok (Action.perform_get b)]
  refine fits.onState (fun s found matching => ?_) fun s =>
    NamedState.callAs_keeps_alike s.tracker s _ type call
  have coordinates := KeyContext.coordinates_keeps_forget b.context
  by_cases queryable : (c.queryable s.name).isSome = true
  · have table : Table.store.Guards (c.Permits s.name) (s.spec.Retains c.used) fun _ => True := by
      rw [matching.spec, ← c.stores_eq queryable]
      exact Table.store_guards _
    exact NamedState.callAs_retains table (matching.plain queryable)
      (matching.spec ▸ readsBack s.name queryable) (proper s found queryable) coordinates _
  · exact NamedState.callAs_keeps (c.store_keeps queryable)
      (coordinates.weaken fun _ _ _ => trivial) s _ type call

/-- A query keeps the catalogue. -/
theorem serialized (fits : b.Matches c since) (id : StateId) (slot : SlotAddress) :
    ((Backend.serialized id slot).perform b).2.Matches c since := by
  rw [Backend.serialized, Action.perform_bind_ok (Action.perform_get b)]
  refine fits.onState (fun s found matching => ?_) fun s => ?_
  · by_cases queryable : (c.queryable s.name).isSome = true
    · have guards := NamedState.workspaceStore_guards
        (C := fun context : KeyContext keys => context.forget = b.context.forget)
        (P := c.Stores s.name) (S := fun _ => True)
        (Table.store_guards (c.spec s.name).type.kind) (matching.plain queryable) (b.conditions s)
      exact NamedState.serialized_guards guards slot
    · have keeps := NamedState.workspaceStore_keeps
        (C := fun context : KeyContext keys => context.forget = b.context.forget)
        (c.store_keeps queryable) s (b.conditions s)
      exact NamedState.serialized_keeps keeps slot
  · exact NamedState.serialized_keeps (NamedState.workspaceStore_keeps_alike s.tracker s _) slot

/-- Looking up a query name keeps the catalogue. -/
theorem lookup (fits : b.Matches c since) (query : String) (slot : SlotAddress) :
    ((Backend.lookup query slot).perform b).2.Matches c since := by
  rw [Backend.lookup, Action.perform_bind_ok (Action.perform_get b)]
  obtain ⟨r, serving, -⟩ := fits.published
  rw [serving]
  dsimp only
  cases found : r.find query slot.group with
  | error e => exact fits
  | ok id =>
      rw [Action.perform_bind_ok (Action.perform_lift _ _)]
      exact fits.serialized id slot

/-- Setting a namespace keeps the catalogue. -/
theorem setNamespace (fits : b.Matches c since) (id : StateId) (schema : Schema)
    (ns : schema.Val) : ((Backend.setNamespace id schema ns).perform b).2.Matches c since := by
  rcases perform_setNamespace_cases id schema ns b with same | ⟨s, bytes, found, after⟩
  · rw [same]
    exact fits
  · rw [after]
    have matching := fits.states s (List.mem_of_getElem? found)
    exact fits.replace found { s with ns := some bytes } rfl
      ⟨matching.shared, matching.spec, matching.plain⟩ (fun _ => rfl) fits.storage

/-! ### Opening states -/

variable {d : Descriptor} {namespaces : NamespaceType}

/-- The table of a name was opened, and the capacities of its state were registered. -/
theorem opened (fits : b.Matches c since) {h : HeapStorage} (heap : h.Matches c) (name : String) :
    (Backend.registerTracking { b with storage := .heap h } name).Matches c since :=
  ⟨fits.within, ⟨h, rfl, heap⟩, fits.states, fits.named, fits.published,
    (RoomForSamples.registerTracking (b := { b with storage := .heap h }) fits.room name).1⟩

/-- A state was added under a new name. -/
theorem add (fits : b.Matches c since) (unknown : b.names.states[s.name]? = none)
    (matching : s.Matches c) (admits : b.Trackable → b.Admits s)
    {queries : Option (QueryService StateId)}
    (published : ∃ r, queries = some (.serving r) ∧ ∀ query registration,
      r.registrations[query]? = some registration ↔
        (registration = ⟨b.range, b.states.length⟩ ∧ c.queryable s.name = some query) ∨
          registration.range = b.range ∧ ∃ name,
            b.names.states[name]? = some registration.state ∧ c.queryable name = some query) :
    Matches c since { addState { b with queries } s with
      names := b.names.insert s.name b.states.length } := by
  obtain ⟨r, serving, registered⟩ := published
  refine ⟨?_, fits.storage, fun s₁ member => ?_, fun name id => ?_, ⟨r, serving, ?_⟩,
    RoomForSamples.add (b := { b with queries }) fits.room admits _⟩
  · exact Nat.le_trans fits.within (Nat.le_of_lt (by simp [addState]))
  · rcases List.mem_append.1 member with old | last
    · exact fits.states s₁ old
    · exact List.mem_singleton.1 last ▸ matching
  · show (b.names.states.insert s.name b.states.length)[name]? = some id ↔
      since ≤ id ∧ ∃ s₁ : NamedState, (b.states ++ [s])[id]? = some s₁ ∧ s₁.name = name
    rw [ExtTreeMap.getElem?_insert]
    simp only [getElem?_concat_iff]
    split
    · next same =>
        obtain rfl : s.name = name := Std.LawfulEqOrd.compare_eq_iff_eq.1 same
        constructor
        · rintro ⟨⟩
          exact ⟨fits.within, s, .inr ⟨rfl, rfl⟩, rfl⟩
        · rintro ⟨later, s₁, old | ⟨rfl, -⟩, named⟩
          -- no state had the name before
          · cases ((fits.named s.name id).2 ⟨later, s₁, old, named⟩).symm.trans unknown
          · rfl
    · next other =>
        rw [fits.named]
        refine and_congr_right fun _ => exists_congr fun s₁ => ?_
        refine and_congr_left fun named => (or_iff_left ?_).symm
        rintro ⟨-, rfl⟩
        exact other (Std.LawfulEqOrd.compare_eq_iff_eq.2 named)
  · rintro query ⟨range, state⟩
    rw [registered, StateNames.exists_insert unknown b.states.length c.queryable query state,
      and_or_left, Registration.mk.injEq, and_assoc]
    rfl

/-- The state of an unknown name is created, or refused. It is registered before it is added, and
refused if its query name is taken. -/
theorem createState (fits : b.Matches c since) (describes : c.Describes b.execution.format d)
    (unknown : b.names.states[d.name]? = none) :
    ((Backend.createState namespaces).perform (b, d)).2.1.Matches c since := by
  cases checked : b.checkNew d with
  | error e =>
      rw [perform_createState_unchecked checked namespaces]
      exact fits
  | ok _ =>
      obtain ⟨h, held, heap⟩ := fits.storage
      obtain ⟨h', opened, heap'⟩ := heap.openTable d.name
      have kind : (d.settle b.execution.format).kind = (c.spec d.name).type.kind := by
        rw [kind_settle, ← describes.spec, StateSpec.type_settled]
        rfl
      have performed : (Storage.openTable d.name (d.settle b.execution.format).kind).perform
          b.storage = (.ok .shared, .heap h') := by
        rw [held, kind, Storage.openTable, Action.perform_of]
        simp only [opened]
      have registered := fits.opened heap' d.name
      obtain ⟨-, -, admits⟩ := RoomForSamples.registerTracking
        (b := { b with storage := .heap h' }) fits.room d.name
      have matching : NamedState.Matches c ⟨d.name, d.spec.settled b.execution.format, namespaces,
          none, d.ttl, b.newTracker, .shared⟩ := by
        refine ⟨rfl, describes.spec, fun queryable => plain_of_checkNew checked ?_⟩
        rw [describes.queryable]
        exact queryable
      obtain ⟨r, serving, published⟩ := registered.published
      have settled : (d.settle b.execution.format).queryable = d.queryable := rfl
      rw [perform_createState checked performed, perform_publish_serving serving, settled]
      -- what is registered is what was, or the new state for its query name beside it
      cases carried : d.queryable with
      | none =>
          refine registered.add (s := ⟨d.name, d.spec.settled b.execution.format, namespaces,
            none, d.ttl, b.newTracker, .shared⟩) unknown matching (admits _ rfl rfl)
            ⟨r, serving, fun query registration => ?_⟩
          rw [published, ← describes.queryable, carried]
          simp
      | some query =>
          dsimp only
          by_cases taken : r.registrations.contains query = true
          · rw [if_pos taken]
            exact registered
          · rw [if_neg taken]
            refine registered.add (s := ⟨d.name, d.spec.settled b.execution.format, namespaces,
              none, d.ttl, b.newTracker, .shared⟩) unknown matching (admits _ rfl rfl)
              ⟨_, rfl, fun query' registration => ?_⟩
            rw [QueryRegistry.getElem?_insert_iff taken, published, ← describes.queryable, carried,
              Option.some.injEq]
            rfl

theorem getOrCreate (fits : b.Matches c since) (describes : c.Describes b.execution.format d) :
    ((Backend.getOrCreate namespaces).perform (b, d)).2.1.Matches c since := by
  cases known : b.names.states[d.name]? with
  | some id =>
      rw [perform_getOrCreate_known namespaces known]
      exact fits
  | none =>
      rw [perform_getOrCreate_unknown namespaces known]
      exact fits.createState describes known

/-- The state of a name was accessed. -/
theorem promote (fits : b.Matches c since) (name : String) :
    Matches c since { b with names := b.names.promote name } :=
  ⟨fits.within, fits.storage, fits.states, fits.named, fits.published, fits.room⟩

theorem getPartitioned (fits : b.Matches c since) (describes : c.Describes b.execution.format d)
    (ns : namespaces.schema.Val) :
    ((Backend.getPartitioned namespaces ns).perform (b, d)).2.1.Matches c since :=
  after_getPartitioned (I := Matches c since) fits (fits.getOrCreate describes)
    (fun _ name fits => fits.promote name)
    fun _ id fits => fits.setNamespace id namespaces.schema ns

/-! ### Restoring and disposing -/

/-- A key group is restored from what such a storage has written, in any order. -/
theorem readKeyGroup (fits : b.Matches c since) {source : HeapStorage}
    (source_fits : source.Matches c) (memory : source.FitsMemory) {g : KeyGroup}
    {written : KeyGroupSnapshot} (order : (source.snapshot g).Reorders written)
    {stream rest : Bytes} (unpacked : (b.compression.decode stream).bytes =
      KeyGroupSnapshot.codec.encode written ++ rest) (g' : KeyGroup) :
    ((Backend.readKeyGroup g' stream).perform b).2.Matches c since := by
  obtain ⟨h, held, heap⟩ := fits.storage
  rcases performed : (Backend.readKeyGroup g' stream).perform b with ⟨e | rest', after⟩
  · have same : after = b := readKeyGroup_allOrNothing g' stream b e after performed
    exact same ▸ fits
  · obtain ⟨h', read, rfl⟩ := exists_of_readKeyGroup held performed
    obtain ⟨s, decoded, -, -, rfl⟩ := HeapStorage.exists_restore_of_read read
    -- what is decoded is what was written
    rw [unpacked, KeyGroupSnapshot.codec.decode_encode _ rest (order.fits (memory.fits g))]
      at decoded
    cases decoded
    exact ⟨fits.within, ⟨_, rfl, heap.restore source_fits order⟩, fits.states, fits.named,
      fits.published, fits.room⟩

/-- Once the backend is disposed of, no state is named and nothing is registered. -/
theorem dispose (fits : b.Matches c since) : b.dispose.Matches c b.states.length := by
  obtain ⟨r, serving, -⟩ := fits.published
  have unnamed : ∀ name, b.dispose.names.states[name]? = none := fun name =>
    ExtTreeMap.getElem?_empty
  -- the states are still there, but all of them have numbers below the next one
  refine ⟨Nat.le_refl _, fits.storage, fits.states, fun name id => ?_, ⟨.empty, ?_, ?_⟩, fits.room⟩
  · rw [unnamed]
    refine ⟨by rintro ⟨⟩, ?_⟩
    rintro ⟨later, s, found, -⟩
    exact absurd (List.getElem?_eq_some_iff.1 found).1 (Nat.not_lt.2 later)
  · show b.queries.map QueryService.unregisterAll = _
    rw [serving]
    rfl
  · intro query registration
    simp only [unnamed]
    simp [QueryRegistry.empty]

end Backend.Matches

end KeyedState
