import KeyedState.Proofs.Backend.Runs
import KeyedState.Proofs.State.Requests
import KeyedState.Proofs.Storage.Contents
import KeyedState.Backend.Lifecycle

/-!
# What a backend holds

A backend whose current key is only set together with the group that the key hashes to, in its
own range, holds nothing else: every slot that is not empty lies at a key group of its range,
under the serialized form of a key that hashes to that group (`Backend.At`). Each operation keeps
this (`Step.keeps_at`), and so does every run (`Backend.At.run`).

The names of states are taken to have one kind each, `kindOf`.
-/

namespace KeyedState

open Std (ExtTreeMap)
open KeyedState.Action (Keeps)

variable {keys : Schema}

/-! ## The current key -/

namespace KeyContext

/-- The bytes are a key that hashes to the group, which is one of the range. -/
def Locates (home : KeyContext keys) (g : KeyGroup) (bytes : Bytes) : Prop :=
  home.range.contains g = true ∧ ∃ key serializer, home.serializer = some serializer ∧
    serializer.serialize key = .ok bytes ∧ g = home.groupOf key

/-- A context with the settings of `home`, in which a current key has the group that it hashes to,
one of the range. -/
structure At (home c : KeyContext keys) : Prop where
  groups : c.groups = home.groups
  range : c.range = home.range
  serializer : c.serializer = home.serializer
  current : ∀ g, c.group = some g →
    home.range.contains g = true ∧ ∃ key, c.key = some key ∧ g = home.groupOf key
  serialized : ∀ bytes, c.serialized = some bytes → c.serialize = .ok bytes

/-- The serialized form of the current key belongs to its group. -/
theorem At.locates {home c : KeyContext keys} (at_home : home.At c) {g : KeyGroup} {bytes : Bytes}
    (group : c.group = some g) (serialized : c.serialize = .ok bytes) : home.Locates g bytes := by
  obtain ⟨own, key, hkey, hg⟩ := at_home.current g group
  refine ⟨own, key, ?_⟩
  rw [serialize, hkey, at_home.serializer] at serialized
  cases h : home.serializer with
  | none => rw [h] at serialized; cases serialized
  | some serializer => rw [h] at serialized; exact ⟨serializer, rfl, serialized, hg⟩

/-- Looking up the current key gives bytes that belong to its group. -/
theorem coordinates_keeps (home : KeyContext keys) :
    Keeps home.At coordinates fun k => home.Locates k.group k.key := by
  intro c at_home
  rw [coordinates, Action.perform_of]
  cases group : c.group with
  | none => exact ⟨at_home, fun _ same => by cases same⟩
  | some g =>
      -- what is remembered, or else written now, is the current key
      cases serialized : c.serialized with
      | some bytes =>
          refine ⟨at_home, fun k same => ?_⟩
          cases same
          exact at_home.locates group (at_home.serialized bytes serialized)
      | none =>
          cases fresh : c.serialize with
          | error e => exact ⟨at_home, fun _ same => by cases same⟩
          | ok bytes =>
              refine ⟨⟨at_home.groups, at_home.range, at_home.serializer, ?_, ?_⟩, fun k same => ?_⟩
              · exact fun g' same => at_home.current g' (group.trans same)
              · intro bytes' same
                cases same
                exact fresh
              · cases same
                exact at_home.locates group fresh

end KeyContext

/-! ## Tables -/

/-- The table keeps nothing empty, and its slots belong to keys of the range. -/
structure Table.At (home : KeyContext keys) (t : Table) : Prop where
  pruned : t.Pruned
  located : ∀ a, t.slot a ≠ .empty → home.Locates a.group a.key

namespace Table

variable {home : KeyContext keys}

theorem at_empty (home : KeyContext keys) (kind : StateKind) : (empty kind).At home where
  pruned := pruned_empty kind
  located a nonempty := by
    rw [slot_empty] at nonempty
    exact absurd rfl nonempty

/-- Requests about slots of keys of the range keep a table so, and its kind. -/
theorem store_keeps_at (home : KeyContext keys) (kind : StateKind) :
    store.Keeps (fun t => t.At home ∧ t.kind = kind) fun s => home.Locates s.group s.key := by
  intro r hr t ht
  refine ⟨⟨⟨ht.1.pruned.perform r, fun a nonempty => ?_⟩, ?_⟩, fun _ _ => trivial⟩
  · rw [slot_perform] at nonempty
    split at nonempty
    · next same => rw [same]; exact hr
    · exact ht.1.located a nonempty
  · rw [kind_perform]
    exact ht.2

end Table

/-- All tables are so, and have the kinds of their names. -/
def HeapStorage.At (home : KeyContext keys) (kindOf : String → StateKind) (h : HeapStorage) :
    Prop :=
  ∀ (name : String) (table : Table), h.tables[name]? = some table →
    table.At home ∧ table.kind = kindOf name

/-- A storage of such tables. -/
def Storage.At (home : KeyContext keys) (kindOf : String → StateKind) (storage : Storage) : Prop :=
  ∃ h, storage = .heap h ∧ h.At home kindOf

theorem HeapStorage.At.insert {home : KeyContext keys} {kindOf : String → StateKind}
    {h : HeapStorage} (ok : h.At home kindOf) {name : String} {table : Table}
    (ht : table.At home) (kind : table.kind = kindOf name) :
    HeapStorage.At home kindOf ⟨h.tables.insert name table⟩ := by
  intro name' table' found
  rw [getElem?_insert] at found
  split at found
  · next same =>
      cases found
      exact ⟨ht, same ▸ kind⟩
  · exact ok name' table' found

/-- Opening a table at the kind of its name keeps a storage so; the table is shared. -/
theorem Storage.openTable_keeps {home : KeyContext keys} {kindOf : String → StateKind}
    (name : String) :
    Keeps (Storage.At home kindOf) (openTable name (kindOf name)) (· = .shared) := by
  rintro _ ⟨h, rfl, ok⟩
  rw [openTable, Action.perform_of]
  simp only [HeapStorage.openTable]
  cases found : h.tables[name]? with
  | none =>
      refine ⟨⟨_, rfl, ok.insert (Table.at_empty home _) rfl⟩, fun _ same => ?_⟩
      cases same
      rfl
  | some table =>
      simp only [(ok name table found).2, if_true]
      exact ⟨⟨h, rfl, ok⟩, fun _ same => by cases same; rfl⟩

/-! ## Backends -/

/-- A named state that keeps to its name: its table is the one of its name, of the kind of its
name. -/
structure NamedState.At (kindOf : String → StateKind) (s : NamedState) : Prop where
  kind : s.kind = kindOf s.name
  shared : s.place = .shared

/-- A backend that holds nothing but what belongs to keys of its range. -/
structure Backend.At (home : KeyContext keys) (kindOf : String → StateKind) (c : Compression)
    (b : Backend keys) : Prop where
  context : home.At b.context
  storage : b.storage.At home kindOf
  states : ∀ s ∈ b.states, s.At kindOf
  compression : b.compression = c

namespace Backend

variable {home : KeyContext keys} {kindOf : String → StateKind} {comp : Compression} {α : Type}

/-- The state of a number keeps to its name. -/
theorem At.state {b : Backend keys} (hb : b.At home kindOf comp) {id : StateId} {s : NamedState}
    (found : b.state id = .ok s) : s.At kindOf := by
  rw [Backend.state] at found
  cases h : b.states[id]? with
  | none => rw [h] at found; cases found
  | some s' =>
      rw [h] at found
      cases found
      exact hb.states s (List.mem_of_getElem? h)

/-- The table of a state that keeps to its name. -/
theorem At.tableOf {b : Backend keys} (hb : b.At home kindOf comp) {s : NamedState}
    (hs : s.At kindOf) : (b.tableOf s).At home ∧ (b.tableOf s).kind = kindOf s.name := by
  obtain ⟨h, held, ok⟩ := hb.storage
  rw [tableOf_eq held hs.shared]
  cases found : h.tables[s.name]? with
  | none => exact ⟨Table.at_empty home s.kind, hs.kind⟩
  | some table => exact ok s.name table found

/-- States that all keep to their names, after one was replaced by another that does. -/
theorem At.set {b : Backend keys} (hb : b.At home kindOf comp) (id : StateId) {s : NamedState}
    (hs : s.At kindOf) : ∀ s' ∈ b.states.set id s, s'.At kindOf := by
  intro s' member
  rcases List.mem_or_eq_of_mem_set member with old | rfl
  · exact hb.states s' old
  · exact hs

/-- What works on the workspace of a state and keeps its parts keeps the backend. -/
theorem onState_keeps (id : StateId) {run : NamedState → Action (Workspace keys) α}
    (keeps : ∀ s, s.At kindOf → Keeps
      (fun w => home.At w.context ∧ w.table.At home ∧ w.table.kind = kindOf s.name) (run s)
      fun _ => True) :
    Keeps (At home kindOf comp) (onState id run) fun _ => True := by
  intro b hb
  refine ⟨?_, fun _ _ => trivial⟩
  rw [onState, Action.perform_of]
  cases found : b.state id with
  | error e => exact hb
  | ok s =>
      have hs := hb.state found
      obtain ⟨table, kind⟩ := hb.tableOf hs
      obtain ⟨⟨context, table', kind'⟩, -⟩ :=
        keeps s hs ⟨b.context, b.tableOf s, s.tracker⟩ ⟨hb.context, table, kind⟩
      obtain ⟨h, held, ok⟩ := hb.storage
      -- the table goes back under the name of the state, the state under its number
      simp only [putBack, hs.shared]
      refine ⟨context, ⟨_, ?_, ok.insert table' kind'⟩, ?_, hb.compression⟩
      · simp only [collect, tell, held]
        rfl
      · exact hb.set id ⟨hs.kind, rfl⟩

/-- A call on a state keeps the backend. -/
theorem call_keeps (id : StateId) (type : StateType) (c : type.Call) :
    Keeps (At home kindOf comp) (call id type c) fun _ => True := by
  apply Keeps.get.bind
  intro b _
  apply onState_keeps id
  intro s _
  refine NamedState.callAs_keeps (Table.store_keeps_at home (kindOf s.name)) ?_ s _ type c
  exact (KeyContext.coordinates_keeps home).weaken fun k located _ => located

/-- Setting the namespace of a state keeps the backend. -/
theorem setNamespace_keeps (id : StateId) (schema : Schema) (ns : schema.Val) :
    Keeps (At home kindOf comp) (setNamespace id schema ns) fun _ => True := by
  apply Keeps.get.bind
  intro b hb
  apply Keeps.bind (Q := NamedState.At kindOf) (.lift fun s found => hb.state found)
  intro s hs
  refine Keeps.bind (Q := NamedState.At kindOf) (.lift fun s' named => ?_) fun s' hs' => ?_
  · rw [NamedState.setNamespace] at named
    split at named
    · cases written : s.namespaces.serializer.serialize _ with
      | error e => rw [written] at named; cases named
      | ok bytes =>
          rw [written] at named
          cases named
          exact ⟨hs.kind, hs.shared⟩
    · cases named
  · exact .set ⟨hb.context, hb.storage, hb.set id hs', hb.compression⟩

/-! ## Opening states -/

/-- A backend beside a descriptor that has the kind of its name. -/
def AtBeside (home : KeyContext keys) (kindOf : String → StateKind) (c : Compression)
    (p : Backend keys × Descriptor) : Prop :=
  p.1.At home kindOf c ∧ p.2.kind = kindOf p.2.name

/-- An action on the backend alone keeps it beside a descriptor. -/
theorem keeps_beside {a : Action (Backend keys) α} {Q : α → Prop}
    (keeps : Keeps (At home kindOf comp) a Q) :
    Keeps (AtBeside home kindOf comp) (a.within backendPart) Q :=
  keeps.within (fun _ hp => hp.1) fun _ hp _ hb => ⟨hb, hp.2⟩

/-- Setting the open serializers changes neither the name nor the kind of a descriptor. -/
theorem kind_settle (d : Descriptor) (format : SerializerFormat) :
    (d.settle format).kind = d.kind := by
  obtain ⟨name, ttl, queryable, spec⟩ := d
  cases spec <;> rfl

/-- A state has the kind of the specification that it was made of. -/
theorem kind_of_create {d : Descriptor} {namespaces : NamespaceType} {ttl : TtlConfig}
    {tracker : Tracker} {place : Place} {s : NamedState}
    (created : NamedState.create d namespaces ttl tracker place = .ok s) :
    s.kind = d.kind ∧ s.name = d.name ∧ s.place = place := by
  obtain ⟨name, ttl', queryable, spec⟩ := d
  rw [NamedState.create] at created
  cases complete : spec.complete? with
  | none => simp [complete] at created
  | some spec' =>
      simp only [complete, Except.ok.injEq] at created
      subst created
      -- completing a specification fills in its serializers and leaves its kind
      refine ⟨?_, rfl, rfl⟩
      cases spec with
      | value v serializer =>
          obtain ⟨_, -, same⟩ := Option.bind_eq_some_iff.1 complete
          cases same
          rfl
      | list v serializer =>
          obtain ⟨_, -, same⟩ := Option.bind_eq_some_iff.1 complete
          cases same
          rfl
      | map k v serializer serializer' =>
          obtain ⟨_, -, rest⟩ := Option.bind_eq_some_iff.1 complete
          obtain ⟨_, -, same⟩ := Option.bind_eq_some_iff.1 rest
          cases same
          rfl
      | reducing v serializer reduce =>
          obtain ⟨_, -, same⟩ := Option.bind_eq_some_iff.1 complete
          cases same
          rfl

/-- Publishing a state changes nothing that is held. -/
theorem publish_keeps (d : Descriptor) (id : StateId) (name : String) (kind : StateKind) :
    Keeps (At home kindOf comp) (publish d id name kind) fun _ => True := by
  rw [publish]
  cases d.queryable with
  | none => exact .pure trivial
  | some queryName =>
      apply Keeps.get.bind
      intro b hb
      cases b.queries with
      | none => exact .throw _
      | some service =>
          apply Keeps.bind (.lift fun _ _ => trivial)
          intro service' _
          exact .set ⟨hb.context, hb.storage, hb.states, hb.compression⟩

/-- One more state that keeps to its name. -/
theorem At.addState {b : Backend keys} (hb : b.At home kindOf comp) {s : NamedState}
    (hs : s.At kindOf) : (b.addState s).At home kindOf comp where
  context := hb.context
  storage := hb.storage
  compression := hb.compression
  states s' member := by
    rcases List.mem_append.1 member with old | new
    · exact hb.states s' old
    · exact List.mem_singleton.1 new ▸ hs

/-- Creating a state keeps the backend. -/
theorem createState_keeps (namespaces : NamespaceType) :
    Keeps (AtBeside home kindOf comp) (createState namespaces) fun _ => True := by
  apply Keeps.get.bind
  rintro ⟨b, d⟩ ⟨hb, hd⟩
  have settled : (d.settle b.execution.format).kind = kindOf d.name := (kind_settle d _).trans hd
  apply Keeps.bind (.lift fun _ _ => trivial)
  intro _ _
  apply (Keeps.set ⟨hb, settled⟩).bind
  intro _ _
  -- the table is opened at the kind of its name
  have opened : Keeps (At home kindOf comp)
      ((Storage.openTable d.name (d.settle b.execution.format).kind).within storagePart)
      (· = .shared) := by
    rw [settled]
    exact (Storage.openTable_keeps d.name).within (fun _ hb => hb.storage)
      fun _ hb _ ok => ⟨hb.context, ok, hb.states, hb.compression⟩
  apply (keeps_beside opened).bind
  intro place shared
  refine (Keeps.modified fun p hp =>
    ⟨⟨hp.1.context, hp.1.storage, hp.1.states, hp.1.compression⟩, hp.2⟩).bind fun _ _ => ?_
  refine Keeps.bind (Q := NamedState.At kindOf) (.lift fun s created => ?_) fun s hs => ?_
  · obtain ⟨kind, name, held⟩ := kind_of_create created
    exact ⟨by rw [kind, settled, name]; rfl, held.trans shared⟩
  apply (keeps_beside (publish_keeps _ _ _ _)).bind
  intro _ _
  apply (Keeps.modified fun p hp => ⟨hp.1.addState hs, hp.2⟩).bind
  intro _ _
  refine (Keeps.modified fun p hp =>
    ⟨⟨hp.1.context, hp.1.storage, hp.1.states, hp.1.compression⟩, hp.2⟩).bind fun _ _ => ?_
  exact .pure trivial

/-- Asking for the state of a name keeps the backend. -/
theorem getOrCreate_keeps (namespaces : NamespaceType) :
    Keeps (AtBeside home kindOf comp) (getOrCreate namespaces) fun _ => True := by
  apply Keeps.get.bind
  rintro ⟨b, d⟩ _
  dsimp only
  cases b.names.states[d.name]? with
  | none => exact createState_keeps namespaces
  | some id => exact Keeps.bind (.lift fun _ _ => trivial) fun _ _ => .pure trivial

/-- Asking for the state of a name in a namespace keeps the backend. -/
theorem getPartitioned_keeps (namespaces : NamespaceType) (ns : namespaces.schema.Val) :
    Keeps (AtBeside home kindOf comp) (getPartitioned namespaces ns) fun _ => True := by
  apply Keeps.get.bind
  rintro ⟨b, d⟩ _
  dsimp only
  cases b.names.recent? d.name with
  | none =>
      apply (getOrCreate_keeps namespaces).bind
      intro id _
      refine (Keeps.modified fun p hp =>
        ⟨⟨hp.1.context, hp.1.storage, hp.1.states, hp.1.compression⟩, hp.2⟩).bind fun _ _ => ?_
      exact (keeps_beside (setNamespace_keeps id _ ns)).bind fun _ _ => .pure trivial
  | some id =>
      apply Keeps.bind (.lift fun _ _ => trivial)
      intro _ _
      exact (keeps_beside (setNamespace_keeps id _ ns)).bind fun _ _ => .pure trivial

end Backend

/-! ## Runs -/

namespace Step

variable {home : KeyContext keys} {kindOf : String → StateKind} {comp : Compression}

/-- The current key is set together with its group only, which is one of the range, and a state is
opened at the kind of its name only. -/
def Allowed (home : KeyContext keys) (kindOf : String → StateKind) : Step keys → Prop
  | setKey key => home.range.contains (home.groupOf key) = true
  | setKeyAndGroup _ _ => False
  | setGroup _ => False
  | create d _ => d.kind = kindOf d.name
  | getPartitioned d _ _ => d.kind = kindOf d.name
  | _ => True

theorem beside_keeps {α : Type} {d : Descriptor} (hd : d.kind = kindOf d.name)
    {a : Action (Backend keys × Descriptor) α}
    (keeps : Keeps (Backend.AtBeside home kindOf comp) a fun _ => True) {b : Backend keys}
    (hb : b.At home kindOf comp) : ((beside d a).perform b).2.At home kindOf comp :=
  (keeps (b, d) ⟨hb, hd⟩).1.1

/-- Every operation that is allowed keeps the backend. -/
theorem keeps_at {s : Step keys} (allowed : s.Allowed home kindOf) (b : Backend keys)
    (hb : b.At home kindOf comp) : (s.perform.perform b).2.At home kindOf comp := by
  cases s with
  | setKey key =>
      have group : b.context.groupOf key = home.groupOf key := by
        rw [KeyContext.groupOf, hb.context.groups]
        rfl
      refine ⟨⟨hb.context.groups, hb.context.range, hb.context.serializer, ?_, ?_⟩, hb.storage,
        hb.states, hb.compression⟩
      · intro g same
        cases same
        exact ⟨group ▸ allowed, key, rfl, group⟩
      · intro bytes same
        cases same
  | setKeyAndGroup key g => exact absurd allowed not_false
  | setGroup g => exact absurd allowed not_false
  | setClock now => exact ⟨hb.context, hb.storage, hb.states, hb.compression⟩
  | create d namespaces => exact beside_keeps allowed (Backend.getOrCreate_keeps namespaces) hb
  | getPartitioned d namespaces ns =>
      exact beside_keeps allowed (Backend.getPartitioned_keeps namespaces ns) hb
  | setNamespace id schema ns => exact (Backend.setNamespace_keeps id schema ns b hb).1
  | call id type c => exact (Backend.call_keeps id type c b hb).1

end Step

/-- A run of allowed operations keeps the backend. -/
theorem Backend.At.run {home : KeyContext keys} {kindOf : String → StateKind} {c : Compression}
    {b : Backend keys} (hb : b.At home kindOf c) {steps : List (Step keys)}
    (allowed : ∀ s ∈ steps, s.Allowed home kindOf) : (Step.run steps b).At home kindOf c :=
  Step.run_keeps (fun s member => Step.keeps_at (allowed s member)) hb

end KeyedState
