import KeyedState.Proofs.Backend.Usage

/-!
# Backends that use a name as they should

Backends come to be what they are by operations (`Backend.Reached`): they are built, set keys, open
states, call them and are queried, restore key groups that others have written, are disposed of, and
share storages. Whatever they do in between, what they hold under the name in question is sound
(`Backend.Reached.sound`).

Asking for the state of a name changes nothing that is held and does not touch the current key
(`Backend.Opened`). For the name in question it is only refused if the descriptor asks for queries
or has no name (`Backend.Sound.getPartitioned`).
-/

namespace KeyedState

open Std (ExtTreeMap)

variable {keys : Schema}

/-- A table is opened: what is held stays the same. Only a table of another kind is in the way, and
there is none under the name in question. -/
theorem HeapStorage.Legal.openTable {u : Usage keys} {h : HeapStorage} (legal : h.Legal u)
    {name : String} {kind : StateKind} (same : name = u.name → kind = u.spec.type.kind) :
    (∃ h', h.openTable name kind = .ok h' ∧ h'.Legal u ∧
      ∀ name' g, h'.contents name' g = h.contents name' g) ∨
    name ≠ u.name ∧ ∃ e, h.openTable name kind = .error e := by
  rw [HeapStorage.openTable]
  cases found : h.tables[name]? with
  | none =>
      refine .inl ⟨_, rfl, legal.insert (Usage.permits_empty same), fun name' g => ?_⟩
      rw [contents, getElem?_insert]
      by_cases here : name' = name
      · subst here
        rw [if_pos rfl, contents_of_none found]
        exact Table.group_empty kind g
      · rw [if_neg here, contents]
  | some t =>
      by_cases kinds : t.kind = kind
      · exact .inl ⟨h, if_pos kinds, legal, fun _ _ => rfl⟩
      · refine .inr ⟨?_, _, if_neg kinds⟩
        rintro rfl
        exact kinds ((legal.kind _ (by rw [kind?, found]; rfl)).trans (same rfl).symm)

namespace Backend

/-- What asking for the state of a name leaves of a backend: it is sound, holds what it held, and
has the same current key. If a state is given, it has the name. -/
structure Opened (u : Usage keys) (name : String) (b : Backend keys)
    (outcome : Except StateError StateId) (b' : Backend keys) : Prop where
  sound : b'.Sound u
  context : b'.context = b.context
  held : ∀ name g, b'.held name g = b.held name g
  trackable : b.Trackable → b'.Trackable
  state : ∀ id, outcome = .ok id → ∃ s, b'.states[id]? = some s ∧ s.name = name

variable {u : Usage keys} {b : Backend keys} {d : Descriptor} {namespaces : NamespaceType}

namespace Sound

/-- What is published, or told, is not looked at. -/
theorem publish (sound : b.Sound u) (queries : Option (QueryService StateId)) :
    Sound u { b with queries } :=
  ⟨sound.context, sound.storage, sound.states, sound.named, sound.admits⟩

/-- The capacities of a name were registered; if they can be set up, also for a new state of it. -/
theorem registerTracking (sound : b.Sound u) (name : String) :
    (b.registerTracking name).Sound u ∧
      (b.Trackable → (b.registerTracking name).Trackable) ∧
      ∀ s : NamedState, s.name = name → s.tracker = b.newTracker →
        (b.registerTracking name).Trackable → (b.registerTracking name).Admits s := by
  obtain ⟨room, trackable, admits⟩ := RoomForSamples.registerTracking sound.admits name
  exact ⟨⟨sound.context, sound.storage, sound.states, sound.named, room⟩, trackable, admits⟩

/-- A new state was added under its name. -/
theorem add (sound : b.Sound u) {s : NamedState} (conforms : s.Conforms u)
    (admits : b.Trackable → b.Admits s) :
    Sound u { b.addState s with names := b.names.insert s.name b.states.length } := by
  have new : (b.states ++ [s])[b.states.length]? = some s := List.getElem?_concat_length
  refine ⟨sound.context, sound.storage, fun s₁ member => ?_, fun name id numbered => ?_,
    RoomForSamples.add sound.admits admits _⟩
  · rcases List.mem_append.1 member with old | last
    · exact sound.states s₁ old
    · exact List.mem_singleton.1 last ▸ conforms
  · have old : ∀ {s₁}, b.states[id]? = some s₁ → (b.states ++ [s])[id]? = some s₁ := fun held =>
      getElem?_concat_iff.2 (.inl held)
    rcases numbered with listed | accessed
    · have inserted : (b.names.states.insert s.name b.states.length)[name]? = some id := listed
      rw [ExtTreeMap.getElem?_insert] at inserted
      split at inserted
      · next same =>
          cases inserted
          exact ⟨s, new, Std.LawfulEqOrd.compare_eq_iff_eq.1 same⟩
      · obtain ⟨s₁, held, same⟩ := sound.named name id (.inl inserted)
        exact ⟨s₁, old held, same⟩
    · obtain ⟨s₁, held, same⟩ := sound.named name id (.inr accessed)
      exact ⟨s₁, old held, same⟩

/-- The state of a name was accessed. -/
theorem promote (sound : b.Sound u) (name : String) :
    Sound u { b with names := b.names.promote name } := by
  refine ⟨sound.context, sound.storage, sound.states, fun name' id numbered => ?_, sound.admits⟩
  rcases numbered with listed | accessed
  · exact sound.named name' id (.inl listed)
  · obtain ⟨id', listed, same⟩ := Option.map_eq_some_iff.1 accessed
    cases same
    exact sound.named name id (.inl listed)

/-- Nothing was done. -/
theorem opened (sound : b.Sound u) {name : String} {outcome : Except StateError StateId}
    (state : ∀ id, outcome = .ok id → ∃ s, b.states[id]? = some s ∧ s.name = name) :
    Opened u name b outcome b :=
  ⟨sound, rfl, fun _ _ => rfl, id, state⟩

/-- A state is created once its table was opened. Only what is to be queried can still be
refused. -/
theorem createOpened (sound : b.Sound u) (describes : u.Describes b.execution.format d namespaces)
    (checked : b.checkNew d = .ok ()) {h : HeapStorage}
    (performed : (Storage.openTable d.name (d.settle b.execution.format).kind).perform b.storage =
      (.ok .shared, .heap h)) (legal : h.Legal u)
    (same : ∀ name g, h.contents name g = b.held name g) :
    ∃ outcome b' d', (Backend.createState namespaces).perform (b, d) = (outcome, b', d') ∧
      Opened u d.name b outcome b' ∧ (d.queryable = none → ∃ id, outcome = .ok id) := by
  have tabled : Sound u { b with storage := .heap h } :=
    ⟨sound.context, ⟨h, rfl, legal⟩, sound.states, sound.named, sound.admits⟩
  obtain ⟨registered, trackable, admits⟩ := tabled.registerTracking d.name
  obtain ⟨outcome, queries, published, succeeds⟩ := perform_publish
    (d.settle b.execution.format) b.states.length d.name (d.settle b.execution.format).kind
    (Backend.registerTracking { b with storage := .heap h } d.name)
  rw [perform_createState checked performed, published]
  -- a state that cannot be published is not added
  rcases succeeds with rfl | ⟨queryable, e, rfl⟩
  · have added := (registered.publish queries).add
      (s := ⟨d.name, d.spec.settled b.execution.format, namespaces, none, d.ttl, b.newTracker,
        .shared⟩)
      ⟨rfl, describes.spec, describes.namespaces, describes.plain⟩ (admits _ rfl rfl)
    refine ⟨_, _, _, rfl, ⟨added, rfl, same, trackable, ?_⟩, fun _ => ⟨_, rfl⟩⟩
    rintro _ ⟨⟩
    exact ⟨_, List.getElem?_concat_length, rfl⟩
  · refine ⟨_, _, _, rfl, ⟨registered.publish queries, rfl, same, trackable, by rintro _ ⟨⟩⟩, ?_⟩
    intro unpublished
    cases (congrArg Option.isSome unpublished).symm.trans queryable

/-- A state is created, or refused. Under the name in question there is no reason to refuse it if
it has a name and is not to be queried. -/
theorem createState (sound : b.Sound u) (describes : u.Describes b.execution.format d namespaces) :
    ∃ outcome b' d', (Backend.createState namespaces).perform (b, d) = (outcome, b', d') ∧
      Opened u d.name b outcome b' ∧
      (d.name = u.name → d.name ≠ "" → d.queryable = none → ∃ id, outcome = .ok id) := by
  cases checked : b.checkNew d with
  | error e =>
      refine ⟨.error e, b, d, perform_createState_unchecked checked namespaces,
        sound.opened (by rintro _ ⟨⟩), fun _ named unpublished => ?_⟩
      have accepted : b.checkNew d = .ok () :=
        checkNew_eq_ok named (by rw [sound.context.serializer]; rfl) (by rw [unpublished]; rfl)
      cases accepted.symm.trans checked
  | ok _ =>
      obtain ⟨h, held, legal⟩ := sound.storage
      have kind : d.name = u.name → (d.settle b.execution.format).kind = u.spec.type.kind := by
        intro here
        rw [kind_settle, ← describes.spec here, StateSpec.type_settled]
        rfl
      rcases legal.openTable kind with ⟨h', opened, legal', contents⟩ | ⟨other, e, refused⟩
      · have performed : (Storage.openTable d.name (d.settle b.execution.format).kind).perform
            b.storage = (.ok .shared, .heap h') := by
          rw [held, Storage.openTable, Action.perform_of]
          simp only [opened]
        obtain ⟨outcome, b', d', created, state, succeeds⟩ :=
          sound.createOpened describes checked performed legal' fun name g =>
            (contents name g).trans (held_eq held name g).symm
        exact ⟨outcome, b', d', created, state, fun _ _ => succeeds⟩
      · have closed : (Storage.openTable d.name (d.settle b.execution.format).kind).perform
            b.storage = (.error e, b.storage) := by
          rw [held, Storage.openTable, Action.perform_of]
          simp only [refused]
        exact ⟨.error e, b, d.settle b.execution.format,
          perform_createState_unopened checked closed namespaces, sound.opened (by rintro _ ⟨⟩),
          fun here => absurd here other⟩

/-- A state of the name has the type that is asked for. -/
theorem checkType (sound : b.Sound u) (describes : u.Describes b.execution.format d namespaces)
    (here : d.name = u.name) {id : StateId} {s : NamedState} (found : b.states[id]? = some s)
    (named : s.name = d.name) : b.checkType id d namespaces.schema = .ok () := by
  have conforms := sound.states s (List.mem_of_getElem? found)
  rw [checkType_eq found, if_pos]
  refine (s.isOf_iff d.type namespaces.schema).2 ⟨?_, ?_⟩
  · rw [NamedState.type, conforms.spec (named.trans here), ← describes.spec here,
      StateSpec.type_settled]
    rfl
  · rw [conforms.namespaces (named.trans here), describes.namespaces here]

/-- The state of a descriptor is found or created. -/
theorem getOrCreate (sound : b.Sound u) (describes : u.Describes b.execution.format d namespaces) :
    ∃ outcome b' d', (Backend.getOrCreate namespaces).perform (b, d) = (outcome, b', d') ∧
      Opened u d.name b outcome b' ∧
      (d.name = u.name → (b.names.states[d.name]?.isSome = true ∨
        d.name ≠ "" ∧ d.queryable = none) → ∃ id, outcome = .ok id) := by
  rw [Backend.getOrCreate, Action.perform_bind_ok (Action.perform_get (b, d))]
  dsimp only
  cases numbered : b.names.states[d.name]? with
  | none =>
      obtain ⟨outcome, b', d', performed, opened, succeeds⟩ := sound.createState describes
      refine ⟨outcome, b', d', performed, opened, fun here named => ?_⟩
      rcases named with known | ⟨named, unpublished⟩
      · cases known
      · exact succeeds here named unpublished
  | some id =>
      obtain ⟨s, found, named⟩ := sound.named d.name id (.inl numbered)
      dsimp only
      cases checked : b.checkType id d namespaces.schema with
      | error e =>
          refine ⟨.error e, b, d, Action.perform_bind_error (Action.perform_lift _ _) _,
            sound.opened (by rintro _ ⟨⟩), fun here _ => ?_⟩
          cases (sound.checkType describes here found named).symm.trans checked
      | ok _ =>
          refine ⟨.ok id, b, d, ?_, sound.opened ?_, fun _ _ => ⟨id, rfl⟩⟩
          · rw [Action.perform_bind_ok (Action.perform_lift _ _)]
            rfl
          · rintro _ ⟨⟩
            exact ⟨s, found, named⟩

end Sound

/-- The state of a number is one of the name, in a namespace. -/
def Stands (u : Usage keys) (ns : Bytes) (b : Backend keys) (id : StateId) : Prop :=
  ∃ s, b.states[id]? = some s ∧ s.name = u.name ∧ s.ns = some ns

/-- The namespace of the state that was found or created is set. Under the name in question it is
not refused if it can be written. -/
theorem Opened.partition {name : String} {id : StateId} {b₁ : Backend keys}
    (opened : Opened u name b (.ok id) b₁) (ns : namespaces.schema.Val) (d₁ : Descriptor) :
    ∃ outcome b', ((Backend.setNamespace id namespaces.schema ns).within backendPart >>= fun _ =>
        pure id : Action (Backend keys × Descriptor) StateId).perform (b₁, d₁) =
          (outcome, b', d₁) ∧
      Opened u name b outcome b' ∧
      (name = u.name → namespaces = u.namespaces → ∀ bytes,
        namespaces.serializer.serialize ns = .ok bytes →
          outcome = .ok id ∧ Stands u bytes b' id) := by
  obtain ⟨s, found, named⟩ := opened.state id rfl
  have conforms := opened.sound.states s (List.mem_of_getElem? found)
  have sound := opened.sound.setNamespace id namespaces.schema ns
  rw [perform_setNamespace found] at sound
  rw [Action.perform_bind, Action.perform_within]
  simp only [backendPart]
  rw [perform_setNamespace found]
  cases set : s.setNamespace namespaces.schema ns with
  | error e =>
      refine ⟨.error e, b₁, rfl, ⟨opened.sound, opened.context, opened.held, opened.trackable,
        by rintro _ ⟨⟩⟩, fun here same bytes written => ?_⟩
      obtain rfl : namespaces = s.namespaces :=
        same.trans (conforms.namespaces (named.trans here)).symm
      cases (NamedState.setNamespace_same written).symm.trans set
  | ok s' =>
      rw [set] at sound
      have inside := (List.getElem?_eq_some_iff.1 found).1
      have replaced : (b₁.states.set id s')[id]? = some s' := List.getElem?_set_self inside
      obtain ⟨bytes', rfl⟩ := NamedState.eq_of_setNamespace set
      refine ⟨.ok id, _, rfl, ⟨sound, opened.context, opened.held, opened.trackable, ?_⟩, ?_⟩
      · rintro _ ⟨⟩
        exact ⟨_, replaced, named⟩
      · intro here same bytes written
        obtain rfl : namespaces = s.namespaces :=
          same.trans (conforms.namespaces (named.trans here)).symm
        rw [NamedState.setNamespace_same written] at set
        have ns_eq := congrArg NamedState.ns (Except.ok.inj set)
        exact ⟨rfl, _, replaced, named.trans here, ns_eq.symm⟩

/-- Asking for the state of a descriptor in a namespace. Under the name in question a state in that
namespace is given, unless it is refused; it is not if the name is known, or has letters and is not
to be queried. -/
theorem Sound.getPartitioned (sound : b.Sound u)
    (describes : u.Describes b.execution.format d namespaces) (ns : namespaces.schema.Val) :
    ∃ outcome b' d', (Backend.getPartitioned namespaces ns).perform (b, d) = (outcome, b', d') ∧
      Opened u d.name b outcome b' ∧
      (d.name = u.name → ∀ bytes, namespaces.serializer.serialize ns = .ok bytes →
        (∀ id, outcome = .ok id → Stands u bytes b' id) ∧
        (b.names.states[d.name]?.isSome = true ∨ d.name ≠ "" ∧ d.queryable = none →
          ∃ id, outcome = .ok id)) := by
  rw [Backend.getPartitioned, Action.perform_bind_ok (Action.perform_get (b, d))]
  dsimp only
  cases recent : b.names.recent? d.name with
  | some id =>
      -- the state that was accessed last has the name
      have accessed := StateNames.accessed_of_recent recent
      obtain ⟨s, found, named⟩ := sound.named d.name id (.inr accessed)
      dsimp only
      cases checked : b.checkType id d namespaces.schema with
      | error e =>
          refine ⟨.error e, b, d, Action.perform_bind_error (Action.perform_lift _ _) _,
            sound.opened (by rintro _ ⟨⟩), fun here _ _ => ?_⟩
          cases (sound.checkType describes here found named).symm.trans checked
      | ok _ =>
          have opened : Opened u d.name b (.ok id) b := sound.opened (by
            rintro _ ⟨⟩
            exact ⟨s, found, named⟩)
          obtain ⟨outcome, b', performed, opened', stands⟩ := opened.partition ns d
          refine ⟨outcome, b', d, ?_, opened', fun here bytes written => ?_⟩
          · rw [Action.perform_bind_ok (Action.perform_lift _ _)]
            exact performed
          · obtain ⟨rfl, standing⟩ := stands here (describes.namespaces here) bytes written
            refine ⟨?_, fun _ => ⟨id, rfl⟩⟩
            rintro _ ⟨⟩
            exact standing
  | none =>
      dsimp only
      obtain ⟨outcome, b₁, d₁, performed, opened, succeeds⟩ := sound.getOrCreate describes
      cases outcome with
      | error e =>
          refine ⟨.error e, b₁, d₁, Action.perform_bind_error performed _, opened,
            fun here bytes written => ⟨by rintro _ ⟨⟩, fun known => ?_⟩⟩
          obtain ⟨_, same⟩ := succeeds here known
          cases same
      | ok id =>
          have promoted : Opened u d.name b (.ok id)
              { b₁ with names := b₁.names.promote d₁.name } :=
            ⟨opened.sound.promote d₁.name, opened.context, opened.held, opened.trackable,
              opened.state⟩
          obtain ⟨outcome, b', performed', opened', stands⟩ := promoted.partition ns d₁
          refine ⟨outcome, b', d₁, ?_, opened', fun here bytes written => ?_⟩
          · rw [Action.perform_bind_ok performed,
              Action.perform_bind_ok (Action.perform_modify _ _)]
            exact performed'
          · obtain ⟨rfl, standing⟩ := stands here (describes.namespaces here) bytes written
            refine ⟨?_, fun _ => ⟨id, rfl⟩⟩
            rintro _ ⟨⟩
            exact standing

end Backend

/-! ## How backends come to be -/

/-- An operation uses the name as it should: the name is opened with its one descriptor and its one
serializer of namespaces, and a call on its state that puts something in puts used values in, while
the current key is in the group that it is assigned to. -/
def Step.Proper (u : Usage keys) (b : Backend keys) : Step keys → Prop
  | create d namespaces => u.Describes b.execution.format d namespaces
  | getPartitioned d namespaces _ => u.Describes b.execution.format d namespaces
  | call id type c => ∀ s, b.states[id]? = some s → s.name = u.name → type.Puts c →
    type.Within u.used c ∧ b.context.Homed u
  | _ => True

namespace Backend

variable {u : Usage keys} {b : Backend keys}

/-- A backend over tables that uses the name as it should, as it is at some time. A key group is
restored from what one of these backends wrote, in any order of its tables and slots, and they may
share one storage. -/
inductive Reached (u : Usage keys) : Backend keys → Prop where
  | built {config : BackendConfig} {b : Backend keys} :
      b.IsNew config u.serializer → config.groups = u.groups → Reached u b
  | step {b : Backend keys} {s : Step keys} :
      Reached u b → s.Proper u b → Reached u (s.perform.perform b).2
  | queried {b : Backend keys} (id : StateId) (slot : SlotAddress) :
      Reached u b → Reached u ((serialized id slot).perform b).2
  | restored {b source : Backend keys} {h : HeapStorage} {g : KeyGroup} {s : KeyGroupSnapshot}
      {stream rest : Bytes} (g' : KeyGroup) :
      Reached u b → Reached u source → source.storage = .heap h → h.FitsMemory →
      (h.snapshot g).Reorders s →
      (b.compression.decode stream).bytes = KeyGroupSnapshot.codec.encode s ++ rest →
      Reached u ((readKeyGroup g' stream).perform b).2
  | shared {b b' : Backend keys} :
      Reached u b → Reached u b' → Reached u { b with storage := b'.storage }
  | disposed {b : Backend keys} : Reached u b → Reached u b.dispose
  | aside {b : Backend keys} (listeners : List ListenerId)
      (queries : Option (QueryService StateId)) (closeables : CloseableRegistry)
      (events : List (Event keys)) :
      Reached u b → Reached u { b with listeners, queries, closeables, events }

namespace Sound

theorem of_new {config : BackendConfig} (new : b.IsNew config u.serializer)
    (groups : config.groups = u.groups) : b.Sound u where
  context := by
    rw [new.context]
    exact ⟨groups, rfl, by rintro _ ⟨⟩⟩
  storage := ⟨_, new.storage, HeapStorage.legal_empty u⟩
  states s member := by
    rw [new.states] at member
    cases member
  named name id numbered := by
    rw [new.names] at numbered
    rcases numbered with listed | accessed
    · cases (ExtTreeMap.getElem?_empty (a := name)).symm.trans listed
    · cases accessed
  admits _ s member := by
    rw [new.states] at member
    cases member

/-- Every operation that uses the name as it should keeps the backend sound. -/
theorem step (sound : b.Sound u) (roundTrips : u.RoundTrips) {s : Step keys}
    (proper : s.Proper u b) : (s.perform.perform b).2.Sound u := by
  cases s with
  | setKey key =>
      exact ⟨⟨sound.context.groups, sound.context.serializer, by rintro _ ⟨⟩⟩, sound.storage,
        sound.states, sound.named, sound.admits⟩
  | setKeyAndGroup key g =>
      exact ⟨⟨sound.context.groups, sound.context.serializer, by rintro _ ⟨⟩⟩, sound.storage,
        sound.states, sound.named, sound.admits⟩
  | setGroup g =>
      exact ⟨⟨sound.context.groups, sound.context.serializer, sound.context.coherent⟩,
        sound.storage, sound.states, sound.named, sound.admits⟩
  | setClock now =>
      exact ⟨sound.context, sound.storage, sound.states, sound.named, sound.admits⟩
  | create d namespaces =>
      obtain ⟨outcome, b', d', performed, opened, -⟩ := sound.getOrCreate proper
      rw [Step.perform, Step.beside, Action.perform_of, performed]
      exact opened.sound
  | getPartitioned d namespaces ns =>
      obtain ⟨outcome, b', d', performed, opened, -⟩ := sound.getPartitioned proper ns
      rw [Step.perform, Step.beside, Action.perform_of, performed]
      exact opened.sound
  | setNamespace id schema ns => exact sound.setNamespace id schema ns
  | call id type c => exact sound.call roundTrips id proper

end Sound

/-- **What backends hold under the name is sound, however they came to be.** -/
theorem Reached.sound (reached : b.Reached u) (roundTrips : u.RoundTrips) : b.Sound u := by
  induction reached with
  | built new groups => exact .of_new new groups
  | step _ proper ih => exact ih.step roundTrips proper
  | queried id slot _ ih => exact ih.serialized id slot
  | restored g' _ _ held fits order unpacked ih ih' =>
      obtain ⟨h', held', legal⟩ := ih'.storage
      cases held.symm.trans held'
      exact ih.readKeyGroup legal fits order unpacked g'
  | shared _ _ ih ih' => exact ⟨ih.context, ih'.storage, ih.states, ih.named, ih.admits⟩
  | disposed _ ih =>
      refine ⟨ih.context, ih.storage, ih.states, fun name id numbered => ?_, ih.admits⟩
      rcases numbered with listed | accessed
      · cases (ExtTreeMap.getElem?_empty (a := name)).symm.trans listed
      · cases accessed
  | aside listeners queries closeables events _ ih =>
      exact ⟨ih.context, ih.storage, ih.states, ih.named, ih.admits⟩

end Backend

end KeyedState
