import KeyedState.Proofs.Backend.Reached
import KeyedState.Proofs.Backend.Sequences

/-!
# Enumerating keys

A backend lists the keys that hold something under a name and a namespace (`Backend.keysOf`) from
the slots of its table, and a state of the name tells by its type whether something is present under
the current key (`StateType.probe`). Where the name is used as it should be, both agree: exactly the
keys at which the state shows something are listed, each of them once, and in the order of their
groups and then of their serialized forms. An iteration (`Backend.applyToAllKeys`) calls a function
that does not fail for just these keys, whatever the function does (`enumeration_is_exact`).

A probe is a sampled access to the state. So it ends in the fault that `Backend.Trackable` excludes,
instead of telling anything, if the history that a sample goes into cannot be set up.
-/

namespace KeyedState

variable {keys : Schema}

/-! ## The keys that a storage lists -/

namespace HeapStorage

variable {h : HeapStorage} {name : String}

/-- The keys that hold something under a name and a namespace, each with its key group. -/
def holders (h : HeapStorage) (name : String) (ns : Bytes) : List (KeyGroup × Bytes) :=
  match h.tables[name]? with
  | none => []
  | some table => table.holders ns

theorem keys_eq (h : HeapStorage) (name : String) (ns : Bytes) :
    h.keys name ns = (h.holders name ns).map Prod.snd := by
  rw [keys, holders]
  cases h.tables[name]? with
  | none => rfl
  | some table => exact table.keys_eq ns

theorem pairwise_holders (h : HeapStorage) (name : String) (ns : Bytes) :
    (h.holders name ns).Pairwise Precedes := by
  rw [holders]
  cases h.tables[name]? with
  | none => exact .nil
  | some table => exact table.pairwise_holders ns

theorem Pruned.mem_holders (pruned : h.Pruned) {ns key : Bytes} {g : KeyGroup} :
    (g, key) ∈ h.holders name ns ↔ (h.contents name g).slot key ns ≠ .empty := by
  rw [holders]
  cases found : h.tables[name]? with
  | none =>
      rw [contents_of_none found, GroupContents.slot_empty]
      exact iff_of_false List.not_mem_nil fun holds => holds rfl
  | some table =>
      rw [contents_of_getElem? found]
      exact (pruned name table found).mem_holders.trans (by rw [Table.slot_eq])

end HeapStorage

/-! ## The keys that are listed -/

namespace Usage

variable (u : Usage keys)

/-- Where a key that can be written is found: in its group, under its serialized form. -/
def placeOf (key : keys.Val) : KeyGroup × Bytes :=
  (u.groupOf key, (u.serializer.serialize key).toOption.getD [])

/-- A key comes before another one: its group does, or its serialized form in the same group. -/
def Before (key key' : keys.Val) : Prop := Precedes (u.placeOf key) (u.placeOf key')

variable {u}

theorem placeOf_of_writes {key : keys.Val} {bytes : Bytes}
    (written : u.serializer.Writes (u.used keys) key bytes) :
    u.placeOf key = (u.groupOf key, bytes) := by
  rw [placeOf, written.2]
  rfl

/-- What belongs to keys is found where they are. -/
theorem exists_placed {places : List (KeyGroup × Bytes)}
    (located : ∀ x ∈ places, u.Locates x.1 x.2) :
    ∃ listed : List keys.Val, listed.map u.placeOf = places ∧
      ∀ key ∈ listed, ∃ bytes, u.serializer.Writes (u.used keys) key bytes := by
  induction places with
  | nil => exact ⟨[], rfl, by simp⟩
  | cons x rest ih =>
      obtain ⟨key, written, group⟩ := located x List.mem_cons_self
      obtain ⟨listed, rfl, each⟩ := ih fun y member => located y (List.mem_cons_of_mem x member)
      refine ⟨key :: listed, ?_, List.forall_mem_cons.2 ⟨⟨x.2, written⟩, each⟩⟩
      rw [List.map_cons, placeOf_of_writes written, ← group]

end Usage

namespace KeyContext.Fits

variable {u : Usage keys} {c : KeyContext keys}

theorem group_setKey (fits : c.Fits u) (key : keys.Val) :
    (c.setKey key).group = some (u.groupOf key) := by
  simp only [setKey, setKeyAndGroup, KeyContext.groupOf, Usage.groupOf, fits.groups]

theorem serialize_setKey (fits : c.Fits u) (key : keys.Val) :
    (c.setKey key).serialize = u.serializer.serialize key := by
  simp only [setKey, setKeyAndGroup, serialize, fits.serializer]

end KeyContext.Fits

namespace Backend

variable {u : Usage keys} {b : Backend keys}

/-- The keys that hold something under the name in a namespace are enumerated: they are used keys,
in order, and each of them is listed once. -/
structure Enumerates (u : Usage keys) (b : Backend keys) (ns : u.namespaces.schema.Val)
    (listed : List keys.Val) : Prop where
  listing : (keysOf u.name u.namespaces ns).perform b = (.ok (listed.map .ok), b)
  nodup : listed.Nodup
  ordered : listed.Pairwise u.Before
  written : ∀ key ∈ listed, ∃ bytes, u.serializer.Writes (u.used keys) key bytes

/-- The stored keys are read back when they are listed. -/
theorem Sound.perform_keysOf (sound : b.Sound u) {h : HeapStorage} (held : b.storage = .heap h)
    {ns : u.namespaces.schema.Val} {bytes : Bytes}
    (written : u.namespaces.serializer.serialize ns = .ok bytes) :
    (keysOf u.name u.namespaces ns).perform b =
      (.ok ((h.keys u.name bytes).map u.serializer.deserialize), b) := by
  have listing : (sequenceOf u.name u.namespaces ns).perform b =
      (.ok ⟨(h.keys u.name bytes).map u.serializer.deserialize, none⟩, b) := by
    rw [perform_sequenceOf sound.context.serializer written, held]
    simp only [Storage.handOut, Action.perform_of, Except.map, KeySequence.bind, List.map_map]
    rw [← held]
    rfl
  exact Backend.perform_keysOf listing

/-- The keys that are listed are those whose slots hold something. -/
theorem Sound.exists_enumerates (sound : b.Sound u) (roundTrips : u.RoundTrips)
    {ns : u.namespaces.schema.Val} {bytes : Bytes}
    (written : u.namespaces.serializer.serialize ns = .ok bytes) :
    ∃ listed, b.Enumerates u ns listed ∧
      ∀ key name, u.serializer.Writes (u.used keys) key name →
        (key ∈ listed ↔ (b.held u.name (u.groupOf key)).slot name bytes ≠ .empty) := by
  obtain ⟨h, held, legal⟩ := sound.storage
  have located : ∀ x ∈ h.holders u.name bytes, u.Locates x.1 x.2 := fun x member =>
    (legal.allowed x.1 x.2 bytes).located (legal.pruned.mem_holders.1 member)
  obtain ⟨listed, placed, each⟩ := Usage.exists_placed located
  have ordered : listed.Pairwise u.Before := by
    have pairwise := h.pairwise_holders u.name bytes
    rwa [← placed, List.pairwise_map] at pairwise
  refine ⟨listed, ⟨?_, ordered.imp ?_, ordered, each⟩, fun key name hkey => ?_⟩
  · rw [sound.perform_keysOf held written, HeapStorage.keys_eq, ← placed, List.map_map,
      List.map_map]
    congr 2
    refine List.map_congr_left fun key member => ?_
    obtain ⟨name, hkey⟩ := each key member
    show u.serializer.deserialize (u.placeOf key).2 = .ok key
    rw [Usage.placeOf_of_writes hkey, (roundTrips.key key name hkey).1]
  · rintro key _ before rfl
    exact before.ne rfl
  · rw [held_eq held, ← legal.pruned.mem_holders, ← placed, ← Usage.placeOf_of_writes hkey]
    refine ⟨List.mem_map_of_mem, fun member => ?_⟩
    obtain ⟨key', member', same⟩ := List.mem_map.1 member
    obtain ⟨name', hkey'⟩ := each key' member'
    rw [Usage.placeOf_of_writes hkey, Usage.placeOf_of_writes hkey'] at same
    cases (Prod.mk.inj same).2
    exact roundTrips.key.inj hkey' hkey ▸ member'

/-! ## What the state shows -/

/-- The state tells by its type whether its slot of a key holds something. -/
theorem Sound.perform_probe (sound : b.Sound u) (roundTrips : u.RoundTrips) {ns : Bytes}
    {id : StateId} (stands : Stands u ns b id) {key : keys.Val} {name : Bytes}
    (written : u.serializer.Writes (u.used keys) key name)
    (room : ((b.held u.name (u.groupOf key)).slot name ns).FitsMemory) :
    Tells ((Backend.call id u.spec.type u.spec.type.probe).perform (b.setKey key)).1
      u.spec.type.Shows ((b.held u.name (u.groupOf key)).slot name ns ≠ .empty)
      (¬ b.Trackable) := by
  obtain ⟨s, found, named, current⟩ := stands
  obtain ⟨h, held, legal⟩ := sound.storage
  have conforms := sound.states s (List.mem_of_getElem? found)
  have spec : s.spec = u.spec := conforms.spec named
  have slot : (b.tableOf s).slot ⟨u.groupOf key, name, ns⟩ =
      (b.held u.name (u.groupOf key)).slot name ns := by
    rw [slot_tableOf held conforms.shared, named]
  have stored : s.spec.Legal u.used ((b.tableOf s).slot ⟨u.groupOf key, name, ns⟩) := by
    rw [slot, spec, held_eq held]
    exact (legal.allowed _ name ns).legal
  have serialized : (b.setKey key).context.serialize = .ok name :=
    (sound.context.serialize_setKey key).trans written.2
  rw [← slot] at room ⊢
  rw [← spec, Backend.call, Action.perform_bind_ok (Action.perform_get _),
    perform_onState (b := b.setKey key) found conforms.shared _ rfl]
  have told := NamedState.perform_probe ⟨(b.setKey key).context, b.tableOf s, s.tracker⟩
    (spec ▸ roundTrips.spec) (conforms.plain named) (by rintro _ ⟨⟩)
    (sound.context.group_setKey key) serialized current stored room ((b.setKey key).conditions s)
  exact told.weaken fun refused trackable =>
    refused (sound.admits trackable s (List.mem_of_getElem? found)).conditions

end Backend

/-! ## Iterations -/

/-- One call of the function of an iteration: the key is made current. -/
def KeyFunction.called {α : Type} (f : KeyFunction keys α) (id : StateId) (key : keys.Val) :
    StateM (Backend keys) α := do
  modify fun b => b.setKey key
  let (a, _) ← f key id
  return a

/-- The function never fails. -/
def KeyFunction.Succeeds {α : Type} (f : KeyFunction keys α) : Prop :=
  ∀ key id b, ((f key id).run b).1.2 = .ok ()

namespace Backend

variable {α : Type} {b : Backend keys} {f : KeyFunction keys α}

/-- A function that never fails is called for each key, behind the calls that were made before. -/
theorem run_visit (succeeds : f.Succeeds) (id : StateId) (listed : List keys.Val) (done : List α)
    (b : Backend keys) :
    (visit f id (listed.map .ok) done).run b =
      (⟨done.reverse ++ ((listed.mapM (f.called id)).run b).1, .ok ()⟩,
        ((listed.mapM (f.called id)).run b).2) := by
  induction listed generalizing done b with
  | nil =>
    show (Iteration.mk done.reverse (.ok ()), b) = (⟨done.reverse ++ [], .ok ()⟩, b)
    rw [List.append_nil]
  | cons key rest ih =>
    have ok := succeeds key id (b.setKey key)
    rcases called : (f key id).run (b.setKey key) with ⟨⟨a, outcome⟩, b'⟩
    rw [called] at ok
    obtain rfl : outcome = .ok () := ok
    have first : (f.called id key).run b = (a, b') := by
      show (Prod.fst ((f key id).run (b.setKey key)).1, ((f key id).run (b.setKey key)).2) = _
      rw [called]
    have visited : (visit f id ((key :: rest).map .ok) done).run b =
        (visit f id (rest.map .ok) (a :: done)).run b' := by
      rw [List.map_cons, visit]
      simp only [StateT.run_bind, StateT.run_modify, pure_bind]
      rw [called]
      rfl
    have mapped : ((key :: rest).mapM (f.called id)).run b =
        (a :: ((rest.mapM (f.called id)).run b').1, ((rest.mapM (f.called id)).run b').2) := by
      rw [List.mapM_cons, StateT.run_bind, first]
      rfl
    rw [visited, ih, mapped, List.reverse_cons, List.append_assoc]
    rfl

/-- Over a heap nothing has to be given back behind the function. -/
theorem run_applyToAllKeys_heap {h : HeapStorage} (held : b.storage = .heap h)
    {namespaces : NamespaceType} {ns : namespaces.schema.Val} {d : Descriptor}
    {found : List (Except StateError keys.Val)} {b' : Backend keys}
    (listing : (keysOf d.name namespaces ns).perform b = (.ok found, b')) (f : KeyFunction keys α) :
    (applyToAllKeys namespaces ns f).run (b, d) =
      match (getPartitioned namespaces ns).perform (b, d) with
      | (.error e, s) => (⟨[], .error e⟩, s)
      | (.ok id, b', d') =>
        (((visit f id found []).run b').1, ((visit f id found []).run b').2, d') := by
  rw [run_applyToAllKeys (perform_sequenceOf_of_keysOf held listing), run_visitAll]
  rfl

end Backend

/-- **Keys are enumerated exactly, and worked through exactly.** In a namespace that can be written,
the listed keys are those at which a state of the name, in that namespace, shows that something is
present. An iteration calls a function that never fails for the listed keys in turn, from where the
state was opened. If the state is not opened, which only happens if it is not known and has no name
or is to be queried, the function is not called. -/
theorem enumeration_is_exact {u : Usage keys} (roundTrips : u.RoundTrips) {b : Backend keys}
    (reached : b.Reached u) (fits : b.storage.FitsMemory) {ns : u.namespaces.schema.Val}
    {bytes : Bytes} (written : u.namespaces.serializer.serialize ns = .ok bytes) :
    ∃ listed, b.Enumerates u ns listed ∧
      ∀ d : Descriptor, d.name = u.name → u.Describes b.execution.format d u.namespaces →
        ∃ outcome b' d',
          (Backend.getPartitioned u.namespaces ns).perform (b, d) = (outcome, b', d') ∧
          (b.names.states[u.name]?.isSome = true ∨ u.name ≠ "" ∧ d.queryable = none →
            ∃ id, outcome = .ok id) ∧
          (∀ e, outcome = .error e → ∀ (α : Type) (f : KeyFunction keys α),
            (Backend.applyToAllKeys u.namespaces ns f).run (b, d) = (⟨[], .error e⟩, b', d')) ∧
          ∀ id, outcome = .ok id →
            (∀ key name, u.serializer.Writes (u.used keys) key name →
              Tells ((Backend.call id u.spec.type u.spec.type.probe).perform (b'.setKey key)).1
                u.spec.type.Shows (key ∈ listed) (¬ b.Trackable)) ∧
            ∀ (α : Type) (f : KeyFunction keys α), f.Succeeds →
              (Backend.applyToAllKeys u.namespaces ns f).run (b, d) =
                (⟨((listed.mapM (f.called id)).run b').1, .ok ()⟩,
                  ((listed.mapM (f.called id)).run b').2, d') := by
  have sound := reached.sound roundTrips
  obtain ⟨h, held, legal⟩ := sound.storage
  obtain ⟨listed, enumerates, listed_iff⟩ := sound.exists_enumerates roundTrips written
  refine ⟨listed, enumerates, fun d here describes => ?_⟩
  obtain ⟨outcome, b', d', performed, opened, stands⟩ := sound.getPartitioned describes ns
  obtain ⟨stands, succeeds⟩ := stands here bytes written
  rw [here] at succeeds
  have listing : (Backend.keysOf d.name u.namespaces ns).perform b = _ := here ▸ enumerates.listing
  refine ⟨outcome, b', d', performed, succeeds, ?_, ?_⟩
  · rintro e rfl α f
    rw [Backend.run_applyToAllKeys_heap held listing, performed]
  · rintro id rfl
    refine ⟨fun key name hkey => ?_, fun α f ok => ?_⟩
    · have room : ((b'.held u.name (u.groupOf key)).slot name bytes).FitsMemory := by
        rw [opened.held, Backend.held_eq held]
        rw [held] at fits
        exact (HeapStorage.FitsMemory.contents fits u.name _).slot name bytes
      have told := opened.sound.perform_probe roundTrips (stands id rfl) hkey room
      rw [opened.held, ← listed_iff key name hkey] at told
      exact told.weaken fun refused trackable => refused (opened.trackable trackable)
    · rw [Backend.run_applyToAllKeys_heap held listing, performed]
      dsimp only
      rw [Backend.run_visit ok]
      rfl

/-- Counts by text keys, in one namespace. -/
def Usage.counts : Usage .string where
  groups := 4
  serializer := .binary .string
  name := "count"
  spec := .value .i64 (.binary .i64)
  namespaces := ⟨.unit, .binary .unit⟩
  used := Schema.Storable

theorem Usage.roundTrips_counts : counts.RoundTrips where
  key := (Serializer.faithful_binary .string).roundTrips
  spec := (Serializer.faithful_binary .i64).roundTrips

theorem Backend.isNew_plain {m : UInt32} {r : KeyGroupRange} (positive : ¬ m = 0)
    (room : ¬ m < r.count) :
    (plain m r).IsNew ⟨m, r, .initial, .initial, .initial⟩ (.binary .string) where
  built := by
    refine ⟨false, ?_⟩
    simp only [BackendCore.build, if_neg positive, if_neg room]
    rfl
  storage := rfl
  states := rfl
  metrics := by rintro m ⟨⟩

/-- One key was counted once. It is listed, its count is there, and a function is called for it. -/
theorem enumeration_is_exact_countOnce :
    let b := Step.run Step.countOnce (.plain 4 ⟨0, 3⟩)
    let d : Descriptor := ⟨"count", .initial, none, .value .i64 none⟩
    b.Enumerates .counts () ["k"] ∧
      ∃ id b' d', (Backend.getPartitioned ⟨.unit, .binary .unit⟩ ()).perform (b, d) =
          (.ok id, b', d') ∧
        (∃ count : Option (BitVec 64), count.isSome = true ∧
          ((Backend.call id (.value .i64) ValueCall.get).perform (b'.setKey "k")).1 = .ok count) ∧
        ∀ (α : Type) (f : KeyFunction .string α), f.Succeeds →
          (Backend.applyToAllKeys ⟨.unit, .binary .unit⟩ () f).run (b, d) =
            (⟨[((f.called id "k").run b').1], .ok ()⟩, ((f.called id "k").run b').2, d') := by
  intro b d
  have key : Schema.Storable .string "k" := by
    constructor
    · show _ < _
      decide
    · decide
  have value : Schema.Storable .i64 (1 : BitVec 64) := ⟨trivial, by decide⟩
  have describes : Usage.counts.Describes .binary d ⟨.unit, .binary .unit⟩ :=
    ⟨fun _ => rfl, fun _ => rfl, fun _ => rfl⟩
  have new : (Backend.plain 4 ⟨0, 3⟩).Reached .counts :=
    .built (Backend.isNew_plain (by decide) (by decide)) rfl
  have opened := new.step (s := .getPartitioned d ⟨.unit, .binary .unit⟩ ()) describes
  have selected := opened.step (s := .setKey "k") trivial
  have reached : b.Reached .counts := by
    refine selected.step (s := .call 0 (.value .i64) (.set (1 : BitVec 64))) ?_
    intro _ _ _ _
    refine ⟨value, ?_⟩
    rintro _ _ ⟨⟩ ⟨⟩
    have groups := (opened.sound Usage.roundTrips_counts).context.groups
    exact ⟨key, congrArg (KeyGroup.assign _) groups⟩
  have fits : b.storage.FitsMemory := by decide +kernel
  have written : Usage.counts.namespaces.serializer.serialize () = .ok [] := rfl
  obtain ⟨listed, enumerates, works⟩ :=
    enumeration_is_exact Usage.roundTrips_counts reached fits written
  have listing : ((Backend.keysOf "count" ⟨.unit, .binary .unit⟩ ()).perform b).1 =
      .ok [.ok "k"] := by
    decide +kernel
  obtain rfl : listed = ["k"] := by
    have same := listing.symm.trans (congrArg Prod.fst enumerates.listing)
    exact (List.map_injective_iff.2 fun _ _ => Except.ok.inj) (Except.ok.inj same.symm)
  obtain ⟨outcome, b', d', performed, known, -, exact⟩ := works d rfl describes
  obtain ⟨id, rfl⟩ := known (.inr ⟨by decide, rfl⟩)
  obtain ⟨tells, applied⟩ := exact id rfl
  refine ⟨enumerates, id, b', d', performed, ?_, applied⟩
  rcases tells "k" _ ⟨key, rfl⟩ with ⟨count, read, shown⟩ | ⟨untrackable, -⟩
  · exact ⟨count, shown.2 List.mem_cons_self, read⟩
  · exact absurd (by rintro m ⟨⟩) untrackable

end KeyedState
