import KeyedState.Proofs.Backend.Work

/-!
# Names and handles

A state is asked for by its descriptor, with or without a namespace (`Backend.Provides`), or by an
iteration. The state that was accessed last is remembered beside the other ones, so a name is looked
up in two places, and each of them checks the type and sets the namespace on its own. After every
run both places agree: until the backend is disposed of, a name has one handle, whichever way it is
asked for, and asking for it at another type changes nothing. After that the name gets a new handle
over what is still stored (`names_keep_their_handles`).
-/

namespace KeyedState

open Std (ExtTreeMap)

variable {keys : Schema}

/-! ## Namespaces of handles -/

/-- The current namespace is the given one, in the form in which the state writes it. -/
def NamedState.StandsIn (s : NamedState) (schema : Schema) (ns : schema.Val) : Prop :=
  ∃ same : schema = s.namespaces.schema,
    s.namespaces.serializer.serialize (same ▸ ns) = .ok (s.ns.getD []) ∧ s.ns.isSome = true

instance (s : NamedState) (schema : Schema) (ns : schema.Val) : Decidable (s.StandsIn schema ns) :=
  inferInstanceAs (Decidable (∃ same : schema = s.namespaces.schema,
    s.namespaces.serializer.serialize (same ▸ ns) = .ok (s.ns.getD []) ∧ s.ns.isSome = true))

/-- The state of a descriptor: it is written as the descriptor says, with open serializers in the
given format. -/
structure NamedState.MadeOf (s : NamedState) (d : Descriptor) (namespaces : NamespaceType)
    (format : SerializerFormat) : Prop where
  name : s.name = d.name
  spec : s.spec = d.spec.settled format
  namespaces : s.namespaces = namespaces
  ttl : s.ttl = d.ttl

namespace NamedState

variable {s s' : NamedState} {schema : Schema} {ns : schema.Val}

/-- A namespace that was set is the current one. -/
theorem standsIn_of_setNamespace (named : s.setNamespace schema ns = .ok s') :
    s'.StandsIn schema ns := by
  obtain ⟨same, bytes, written, rfl⟩ := exists_of_setNamespace named
  exact ⟨same, written, rfl⟩

end NamedState

namespace Backend

/-! ## Asking for a state -/

/-- Asking for the state of a descriptor, without a namespace or with one, gives a handle. -/
inductive Provides (d : Descriptor) (namespaces : NamespaceType) (b : Backend keys) (id : StateId)
    (b' : Backend keys) : Prop
  | found {d' : Descriptor} (performed : (getOrCreate namespaces).perform (b, d) = (.ok id, b', d'))
  | partitioned {d' : Descriptor} (ns : namespaces.schema.Val)
      (performed : (getPartitioned namespaces ns).perform (b, d) = (.ok id, b', d'))

variable {b b' : Backend keys} {d : Descriptor} {namespaces : NamespaceType} {id : StateId}

/-- Setting the namespace of a handle leaves names and tables as they are. -/
theorem setNamespace_eq_ok {schema : Schema} {ns : schema.Val}
    (performed : (setNamespace id schema ns).perform b = (.ok (), b')) :
    ∃ s s', b.states[id]? = some s ∧ s.setNamespace schema ns = .ok s' ∧
      b' = { b with states := b.states.set id s' } := by
  cases found : b.states[id]? with
  | none =>
      rw [setNamespace, Action.perform_bind_ok (Action.perform_get b), state, found] at performed
      cases performed
  | some s =>
      rw [perform_setNamespace found] at performed
      cases named : s.setNamespace schema ns with
      | error e => rw [named] at performed; cases performed
      | ok s' =>
          rw [named] at performed
          cases performed
          exact ⟨s, s', rfl, named, rfl⟩

/-- A state is given with a namespace once it was found, in either of two places, and its namespace
was set. -/
theorem getPartitioned_eq_ok {ns : namespaces.schema.Val} {d' : Descriptor}
    (performed : (getPartitioned namespaces ns).perform (b, d) = (.ok id, b', d')) :
    ∃ b₁, ((b₁ = b ∧ b.names.recent? d.name = some id ∧
          b.checkType id d namespaces.schema = .ok ()) ∨
        ∃ b₀, (getOrCreate namespaces).perform (b, d) = (.ok id, b₀, d') ∧
          b₁ = { b₀ with names := b₀.names.promote d'.name }) ∧
      (setNamespace id namespaces.schema ns).perform b₁ = (.ok (), b') := by
  -- wherever the state was found, its namespace is set last
  have inner : ∀ {id' : StateId} {b₁ : Backend keys} {d₁ : Descriptor},
      (((setNamespace id' namespaces.schema ns).perform b₁).1.map fun _ => id',
        ((setNamespace id' namespaces.schema ns).perform b₁).2, d₁) = (.ok id, b', d') →
      id' = id ∧ d₁ = d' ∧ (setNamespace id namespaces.schema ns).perform b₁ = (.ok (), b') := by
    intro id' b₁ d₁ same
    rcases named : (setNamespace id' namespaces.schema ns).perform b₁ with ⟨_ | _, b₂⟩
    · rw [named] at same
      cases same
    · rw [named] at same
      cases same
      exact ⟨rfl, rfl, named⟩
  rw [perform_getPartitioned_eq] at performed
  cases recent : b.names.recent? d.name with
  | some id' =>
      rw [recent] at performed
      dsimp only at performed
      cases checked : b.checkType id' d namespaces.schema with
      | error e => rw [checked] at performed; cases performed
      | ok _ =>
          rw [checked] at performed
          obtain ⟨rfl, rfl, named⟩ := inner performed
          exact ⟨b, .inl ⟨rfl, rfl, checked⟩, named⟩
  | none =>
      rw [recent] at performed
      dsimp only at performed
      rcases opened : (getOrCreate namespaces).perform (b, d) with ⟨e | id', b₀, d₀⟩
      · rw [opened] at performed
        cases performed
      · rw [opened] at performed
        obtain ⟨rfl, rfl, named⟩ := inner performed
        exact ⟨_, .inr ⟨b₀, rfl, rfl⟩, named⟩

/-- A state that is found or created is the one of its name. If the name had none it is a new one,
made of the descriptor, and what the backend holds stays the same. -/
theorem getOrCreate_eq_ok {d' : Descriptor}
    (performed : (getOrCreate namespaces).perform (b, d) = (.ok id, b', d')) :
    d'.name = d.name ∧
      (b.names.states[d.name]? = some id ∧ b' = b ∨
        b.names.states[d.name]? = none ∧ id = b.states.length ∧
          b'.names = b.names.insert d.name id ∧
          (∃ s, b'.states[id]? = some s ∧ s.MadeOf d namespaces b.execution.format ∧
            ((∃ h, b.storage = .heap h) → s.place = .shared)) ∧
          ∀ h, b.storage = .heap h → ∃ h', b'.storage = .heap h' ∧
            ∀ name g, h'.contents name g = h.contents name g) := by
  cases known : b.names.states[d.name]? with
  | some id' =>
      rw [perform_getOrCreate_known namespaces known] at performed
      cases checked : b.checkType id' d namespaces.schema with
      | error e => rw [checked] at performed; cases performed
      | ok _ =>
          rw [checked] at performed
          cases performed
          exact ⟨rfl, .inl ⟨rfl, rfl⟩⟩
  | none =>
      obtain ⟨storage, queries, metrics, d₁, same, -, heap, -, created⟩ :=
        perform_createState_cases namespaces b d
      rw [perform_getOrCreate_unknown namespaces known] at performed
      rcases created with ⟨e, created⟩ | ⟨place, shared, created⟩
      · rw [created] at performed
        cases performed
      · rw [created] at performed
        cases performed
        refine ⟨same, .inr ⟨rfl, rfl, rfl, ⟨_, List.getElem?_concat_length, ?_, shared⟩, heap⟩⟩
        exact ⟨rfl, rfl, rfl, rfl⟩

namespace Provides

/-- Asking for a state is one operation. -/
theorem acts {disposes : Prop} (provides : Provides d namespaces b id b') : Acts disposes b b' := by
  cases provides with
  | found performed =>
      have step : Acts disposes b _ := .step b (.create d namespaces)
      rwa [Step.perform, Step.perform_beside, performed] at step
  | partitioned ns performed =>
      have step : Acts disposes b _ := .step b (.getPartitioned d namespaces ns)
      rwa [Step.perform, Step.perform_beside, performed] at step

theorem follows (provides : Provides d namespaces b id b') (orderly : b.Orderly) :
    Follows False b b' :=
  ((Works.done b).act provides.acts).follows orderly

/-- The handle that is given is the one of the name. -/
theorem registered (provides : Provides d namespaces b id b') (orderly : b.Orderly) :
    b'.names.states[d.name]? = some id := by
  have listed : ∀ {b₀ : Backend keys} {d' : Descriptor},
      (getOrCreate namespaces).perform (b, d) = (.ok id, b₀, d') →
        b₀.names.states[d.name]? = some id := by
    intro b₀ d' performed
    rcases (getOrCreate_eq_ok performed).2 with ⟨known, rfl⟩ | ⟨-, -, names, -⟩
    · exact known
    · rw [names]
      exact ExtTreeMap.getElem?_insert_self
  cases provides with
  | found performed => exact listed performed
  | partitioned ns performed =>
      obtain ⟨b₁, opened, named⟩ := getPartitioned_eq_ok performed
      obtain ⟨s, s', -, -, rfl⟩ := setNamespace_eq_ok named
      -- what was accessed last is listed, and accessing a state lists no other one
      rcases opened with ⟨rfl, recent, -⟩ | ⟨b₀, performed', rfl⟩
      · exact orderly.cached d.name id (StateNames.accessed_of_recent recent)
      · have known := listed performed'
        exact known

/-- A name that has a state is given that one. -/
theorem eq_of_known (provides : Provides d namespaces b id b') (orderly : b.Orderly) {id' : StateId}
    (known : b.names.states[d.name]? = some id') : id = id' := by
  have listed : ∀ {b₀ : Backend keys} {d' : Descriptor},
      (getOrCreate namespaces).perform (b, d) = (.ok id, b₀, d') → id = id' := by
    intro b₀ d' performed
    rcases (getOrCreate_eq_ok performed).2 with ⟨known', -⟩ | ⟨unknown, -⟩
    · exact Option.some.inj (known'.symm.trans known)
    · cases unknown.symm.trans known
  cases provides with
  | found performed => exact listed performed
  | partitioned ns performed =>
      obtain ⟨b₁, opened, -⟩ := getPartitioned_eq_ok performed
      rcases opened with ⟨-, recent, -⟩ | ⟨b₀, performed', -⟩
      · have cached := orderly.cached d.name id (StateNames.accessed_of_recent recent)
        exact Option.some.inj (cached.symm.trans known)
      · exact listed performed'

/-- A name that has no state is given a new one, made of the descriptor; what the backend holds
stays the same. -/
theorem of_unknown (provides : Provides d namespaces b id b') (orderly : b.Orderly)
    (unknown : b.names.states[d.name]? = none) :
    id = b.states.length ∧
      (∃ s, b'.states[id]? = some s ∧ s.MadeOf d namespaces b.execution.format ∧
        ((∃ h, b.storage = .heap h) → s.place = .shared)) ∧
      ∀ h, b.storage = .heap h → ∃ h', b'.storage = .heap h' ∧
        ∀ name g, h'.contents name g = h.contents name g := by
  cases provides with
  | found performed =>
      rcases (getOrCreate_eq_ok performed).2 with ⟨known, -⟩ | ⟨-, rfl, -, made, heap⟩
      · cases unknown.symm.trans known
      · exact ⟨rfl, made, heap⟩
  | partitioned ns performed =>
      obtain ⟨b₁, opened, named⟩ := getPartitioned_eq_ok performed
      obtain ⟨s, s', found, set, rfl⟩ := setNamespace_eq_ok named
      rcases opened with ⟨-, recent, -⟩ | ⟨b₀, performed', rfl⟩
      · have cached := orderly.cached d.name id (StateNames.accessed_of_recent recent)
        cases unknown.symm.trans cached
      · rcases (getOrCreate_eq_ok performed').2 with
          ⟨known, -⟩ | ⟨-, rfl, -, ⟨s₀, found₀, made, shared⟩, heap⟩
        · cases unknown.symm.trans known
        · obtain ⟨bytes, rfl⟩ := NamedState.eq_of_setNamespace set
          cases Option.some.inj (found₀.symm.trans found)
          have inside := (List.getElem?_eq_some_iff.1 found).1
          exact ⟨rfl, ⟨_, List.getElem?_set_self inside,
            ⟨made.name, made.spec, made.namespaces, made.ttl⟩, shared⟩, heap⟩

end Provides

/-! ## Names keep their handles -/

/-- How a backend keeps its named states. -/
structure KeepsHandles (b : Backend keys) : Prop where
  /-- The state that was accessed last is the one of its name. -/
  cached : ∀ (name : String) (id : StateId), b.names.lastAccessed = some (name, id) →
    b.names.states[name]? = some id
  /-- A name is given one handle, whatever happens in between, as long as the backend is not
  disposed of. -/
  same : ∀ {d d' : Descriptor} {namespaces namespaces' : NamespaceType} {id id' : StateId}
    {b₁ b₂ b₃ : Backend keys}, Provides d namespaces b id b₁ → Works False b₁ b₂ →
      Provides d' namespaces' b₂ id' b₃ → d'.name = d.name → id' = id
  /-- A known name is refused at another type, and nothing changes. -/
  mismatched : ∀ {d : Descriptor} {namespaces : NamespaceType} {id : StateId} {s : NamedState},
    b.names.states[d.name]? = some id → b.states[id]? = some s →
      s.isOf d.type namespaces.schema = false →
        (getOrCreate namespaces).perform (b, d) = (.error (.typeMismatch d.name), b, d) ∧
          ∀ ns, (getPartitioned namespaces ns).perform (b, d) =
            (.error (.typeMismatch d.name), b, d)
  /-- A handle that is given with a namespace stands in it. -/
  partitioned : ∀ {d d' : Descriptor} {namespaces : NamespaceType} {ns : namespaces.schema.Val}
    {id : StateId} {b' : Backend keys},
      (getPartitioned namespaces ns).perform (b, d) = (.ok id, b', d') →
        ∃ s, b'.states[id]? = some s ∧ s.name = d.name ∧ s.StandsIn namespaces.schema ns
  /-- An iteration asks for the state with its namespace, and calls its function with what it is
  given. -/
  iterated : ∀ {α : Type} (f : KeyFunction keys α) (d : Descriptor) (namespaces : NamespaceType)
    (ns : namespaces.schema.Val),
      (∃ e s, (applyToAllKeys namespaces ns f).run (b, d) = (⟨[], .error e⟩, s)) ∨
        ∃ id b' d' found, (getPartitioned namespaces ns).perform (b, d) = (.ok id, b', d') ∧
          (applyToAllKeys namespaces ns f).run (b, d) =
            (((visit f id found []).run b').1, ((visit f id found []).run b').2, d')
  /-- Disposing of the backend leaves it without named states. Whatever is given after that is a new
  handle. -/
  disposed : b.dispose.names = .empty ∧ (∀ name g, b.dispose.held name g = b.held name g) ∧
    ∀ {d : Descriptor} {namespaces : NamespaceType} {id : StateId} {b₁ b₂ : Backend keys},
      Works True b.dispose b₁ → Provides d namespaces b₁ id b₂ → b.states[id]? = none
  /-- A handle that is new is made of its descriptor, over what is held under its name. -/
  made : ∀ {d : Descriptor} {namespaces : NamespaceType} {id : StateId} {b' : Backend keys},
    b.names.states[d.name]? = none → Provides d namespaces b id b' →
      (∃ s, b'.states[id]? = some s ∧ s.MadeOf d namespaces b.execution.format ∧
        ∀ a, (b'.tableOf s).slot a = (b.held d.name a.group).slot a.key a.ns) ∧
      ∀ name g, b'.held name g = b.held name g

/-- A name is refused at another type than that of its state. -/
theorem Orderly.mismatched (orderly : b.Orderly) {s : NamedState}
    (known : b.names.states[d.name]? = some id) (found : b.states[id]? = some s)
    (other : s.type ≠ d.type ∨ s.namespaces.schema ≠ namespaces.schema) :
    (getOrCreate namespaces).perform (b, d) = (.error (.typeMismatch d.name), b, d) ∧
      ∀ ns, (getPartitioned namespaces ns).perform (b, d) =
        (.error (.typeMismatch d.name), b, d) := by
  obtain ⟨s', found', named, -⟩ := orderly.named d.name id known
  cases Option.some.inj (found.symm.trans found')
  have checked : b.checkType id d namespaces.schema = .error (.typeMismatch d.name) := by
    have unlike := (s.isOf_eq_false_iff d.type namespaces.schema).2 other
    rw [checkType_eq found, if_neg (by rw [unlike]; exact Bool.false_ne_true), named]
  have refused : (getOrCreate namespaces).perform (b, d) =
      (.error (.typeMismatch d.name), b, d) := by
    rw [perform_getOrCreate_known namespaces known, checked]
    rfl
  refine ⟨refused, fun ns => ?_⟩
  rw [perform_getPartitioned_eq]
  cases recent : b.names.recent? d.name with
  | none => simp only [refused]
  | some id' =>
      -- the state that was accessed last is the one of the name
      have cached := orderly.cached d.name id' (StateNames.accessed_of_recent recent)
      cases Option.some.inj (cached.symm.trans known)
      simp only [checked]

end Backend

/-- **Names keep their handles.** Whatever a backend over a heap has been used for since it had no
named states, the state that it remembers as accessed last is the one of its name; until it is
disposed of a name is given one and the same handle; another type than the handle's is refused, and
nothing changes; a handle that is given with a namespace stands in it; and once the backend is
disposed of it has no named states, and the next handle of a name is a new one over what is held
under the name. -/
theorem names_keep_their_handles {start b : Backend keys} (unnamed : start.names = .empty)
    (heap : ∃ h, start.storage = .heap h) (works : Backend.Works True start b) :
    b.KeepsHandles := by
  have follows := works.follows (.of_unnamed unnamed)
  have orderly : b.Orderly := follows.orderly
  obtain ⟨h, held⟩ := follows.heap.2 heap
  refine ⟨follows.cached, ?_, ?_, ?_, ?_, ⟨rfl, fun _ _ => rfl, ?_⟩, ?_⟩
  · intro d d' namespaces namespaces' id id' b₁ b₂ b₃ first between second same
    -- what comes in between leaves the name its handle
    have follows₂ := between.follows (first.follows orderly).orderly
    have known := follows₂.remembered not_false d.name id (first.registered orderly)
    exact second.eq_of_known follows₂.orderly (same ▸ known)
  · intro d namespaces id s known found other
    exact orderly.mismatched known found ((s.isOf_eq_false_iff _ _).1 other)
  · intro d d' namespaces ns id b' performed
    have provides : Backend.Provides d namespaces b id b' := .partitioned ns performed
    obtain ⟨s, found, named, -⟩ :=
      (provides.follows orderly).named d.name id (provides.registered orderly)
    obtain ⟨b₁, -, set⟩ := Backend.getPartitioned_eq_ok performed
    obtain ⟨s₀, s', found', set', rfl⟩ := Backend.setNamespace_eq_ok set
    have here := List.getElem?_set_self (a := s') (List.getElem?_eq_some_iff.1 found').1
    cases Option.some.inj (here.symm.trans found)
    exact ⟨s, found, named, NamedState.standsIn_of_setNamespace set'⟩
  · intro α f d namespaces ns
    rcases Backend.perform_sequenceOf_cases d.name namespaces ns b with
      ⟨e, refused⟩ | ⟨handed, storage, listing, handsOut⟩
    · exact .inl ⟨e, _, Backend.run_applyToAllKeys_refused refused f⟩
    · -- listing the keys of a heap leaves the backend as it is
      rw [Backend.run_applyToAllKeys_heap held (Backend.perform_keysOf listing)]
      rcases opened : (Backend.getPartitioned namespaces ns).perform (b, d) with ⟨e | id, b', d'⟩
      · exact .inl ⟨e, _, rfl⟩
      · exact .inr ⟨id, b', d', handed.items, rfl, rfl⟩
  · intro d namespaces id b₁ b₂ works' provides
    have disposed : b.dispose.Orderly := .of_unnamed rfl
    have after := (works'.act provides.acts).follows disposed
    have numbered := provides.registered (works'.follows disposed).orderly
    rcases after.origin d.name id numbered with known | new
    · cases (ExtTreeMap.getElem?_empty (a := d.name)).symm.trans known
    · exact List.getElem?_eq_none new
  · intro d namespaces id b' unknown provides
    obtain ⟨-, ⟨s, found, made, shared⟩, heap'⟩ := provides.of_unknown orderly unknown
    obtain ⟨h', held', contents⟩ := heap' h held
    have same : ∀ name g, b'.held name g = b.held name g := fun name g => by
      rw [Backend.held_eq held', Backend.held_eq held, contents]
    refine ⟨⟨s, found, made, fun a => ?_⟩, same⟩
    rw [Backend.slot_tableOf held' (shared ⟨h, held⟩), made.name, same]

/-- One key was counted once: the state of the counts is the one that was accessed last, and it is
the one of its name. -/
theorem names_keep_their_handles_countOnce :
    let b := Step.run Step.countOnce (.plain 4 ⟨0, 3⟩)
    b.names.lastAccessed = some ("count", 0) ∧ b.names.states["count"]? = some 0 ∧
      b.KeepsHandles := by
  intro b
  have kept : b.KeepsHandles := names_keep_their_handles rfl ⟨.empty, rfl⟩
    ((Backend.Works.done (.plain 4 ⟨0, 3⟩)).run Step.countOnce)
  have accessed : b.names.lastAccessed = some ("count", 0) := by decide +kernel
  exact ⟨accessed, kept.cached "count" 0 accessed, kept⟩

end KeyedState
