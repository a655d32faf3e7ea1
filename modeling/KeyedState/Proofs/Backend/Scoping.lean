import KeyedState.Proofs.Backend.Naming

/-!
# Scopes of the calls of an iteration

An iteration makes a key current and then calls its function with the state, for one key after the
other. Whatever the function does with the backend meanwhile, the next call starts with its own key
and the group that this key is assigned to. The namespace of the state is set once, before the first
call. The state is the one that everybody uses, so a call that leaves it in another namespace leaves
it there for the next one: exactly then the next call is not scoped (`iteration_scopes_its_calls`).

To say what the calls find, the function is watched (`KeyFunction.watched`); watching it changes
nothing else.
-/

namespace KeyedState

variable {keys : Schema} {α : Type}

/-! ## Watching a function -/

/-- A call of the function of an iteration: what it is called with, the backend that it finds and
the one that it leaves, and what it gives. -/
structure WatchedCall (keys : Schema) (α : Type) where
  key : keys.Val
  id : StateId
  found : Backend keys
  left : Backend keys
  gave : α

/-- The function of an iteration, watched. -/
def KeyFunction.watched (f : KeyFunction keys α) : KeyFunction keys (WatchedCall keys α) :=
  fun key id => do
    let found ← get
    let (a, outcome) ← f key id
    return (⟨key, id, found, ← get, a⟩, outcome)

/-- Calls in turn with one state, from a backend on: each key is made current where the call before
has left the backend, and then the function works on it. -/
inductive WatchedCall.InTurn (f : KeyFunction keys α) (id : StateId) :
    Backend keys → List (WatchedCall keys α) → Prop
  | none (b : Backend keys) : InTurn f id b []
  | call {b : Backend keys} {c : WatchedCall keys α} {rest : List (WatchedCall keys α)}
      (state : c.id = id) (found : c.found = b.setKey c.key)
      (left : c.left = ((f c.key id).run c.found).2) (after : InTurn f id c.left rest) :
      InTurn f id b (c :: rest)

namespace Backend

/-- A watched function is called in turn, for an initial part of the listed keys; what its calls
give is what the function's own calls give. -/
theorem run_visit_watched (f : KeyFunction keys α) (id : StateId)
    (listed : List (Except StateError keys.Val)) (done : List (WatchedCall keys α))
    (b : Backend keys) :
    ∃ calls outcome b', (visit f.watched id listed done).run b =
        (⟨done.reverse ++ calls, outcome⟩, b') ∧
      (visit f id listed (done.map WatchedCall.gave)).run b =
        (⟨(done.reverse ++ calls).map WatchedCall.gave, outcome⟩, b') ∧
      WatchedCall.InTurn f id b calls ∧
      calls.map (fun c => .ok c.key) <+: listed := by
  -- the calls that were made already stand in front, the last one first
  induction listed generalizing done b with
  | nil =>
      refine ⟨[], .ok (), b, ?_, ?_, .none b, List.nil_prefix⟩
      · rw [List.append_nil]; rfl
      · rw [List.append_nil, List.map_reverse]; rfl
  | cons next rest ih =>
      cases next with
      | error e =>
          refine ⟨[], .error e, b, ?_, ?_, .none b, List.nil_prefix⟩
          · rw [List.append_nil]; rfl
          · rw [List.append_nil, List.map_reverse]; rfl
      | ok key =>
          rcases called : (f key id).run (b.setKey key) with ⟨⟨a, outcome⟩, b'⟩
          let c : WatchedCall keys α := ⟨key, id, b.setKey key, b', a⟩
          have watched : (f.watched key id).run (b.setKey key) = ((c, outcome), b') := by
            simp only [KeyFunction.watched, StateT.run_bind, StateT.run_get, pure_bind, called]
            rfl
          have left : c.left = ((f c.key id).run c.found).2 := by
            show b' = _
            rw [called]
          simp only [visit, StateT.run_bind, StateT.run_modify, pure_bind, called, watched]
          cases outcome with
          -- a call that fails is the last one
          | error e =>
              refine ⟨[c], .error e.toStateError, b', ?_, ?_, .call rfl rfl left (.none b'), ?_⟩
              · rw [← List.reverse_cons]; rfl
              · rw [← List.reverse_cons, List.map_reverse]; rfl
              · exact List.prefix_iff_eq_append.2 rfl
          | ok _ =>
              obtain ⟨calls, outcome, b'', run, run', inTurn, listed⟩ := ih (c :: done) b'
              refine ⟨c :: calls, outcome, b'', ?_, ?_, .call rfl rfl left inTurn, ?_⟩
              · rw [List.append_cons, ← List.reverse_cons]
                exact run
              · rw [List.append_cons, ← List.reverse_cons]
                exact run'
              · exact List.cons_prefix_cons.2 ⟨rfl, listed⟩

end Backend

/-! ## Scopes -/

/-- A call on the state goes to the slot of a key in its group and in a namespace. -/
structure Backend.Scoped (b : Backend keys) (id : StateId) (key : keys.Val) (g : KeyGroup)
    (schema : Schema) (ns : schema.Val) : Prop where
  key : b.context.key = some key
  group : b.context.group = some g
  stands : ∃ s, b.states[id]? = some s ∧ s.StandsIn schema ns

/-- The slot that a state reads and writes under a key that was made current. -/
theorem NamedState.scope_of_setKey {s : NamedState} {bytes : Bytes} (current : s.ns = some bytes)
    (c : KeyContext keys) (key : keys.Val) (t : Table) (tracker : Tracker) :
    (s.scope.perform ⟨c.setKey key, t, tracker⟩).1 =
      (c.setKey key).serialize.map fun key' => ⟨c.groupOf key, key', bytes⟩ := by
  cases written : (c.setKey key).serialize with
  | error e =>
      have refused : KeyContext.coordinates.perform (c.setKey key) = (.error e, c.setKey key) := by
        rw [KeyContext.coordinates, Action.perform_of]
        simp only [KeyContext.setKey, KeyContext.setKeyAndGroup] at written ⊢
        rw [written]
      have looked : (KeyContext.coordinates.within contextPart).perform
          ⟨c.setKey key, t, tracker⟩ = (.error e, ⟨c.setKey key, t, tracker⟩) := by
        rw [Action.perform_within]
        simp only [contextPart, refused]
      rw [scope, Action.perform_bind_error looked]
      rfl
  | ok key' =>
      have coherent : (c.setKey key).Coherent := by rintro _ ⟨⟩
      have located : s.scope.perform ⟨c.setKey key, t, tracker⟩ = _ :=
        perform_scope coherent rfl written current
      rw [located]
      rfl

namespace WatchedCall.InTurn

variable {f : KeyFunction keys α} {id : StateId} {b : Backend keys}
  {calls : List (WatchedCall keys α)}

/-- All calls are made with the one state. -/
theorem state_eq (inTurn : InTurn f id b calls) : ∀ c ∈ calls, c.id = id := by
  induction inTurn with
  | none b => exact fun c member => absurd member List.not_mem_nil
  | call state found left after ih => exact List.forall_mem_cons.2 ⟨state, ih⟩

/-- Every call finds the backend at a later time, with the key just made current. -/
theorem follows (inTurn : InTurn f id b calls) (works : f.Works True) {start : Backend keys}
    (follows : Backend.Follows True start b) :
    ∀ c ∈ calls, ∃ b₁, Backend.Follows True start b₁ ∧ c.found = b₁.setKey c.key := by
  induction inTurn with
  | none b => exact fun c member => absurd member List.not_mem_nil
  | @call b c rest state found left after ih =>
      refine List.forall_mem_cons.2 ⟨⟨b, follows, found⟩, ih ?_⟩
      -- the function works by operations, so it leaves the backend at a later time again
      rw [left]
      exact (works c.key id c.found).keeps (fun _ _ acts follows => follows.acts acts)
        (found ▸ follows.step (.setKey c.key))

/-- What setting a key does not change holds where every call starts, if it does where the first one
starts, just in case every call but the last one leaves it so. -/
theorem forall_found_iff (inTurn : InTurn f id b calls) {P : Backend keys → Prop}
    (selected : ∀ b key, P (Backend.setKey b key) ↔ P b) (first : P b) :
    (∀ c ∈ calls, P c.found) ↔ ∀ c ∈ calls.dropLast, P c.left := by
  induction inTurn with
  | none b =>
      exact iff_of_true (fun c member => absurd member List.not_mem_nil)
        (fun c member => absurd member List.not_mem_nil)
  | @call b c rest state found left after ih =>
      have here : P c.found := by
        rw [found]
        exact (selected b c.key).2 first
      cases after with
      | none b =>
          refine iff_of_true (fun c' member => ?_)
            (fun c' member => absurd member List.not_mem_nil)
          exact List.mem_singleton.1 member ▸ here
      | @call _ next rest' state' found' left' after' =>
          rw [List.dropLast_cons_cons]
          constructor
          · intro all
            -- the next call starts where this one has left the backend
            have leaves : P c.left := by
              have next_found := all next (List.mem_cons_of_mem c List.mem_cons_self)
              rw [found'] at next_found
              exact (selected c.left next.key).1 next_found
            exact List.forall_mem_cons.2
              ⟨leaves, (ih leaves).1 fun c' member => all c' (List.mem_cons_of_mem c member)⟩
          · intro all
            have leaves : P c.left := all c List.mem_cons_self
            exact List.forall_mem_cons.2
              ⟨here, (ih leaves).2 fun c' member => all c' (List.mem_cons_of_mem c member)⟩

end WatchedCall.InTurn

/-- A watched iteration: its calls are made in turn, from where the state was opened in its
namespace, and what they give is what the iteration gives without a watch. -/
theorem Backend.run_applyToAllKeys_watched {b : Backend keys} (orderly : b.Orderly) (d : Descriptor)
    (namespaces : NamespaceType) (ns : namespaces.schema.Val) (f : KeyFunction keys α) :
    ∃ calls outcome s id b₁,
      (applyToAllKeys namespaces ns f.watched).run (b, d) = (⟨calls, outcome⟩, s) ∧
      (applyToAllKeys namespaces ns f).run (b, d) =
        (⟨calls.map WatchedCall.gave, outcome⟩, s) ∧
      (∀ found b', (keysOf d.name namespaces ns).perform b = (.ok found, b') →
        calls.map (fun c => .ok c.key) <+: found) ∧
      WatchedCall.InTurn f id b₁ calls ∧ Follows True b b₁ ∧
      (calls = [] ∨ ∃ s, b₁.states[id]? = some s ∧ s.StandsIn namespaces.schema ns) := by
  have here : Follows True b b := (Works.done b).follows orderly
  rcases perform_sequenceOf_cases d.name namespaces ns b with
    ⟨e, refused⟩ | ⟨handed, storage, listing, handsOut⟩
  · refine ⟨[], .error e, _, 0, b, run_applyToAllKeys_refused refused _,
      run_applyToAllKeys_refused refused _, ?_, .none b, here, .inl rfl⟩
    intro found b' listed
    rw [perform_keysOf_refused refused] at listed
    cases listed
  · rw [run_applyToAllKeys listing, run_applyToAllKeys listing, run_visitAll, run_visitAll,
      perform_keysOf listing]
    have used : Follows True b { b with storage } := here.acts (.handOut b handsOut)
    have partitioned := used.getPartitioned namespaces ns d
    rcases opened : (getPartitioned namespaces ns).perform ({ b with storage }, d) with
      ⟨e | id, b₁, d₁⟩ <;> rw [opened] at partitioned
    · refine ⟨[], .error e, _, 0, b, rfl, rfl, ?_, .none b, here, .inl rfl⟩
      rintro found b' ⟨⟩
      exact List.nil_prefix
    · obtain ⟨calls, outcome, b', run, run', inTurn, initial⟩ :=
        run_visit_watched f id handed.items [] b₁
      have stands : ∃ s, b₁.states[id]? = some s ∧ s.StandsIn namespaces.schema ns := by
        obtain ⟨b₀, -, set⟩ := getPartitioned_eq_ok opened
        obtain ⟨s, s', found, set', rfl⟩ := setNamespace_eq_ok set
        exact ⟨s', List.getElem?_set_self (List.getElem?_eq_some_iff.1 found).1,
          NamedState.standsIn_of_setNamespace set'⟩
      refine ⟨calls, outcome, (b'.giveBack handed, d₁), id, b₁, ?_, ?_, ?_, inTurn, partitioned,
        .inr stands⟩
      · exact congrArg (fun x => (x.1, x.2.giveBack handed, d₁)) run
      · exact congrArg (fun x => (x.1, x.2.giveBack handed, d₁)) run'
      · rintro found b' ⟨⟩
        exact initial

/-- **When the calls of an iteration are scoped.** Watching the function changes nothing. It is
called with one state, for an initial part of the listed keys. If the function works on the backend
by operations and iterations, then each call finds its key current, in the group that the key is
assigned to; where it finds the state in the namespace of the iteration, its calls on the state go
to the slot of that group, the key and the namespace. It does so in all calls just in case every
call but the last one leaves the state in that namespace. -/
theorem iteration_scopes_its_calls {start b : Backend keys} (unnamed : start.names = .empty)
    (works : Backend.Works True start b) {d : Descriptor} {namespaces : NamespaceType}
    {ns : namespaces.schema.Val} {f : KeyFunction keys α} (function : f.Works True)
    {calls : List (WatchedCall keys α)} {outcome : Except StateError Unit}
    {s : Backend keys × Descriptor}
    (watched : (Backend.applyToAllKeys namespaces ns f.watched).run (b, d) =
      (⟨calls, outcome⟩, s)) :
    (Backend.applyToAllKeys namespaces ns f).run (b, d) =
        (⟨calls.map WatchedCall.gave, outcome⟩, s) ∧
      (∀ found b', (Backend.keysOf d.name namespaces ns).perform b = (.ok found, b') →
        calls.map (fun c => .ok c.key) <+: found) ∧
      (∃ id, ∀ c ∈ calls, c.id = id) ∧
      (∀ c ∈ calls, c.found.context.key = some c.key ∧
        c.found.context.group = some (b.context.groupOf c.key) ∧
        ∀ s : NamedState, s.StandsIn namespaces.schema ns →
          ∀ t tracker, (s.scope.perform ⟨c.found.context, t, tracker⟩).1 =
            c.found.context.serialize.map fun key =>
              ⟨b.context.groupOf c.key, key, s.ns.getD []⟩) ∧
      ((∀ c ∈ calls, c.found.Scoped c.id c.key (b.context.groupOf c.key) namespaces.schema ns) ↔
        ∀ c ∈ calls.dropLast,
          ∃ s, c.left.states[c.id]? = some s ∧ s.StandsIn namespaces.schema ns) := by
  have orderly := (works.follows (.of_unnamed unnamed)).orderly
  obtain ⟨calls', outcome', s', id, b₁, run, run', initial, inTurn, follows, stands⟩ :=
    Backend.run_applyToAllKeys_watched orderly d namespaces ns f
  cases watched.symm.trans run
  -- the key is made current before each call
  have current : ∀ c ∈ calls, c.found.context.key = some c.key ∧
      c.found.context.group = some (b.context.groupOf c.key) ∧
      ∃ b₂ : Backend keys, c.found.context = b₂.context.setKey c.key ∧
        b₂.context.groupOf c.key = b.context.groupOf c.key := by
    intro c member
    obtain ⟨b₂, follows₂, found⟩ := inTurn.follows function follows c member
    have group : b₂.context.groupOf c.key = b.context.groupOf c.key := by
      rw [KeyContext.groupOf, follows₂.groups, KeyContext.groupOf]
    rw [found]
    exact ⟨rfl, congrArg some group, b₂, rfl, group⟩
  -- setting a key does not touch the states, so where a call starts is where the last one ended
  have found_iff : (∀ c ∈ calls, ∃ s, c.found.states[id]? = some s ∧
      s.StandsIn namespaces.schema ns) ↔ ∀ c ∈ calls.dropLast, ∃ s, c.left.states[id]? = some s ∧
        s.StandsIn namespaces.schema ns := by
    rcases stands with rfl | stands
    · exact iff_of_true (fun c member => absurd member List.not_mem_nil)
        (fun c member => absurd member List.not_mem_nil)
    · exact inTurn.forall_found_iff (P := fun b => ∃ s, b.states[id]? = some s ∧
        s.StandsIn namespaces.schema ns) (fun _ _ => Iff.rfl) stands
  refine ⟨run', initial, ⟨id, inTurn.state_eq⟩, fun c member => ?_, ?_⟩
  · obtain ⟨key, group, b₂, context, same_group⟩ := current c member
    refine ⟨key, group, fun s stands t tracker => ?_⟩
    obtain ⟨-, -, there⟩ := stands
    obtain ⟨bytes, named⟩ := Option.isSome_iff_exists.1 there
    rw [context, NamedState.scope_of_setKey named, same_group, named]
    rfl
  · constructor
    · intro all c member
      have standing := found_iff.1 (fun c' member' => by
        rw [← inTurn.state_eq c' member']
        exact (all c' member').stands) c member
      rw [inTurn.state_eq c (List.dropLast_subset calls member)]
      exact standing
    · intro leaves c member
      obtain ⟨key, group, -⟩ := current c member
      have standing := found_iff.2 (fun c' member' => by
        rw [← inTurn.state_eq c' (List.dropLast_subset calls member')]
        exact leaves c' member') c member
      refine ⟨key, group, ?_⟩
      rw [inTurn.state_eq c member]
      exact standing

/-- Leaves the state in a namespace. -/
def KeyFunction.moving (schema : Schema) (ns : schema.Val) : KeyFunction keys Unit := fun _ id => do
  let _ ← (Backend.setNamespace id schema ns).run
  return ((), .ok ())

/-- Counts two keys in one namespace. -/
def Step.countTwo : List (Step .string) :=
  [.getPartitioned ⟨"count", .initial, none, .value .i64 none⟩ ⟨.string, .binary .string⟩ "here",
    .setKey "a", .call 0 (.value .i64) (.set (1 : BitVec 64)),
    .setKey "b", .call 0 (.value .i64) (.set (1 : BitVec 64))]

/-- The first call moves the state to another namespace, where the second call finds it. -/
theorem iteration_scopes_its_calls_moving :
    ∃ calls outcome s, (Backend.applyToAllKeys ⟨.string, .binary .string⟩ "here"
        (KeyFunction.moving .string "there").watched).run
          (Step.run Step.countTwo (.plain 4 ⟨0, 3⟩), ⟨"count", .initial, none, .value .i64 none⟩) =
        (⟨calls, outcome⟩, s) ∧
      calls.map (fun c => (c.key, (c.found.states[c.id]?).any fun s =>
        decide (s.StandsIn .string "here"))) = [("a", true), ("b", false)] ∧
      ¬ ∀ c ∈ calls.dropLast,
        ∃ s, c.left.states[c.id]? = some s ∧ s.StandsIn .string "here" := by
  have works : Backend.Works True (.plain 4 ⟨0, 3⟩) _ :=
    (Backend.Works.done (.plain 4 ⟨0, 3⟩)).run Step.countTwo
  have function : KeyFunction.Works True
      (KeyFunction.moving .string "there" : KeyFunction .string Unit) :=
    fun _ id c => (Backend.Works.done c).act (.step c (.setNamespace id .string "there"))
  have found : (((Backend.applyToAllKeys ⟨.string, .binary .string⟩ "here"
      (KeyFunction.moving .string "there").watched).run (Step.run Step.countTwo (.plain 4 ⟨0, 3⟩),
        ⟨"count", .initial, none, .value .i64 none⟩)).1.calls.map fun c => (c.key,
          (c.found.states[c.id]?).any fun s => decide (s.StandsIn .string "here"))) =
      [("a", true), ("b", false)] := by
    decide +kernel
  rcases watched : (Backend.applyToAllKeys ⟨.string, .binary .string⟩ "here"
      (KeyFunction.moving .string "there").watched).run (Step.run Step.countTwo (.plain 4 ⟨0, 3⟩),
        ⟨"count", .initial, none, .value .i64 none⟩) with ⟨⟨calls, outcome⟩, s⟩
  rw [watched] at found
  refine ⟨calls, outcome, s, rfl, found, fun leaves => ?_⟩
  obtain ⟨-, -, -, -, scoped_iff⟩ := iteration_scopes_its_calls rfl works function watched
  have second : ("b", false) ∈ calls.map fun c => (c.key,
      (c.found.states[c.id]?).any fun s => decide (s.StandsIn .string "here")) := by
    rw [found]
    decide
  obtain ⟨c, member, same⟩ := List.mem_map.1 second
  obtain ⟨s, there, stands⟩ := (scoped_iff.2 leaves c member).stands
  have shown := congrArg Prod.snd same
  rw [there] at shown
  exact absurd stands (of_decide_eq_false shown)

end KeyedState
