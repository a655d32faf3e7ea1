import KeyedState.Proofs.Backend.Scoping

/-!
# Where an iteration stops

An iteration goes through the keys that its storage hands out, and may come to a failure of the
storage, to bytes that are not the ones of a key, or to a call that fails. It stops at the first of
them (`Stops`): until then it has called its function for one key after the other, and behind it
nothing is looked at any more. A function that leaves the current key and the listeners alone
(`KeyFunction.LeavesSelection`) finds its own key current in every call, and the last key that was
made current stays so. The listeners are told of these keys and of no other ones, each time before
the key becomes current (`WatchedCall.told`).

The sequence that was handed out is in use during all calls, unless the function gives it back
itself, and wherever the iteration stops it is given back, once (`Iterates.sequence`).

Main statement: `iteration_stops_at_first_failure`.
-/

namespace KeyedState

variable {keys : Schema} {α : Type}

/-! ## How an iteration ends -/

namespace WatchedCall

/-- What a call reports: that it went well, or why it failed. -/
def outcome (f : KeyFunction keys α) (c : WatchedCall keys α) : Except FunctionError Unit :=
  ((f c.key c.id).run c.found).1.2

/-- The backend behind calls in turn. -/
def last (b : Backend keys) (calls : List (WatchedCall keys α)) : Backend keys :=
  (calls.getLast?.map left).getD b

/-- The key that is current behind calls in turn, each with its own key current. -/
def lastKey (previous : Option keys.Val) (calls : List (WatchedCall keys α)) : Option keys.Val :=
  (calls.getLast?.map key).or previous

/-- What is told during calls in turn: before each of them all listeners hear, in order, which key
comes after which one, and then there is what the call tells itself. -/
def told (listeners : List ListenerId) :
    Option keys.Val → List (WatchedCall keys α) → List (Event keys)
  | _, [] => []
  | previous, c :: rest =>
    listeners.map (fun l => .keySelected l c.key previous) ++
      c.left.events.drop c.found.events.length ++ told listeners (some c.key) rest

@[simp] theorem last_nil (b : Backend keys) : last b ([] : List (WatchedCall keys α)) = b := rfl

@[simp] theorem last_cons (b : Backend keys) (c : WatchedCall keys α)
    (rest : List (WatchedCall keys α)) : last b (c :: rest) = last c.left rest := by
  rw [last, last, List.getLast?_cons]
  cases rest.getLast? <;> rfl

@[simp] theorem lastKey_nil (previous : Option keys.Val) :
    lastKey previous ([] : List (WatchedCall keys α)) = previous := rfl

@[simp] theorem lastKey_cons (previous : Option keys.Val) (c : WatchedCall keys α)
    (rest : List (WatchedCall keys α)) :
    lastKey previous (c :: rest) = lastKey (some c.key) rest := by
  rw [lastKey, lastKey, List.getLast?_cons]
  cases rest.getLast? <;> rfl

end WatchedCall

/-- What an iteration reports of the failure of its function: a refusal that the function passes on
and a reason of its own come as failures of the function. A fault stays what it is. -/
inductive FunctionError.Reports : FunctionError → StateError → Prop
  | refused (cause : StateError) : Reports (.refused cause) (.userFunction cause)
  | failed (reason : String) : Reports (.failed reason) (.userFunctionFailed reason)
  | abandoned (fault : StateError) : Reports (.abandoned fault) fault

theorem FunctionError.reports_toStateError (e : FunctionError) : e.Reports e.toStateError := by
  cases e with
  | refused cause => exact .refused cause
  | failed reason => exact .failed reason
  | abandoned fault => exact .abandoned fault

/-- Calls for keys that were listed, one call for each key from the first one on, end with an
outcome: all keys were listed well and all calls went well; or all calls went well and then a key
was not listed, which is reported as it is; or the last call failed, which is reported as a failure
of the function, and the other ones went well. -/
inductive Stops (f : KeyFunction keys α) (listed : List (Except StateError keys.Val)) :
    List (WatchedCall keys α) → Except StateError Unit → Prop
  | done {calls : List (WatchedCall keys α)} (visited : listed = calls.map fun c => .ok c.key)
      (succeeded : ∀ c ∈ calls, c.outcome f = .ok ()) : Stops f listed calls (.ok ())
  | unlisted {calls : List (WatchedCall keys α)} {e : StateError}
      {rest : List (Except StateError keys.Val)}
      (visited : listed = calls.map (fun c => .ok c.key) ++ .error e :: rest)
      (succeeded : ∀ c ∈ calls, c.outcome f = .ok ()) : Stops f listed calls (.error e)
  | failed {calls : List (WatchedCall keys α)} {c : WatchedCall keys α} {e : FunctionError}
      {reported : StateError} {rest : List (Except StateError keys.Val)}
      (visited : listed = (calls ++ [c]).map (fun c => .ok c.key) ++ rest)
      (succeeded : ∀ c ∈ calls, c.outcome f = .ok ()) (refused : c.outcome f = .error e)
      (reports : e.Reports reported) : Stops f listed (calls ++ [c]) (.error reported)

/-- In front of calls there may be one more call that goes well. -/
theorem Stops.cons {f : KeyFunction keys α} {listed : List (Except StateError keys.Val)}
    {calls : List (WatchedCall keys α)} {outcome : Except StateError Unit}
    (stops : Stops f listed calls outcome) {c : WatchedCall keys α}
    (succeeded : c.outcome f = .ok ()) : Stops f (.ok c.key :: listed) (c :: calls) outcome := by
  cases stops with
  | done visited all =>
    exact .done (by rw [visited, List.map_cons]) (List.forall_mem_cons.2 ⟨succeeded, all⟩)
  | unlisted visited all =>
    exact .unlisted (by rw [visited, List.map_cons, List.cons_append])
      (List.forall_mem_cons.2 ⟨succeeded, all⟩)
  | failed visited all refused reports =>
    rw [← List.cons_append]
    exact .failed (by rw [visited, List.cons_append, List.map_cons, List.cons_append])
      (List.forall_mem_cons.2 ⟨succeeded, all⟩) refused reports

/-- Going through listed keys calls the function in turn and stops at the first failure. -/
theorem Backend.run_visit_stops (f : KeyFunction keys α) (id : StateId)
    (listed : List (Except StateError keys.Val)) (done : List α) (b : Backend keys) :
    ∃ calls outcome, (visit f id listed done).run b =
        (⟨done.reverse ++ calls.map WatchedCall.gave, outcome⟩, WatchedCall.last b calls) ∧
      WatchedCall.InTurn f id b calls ∧ Stops f listed calls outcome := by
  -- what the calls gave so far stands in `done`, the last call first
  induction listed generalizing done b with
  | nil =>
    refine ⟨[], .ok (), ?_, .none b, .done rfl fun c member => absurd member List.not_mem_nil⟩
    rw [List.map_nil, List.append_nil]
    rfl
  | cons next rest ih =>
    cases next with
    | error e =>
      refine ⟨[], .error e, ?_, .none b, .unlisted rfl fun c member => absurd member List.not_mem_nil⟩
      rw [List.map_nil, List.append_nil]
      rfl
    | ok key =>
      rcases called : (f key id).run (b.setKey key) with ⟨⟨a, reported⟩, b'⟩
      let c : WatchedCall keys α := ⟨key, id, b.setKey key, b', a⟩
      have left : c.left = ((f c.key id).run c.found).2 := by
        show b' = _
        rw [called]
      have outcome : c.outcome f = reported := by
        show ((f key id).run (b.setKey key)).1.2 = _
        rw [called]
      simp only [visit, StateT.run_bind, StateT.run_modify, pure_bind, called]
      cases reported with
      | error e =>
        have stops : Stops f (.ok key :: rest) ([] ++ [c]) (.error e.toStateError) :=
          .failed rfl (fun c member => absurd member List.not_mem_nil) outcome e.reports_toStateError
        refine ⟨[c], .error e.toStateError, ?_, .call rfl rfl left (.none b'), stops⟩
        rw [List.map_singleton, ← List.reverse_cons]
        rfl
      | ok _ =>
        obtain ⟨calls, outcome', run, inTurn, stops⟩ := ih (a :: done) b'
        refine ⟨c :: calls, outcome', ?_, .call rfl rfl left inTurn, stops.cons outcome⟩
        rw [WatchedCall.last_cons, List.map_cons, List.append_cons, ← List.reverse_cons]
        exact run

/-! ## What the calls find and leave -/

/-- The function leaves the current key, the listeners and the number of key groups as they are, and
what was told before it stays told. -/
structure KeyFunction.LeavesSelection (f : KeyFunction keys α) : Prop where
  key : ∀ key id b, ((f key id).run b).2.context.key = b.context.key
  groups : ∀ key id b, ((f key id).run b).2.context.groups = b.context.groups
  listeners : ∀ key id b, ((f key id).run b).2.listeners = b.listeners
  told : ∀ key id b, b.events <+: ((f key id).run b).2.events

/-- The function gives no sequence of keys back that it has not taken. -/
def KeyFunction.LeavesSequences (f : KeyFunction keys α) : Prop :=
  ∀ key id b n, b.storage.InUse n → ((f key id).run b).2.storage.InUse n

namespace WatchedCall.InTurn

variable {f : KeyFunction keys α} {id : StateId} {b : Backend keys}
  {calls : List (WatchedCall keys α)}

/-- What setting keys and the function keep holds where each call starts and behind all of them. -/
theorem keeps (inTurn : InTurn f id b calls) {P : Backend keys → Prop}
    (selected : ∀ b key, P b → P (Backend.setKey b key))
    (called : ∀ key id b, P b → P ((f key id).run b).2) (start : P b) :
    (∀ c ∈ calls, P c.found) ∧ P (last b calls) := by
  induction inTurn with
  | none b => exact ⟨fun c member => absurd member List.not_mem_nil, start⟩
  | @call b c rest state found left after ih =>
    have here : P c.found := found ▸ selected b c.key start
    obtain ⟨each, behind⟩ := ih (left ▸ called c.key id c.found here)
    exact ⟨List.forall_mem_cons.2 ⟨here, each⟩, last_cons b c rest ▸ behind⟩

/-- Sequences that are in use when the calls begin are in use in every call and behind them. -/
theorem inUse (inTurn : InTurn f id b calls) (leaves : f.LeavesSequences) {n : Nat}
    (used : b.storage.InUse n) :
    (∀ c ∈ calls, c.found.storage.InUse n) ∧ (last b calls).storage.InUse n :=
  inTurn.keeps (P := fun b => b.storage.InUse n) (fun _ _ used => used)
    (fun key id b => leaves key id b n) used

/-- Every call finds its key current in the group that the key is assigned to, and behind the calls
the last key is current. -/
theorem selects (inTurn : InTurn f id b calls) (leaves : f.LeavesSelection) :
    (∀ c ∈ calls, c.found.context.key = some c.key ∧
      c.found.context.group = some (b.context.groupOf c.key)) ∧
      (last b calls).context.key = lastKey b.context.key calls ∧
      (last b calls).listeners = b.listeners ∧
      (last b calls).events = b.events ++ told b.listeners b.context.key calls := by
  induction inTurn with
  | none b => exact ⟨fun c member => absurd member List.not_mem_nil, rfl, rfl, by simp [told]⟩
  | @call b c rest state found left after ih =>
    obtain ⟨each, key, listeners, events⟩ := ih
    have groups : c.left.context.groups = b.context.groups := by
      rw [left, leaves.groups, found]
      rfl
    have current : c.left.context.key = some c.key := by
      rw [left, leaves.key, found]
      rfl
    have heard : c.left.listeners = b.listeners := by
      rw [left, leaves.listeners, found]
      rfl
    -- the log that the call finds has the announcements of its key in the end
    have announced : c.found.events =
        b.events ++ b.listeners.map fun l => .keySelected l c.key b.context.key := by
      rw [found]
      rfl
    have longer : c.found.events ++ c.left.events.drop c.found.events.length = c.left.events := by
      rw [left]
      exact List.prefix_iff_eq_append.1 (leaves.told c.key id c.found)
    refine ⟨List.forall_mem_cons.2 ⟨?_, fun c' member => ?_⟩, ?_, ?_, ?_⟩
    · rw [found]
      exact ⟨rfl, rfl⟩
    · rw [KeyContext.groupOf, ← groups]
      exact each c' member
    · rw [last_cons, lastKey_cons, key, current]
    · rw [last_cons, listeners, heard]
    · rw [last_cons, events, heard, current, told, ← List.append_assoc, ← List.append_assoc,
        ← announced, longer]

/-- Every call leaves what the function makes of what it finds. -/
theorem left_eq (inTurn : InTurn f id b calls) :
    ∀ c ∈ calls, c.left = ((f c.key id).run c.found).2 := by
  induction inTurn with
  | none b => exact fun c member => absurd member List.not_mem_nil
  | call state found left after ih => exact List.forall_mem_cons.2 ⟨left, ih⟩

/-- A function that leaves the current group as well leaves the last key in its own group. -/
theorem group_last (inTurn : InTurn f id b calls) (leaves : f.LeavesSelection)
    (group : ∀ key id b, ((f key id).run b).2.context.group = b.context.group) :
    (last b calls).context.group =
      ((calls.getLast?.map key).map b.context.groupOf).or b.context.group := by
  rw [last]
  cases latest : calls.getLast? with
  | none => rfl
  | some c =>
    have member : c ∈ calls := List.mem_of_getLast? latest
    show c.left.context.group = some (b.context.groupOf c.key)
    rw [inTurn.left_eq c member, group, ((inTurn.selects leaves).1 c member).2]

end WatchedCall.InTurn

/-- Asking for a state leaves the current key, the listeners and the sequences in use as they are, and
tells nothing. -/
theorem Backend.getPartitioned_selection (namespaces : NamespaceType)
    (ns : namespaces.schema.Val) (b : Backend keys) (d : Descriptor) :
    let after := ((getPartitioned namespaces ns).perform (b, d)).2.1
    after.context = b.context ∧ after.listeners = b.listeners ∧ after.events = b.events ∧
      after.storage.handedOut = b.storage.handedOut ∧
      after.storage.givenBack = b.storage.givenBack := by
  refine after_getPartitioned (I := fun after => after.context = b.context ∧
    after.listeners = b.listeners ∧ after.events = b.events ∧
      after.storage.handedOut = b.storage.handedOut ∧
      after.storage.givenBack = b.storage.givenBack) ⟨rfl, rfl, rfl, rfl, rfl⟩ ?_
      (fun _ _ same => same) fun b' id same => ?_
  · cases known : b.names.states[d.name]? with
    | some id =>
      rw [perform_getOrCreate_known namespaces known]
      exact ⟨rfl, rfl, rfl, rfl, rfl⟩
    | none =>
      rw [perform_getOrCreate_unknown namespaces known]
      obtain ⟨storage, queries, metrics, d', -, -, -, sequences,
        ⟨e, refused⟩ | ⟨place, -, created⟩⟩ := perform_createState_cases namespaces b d
      · rw [refused]
        exact ⟨rfl, rfl, rfl, sequences⟩
      · rw [created]
        exact ⟨rfl, rfl, rfl, sequences⟩
  · rcases perform_setNamespace_cases id namespaces.schema ns b' with unset | ⟨_, _, -, set⟩
    · rw [unset]
      exact same
    · rw [set]
      exact same

/-! ## Iterations with an open state -/

/-- An iteration has worked through a sequence of keys with an open state, by calls in turn: from
`b`, where the sequence was taken, and `opened`, where the state was, to `b'`. -/
structure Iterates (f : KeyFunction keys α) (handed : KeySequence keys.Val) (b opened : Backend keys)
    (id : StateId) (calls : List (WatchedCall keys α)) (outcome : Except StateError Unit)
    (b' : Backend keys) : Prop where
  /-- The calls stop at the first failure. -/
  stops : Stops f handed.items calls outcome
  inTurn : WatchedCall.InTurn f id opened calls
  handle : ∀ c ∈ calls, c.id = id
  /-- Every call finds its key current. -/
  current : ∀ c ∈ calls, c.found.context.key = some c.key ∧
    c.found.context.group = some (b.context.groupOf c.key)
  /-- The listeners are told of the keys of the calls. -/
  told : b'.events = b.events ++ WatchedCall.told b.listeners b.context.key calls
  listeners : b'.listeners = b.listeners
  /-- The last key stays current, or else the one from before. -/
  key : b'.context.key = WatchedCall.lastKey b.context.key calls
  group : (∀ key id b, ((f key id).run b).2.context.group = b.context.group) →
    b'.context.group = ((calls.getLast?.map WatchedCall.key).map b.context.groupOf).or
      b.context.group
  /-- Behind the last call there is nothing left to do but to give the sequence back. -/
  left : b' = (WatchedCall.last opened calls).giveBack handed
  /-- It is in use in every call, and given back once. -/
  sequence : f.LeavesSequences →
    (∀ n, handed.number = some n → ∀ c ∈ calls, c.found.storage.InUse n) ∧
      b'.storage.givenBack =
        (WatchedCall.last opened calls).storage.givenBack ++ handed.number.toList

/-- The function works through the keys once the state is open. -/
theorem Backend.run_visit_iterates {f : KeyFunction keys α} (leaves : f.LeavesSelection)
    {b opened : Backend keys} (context : opened.context = b.context)
    (listeners : opened.listeners = b.listeners) (events : opened.events = b.events)
    (handed : KeySequence keys.Val)
    (used : ∀ n, handed.number = some n → opened.storage.InUse n) (id : StateId) :
    ∃ calls outcome b', (visit f id handed.items []).run opened =
        (⟨calls.map WatchedCall.gave, outcome⟩, b') ∧
      Iterates f handed b opened id calls outcome (b'.giveBack handed) ∧
      (f.LeavesSequences → ∀ n, opened.storage.InUse n → b'.storage.InUse n) := by
  obtain ⟨calls, outcome, run, inTurn, stops⟩ := run_visit_stops f id handed.items [] opened
  obtain ⟨each, key, heard, told⟩ := inTurn.selects leaves
  have group := inTurn.group_last leaves
  rw [context] at each key told group
  rw [listeners] at heard told
  rw [events] at told
  refine ⟨calls, outcome, _, run, ⟨stops, inTurn, inTurn.state_eq, each, told, heard, key, group, rfl,
    fun keeps => ⟨fun n number => (inTurn.inUse keeps (used n number)).1, ?_⟩⟩,
    fun keeps n inUse => (inTurn.inUse keeps inUse).2⟩
  exact givenBack_giveBack fun n number => (inTurn.inUse keeps (used n number)).2

/-- **An iteration stops exactly at the first failure, and gives its keys back.** The storage may
refuse to list keys, and then nothing happens. Or it hands out any sequence of bytes and of
failures. Then the function is called with one state for the keys that are read back, one after the
other: for all of them; or for those in front of the first failure of the storage and of the first
bytes that are not read back, which is what the iteration ends with then; or up to the first call
that fails, of which it reports the error as one of the function. Every call finds its key current,
in the group that the key is assigned to. All listeners are told of the key of every call before it
is current, in order, and of no other keys. The last key stays current, or the one from before if
there was no call; so does its group, if the function leaves the group alone, too.

On every path, also where the state is not opened, the sequence is not in use behind the iteration.
If the function leaves sequences in use, so does the iteration, its own one apart: that one is in use
in all calls and given back once. -/
theorem iteration_stops_at_first_failure {b : Backend keys} {serializer : Serializer keys.Val}
    (configured : b.context.serializer = some serializer) {namespaces : NamespaceType}
    {ns : namespaces.schema.Val} {bytes : Bytes}
    (written : namespaces.serializer.serialize ns = .ok bytes) {f : KeyFunction keys α}
    (leaves : f.LeavesSelection) (d : Descriptor) :
    (∀ e storage, (Storage.handOut d.name bytes).perform b.storage = (.error e, storage) →
      (Backend.applyToAllKeys namespaces ns f).run (b, d) = (⟨[], .error e⟩, b, d)) ∧
    ∀ handed storage, (Storage.handOut d.name bytes).perform b.storage = (.ok handed, storage) →
      b.storage.HandsOut handed.number storage ∧
      ∃ iteration b' d', (Backend.applyToAllKeys namespaces ns f).run (b, d) = (iteration, b', d') ∧
        (∀ n, handed.number = some n → ¬ b'.storage.InUse n) ∧
        (f.LeavesSequences → ∀ n, b.storage.InUse n → b'.storage.InUse n) ∧
        (∀ e b₁ d₁, (Backend.getPartitioned namespaces ns).perform ({ b with storage }, d) =
            (.error e, b₁, d₁) →
          iteration = ⟨[], .error e⟩ ∧ b' = b₁.giveBack handed ∧ d' = d₁ ∧
            b'.storage.givenBack = b.storage.givenBack ++ handed.number.toList) ∧
        ∀ id b₁ d₁, (Backend.getPartitioned namespaces ns).perform ({ b with storage }, d) =
            (.ok id, b₁, d₁) →
          d' = d₁ ∧ ∃ calls outcome, iteration = ⟨calls.map WatchedCall.gave, outcome⟩ ∧
            Iterates f (handed.bind serializer.deserialize) b b₁ id calls outcome b' := by
  have sequence := Backend.perform_sequenceOf configured written d.name
  refine ⟨fun e storage refused => ?_, fun handed storage listed => ?_⟩
  · obtain rfl := Storage.eq_of_handOut_refused refused
    rw [refused] at sequence
    exact Backend.run_applyToAllKeys_refused sequence f
  · have handsOut := Storage.handsOut_of_handOut listed
    rw [listed] at sequence
    refine ⟨handsOut, ?_⟩
    rw [Backend.run_applyToAllKeys sequence, Backend.run_visitAll]
    -- opening the state leaves everything that is said here as it is
    have unchanged := Backend.getPartitioned_selection namespaces ns { b with storage } d
    rcases opened : (Backend.getPartitioned namespaces ns).perform ({ b with storage }, d) with
      ⟨outcome, b₁, d₁⟩
    rw [opened] at unchanged
    obtain ⟨context, listeners, events, handedOut, givenBack⟩ := unchanged
    dsimp only at context listeners events handedOut givenBack
    have inUse : ∀ n, b₁.storage.InUse n ↔ b.storage.InUse n ∨ handed.number = some n := fun n => by
      rw [← handsOut.inUse n, Storage.InUse, handedOut, givenBack, Storage.InUse]
    have used : ∀ n, handed.number = some n → b₁.storage.InUse n := fun n number =>
      (inUse n).2 (.inr number)
    have other : ∀ n, b.storage.InUse n → handed.number ≠ some n := fun n before number =>
      handsOut.new n number before
    cases outcome with
    | error e =>
      refine ⟨⟨[], .error e⟩, b₁.giveBack handed, d₁, rfl, fun n => b₁.not_inUse_giveBack, ?_, ?_, ?_⟩
      · exact fun _ n before => Backend.inUse_giveBack ((inUse n).2 (.inl before)) (other n before)
      · rintro _ _ _ ⟨⟩
        refine ⟨rfl, rfl, rfl, ?_⟩
        rw [Backend.givenBack_giveBack used, givenBack, handsOut.givenBack]
      · rintro _ _ _ ⟨⟩
    | ok id =>
      obtain ⟨calls, outcome, b', run, iterates, keeps⟩ := Backend.run_visit_iterates (b := b) leaves
        context listeners events (handed.bind serializer.deserialize) used id
      dsimp only
      rw [run]
      refine ⟨⟨calls.map WatchedCall.gave, outcome⟩, b'.giveBack handed, d₁, rfl,
        fun n => b'.not_inUse_giveBack, fun leaves n before => ?_, ?_, ?_⟩
      · exact Backend.inUse_giveBack (keeps leaves n ((inUse n).2 (.inl before))) (other n before)
      · rintro _ _ _ ⟨⟩
      · rintro _ _ _ ⟨⟩
        exact ⟨rfl, calls, outcome, rfl, iterates⟩

/-- Accepts every text but one. -/
def KeyFunction.accepting (unwanted : String) : KeyFunction .string String := fun key _ =>
  return (key, if key = unwanted then .error (.failed "unwanted") else .ok ())

theorem KeyFunction.leavesSelection_accepting (unwanted : String) :
    (accepting unwanted).LeavesSelection where
  key _ _ _ := rfl
  groups _ _ _ := rfl
  listeners _ _ _ := rfl
  told _ _ _ := List.prefix_rfl

theorem KeyFunction.leavesSequences_accepting (unwanted : String) :
    (accepting unwanted).LeavesSequences :=
  fun _ _ _ _ used => used

/-- An operator with two listeners, over a storage that hands out two keys and then fails. -/
def Backend.faltering : Backend .string :=
  { Backend.plain 4 ⟨0, 3⟩ with
    storage := .scripted (.of [some (Schema.string.codec.encode "a"),
      some (Schema.string.codec.encode "b"), none] false false)
    listeners := [7, 9] }

/-- The second key is not accepted. It stays current, and both listeners were told of both keys. The
sequence is in use in both calls, and given back. -/
theorem iteration_stops_at_first_failure_secondCall :
    ∃ (calls : List (WatchedCall .string String)) (b' : Backend .string) (d : Descriptor),
      (Backend.applyToAllKeys ⟨.string, .binary .string⟩ "here" (KeyFunction.accepting "b")).run
          (.faltering, ⟨"count", .initial, none, .value .i64 none⟩) =
        (⟨calls.map WatchedCall.gave, .error (.userFunctionFailed "unwanted")⟩, b', d) ∧
      calls.map WatchedCall.gave = ["a", "b"] ∧
      b'.events = WatchedCall.told [7, 9] none calls ∧ b'.events.length = 4 ∧
      WatchedCall.lastKey none calls = some "b" ∧
      (∀ c ∈ calls, c.found.storage.InUse 0) ∧ ¬ b'.storage.InUse 0 ∧ b'.storage.givenBack = [0] := by
  have written : (NamespaceType.mk .string (.binary .string)).serializer.serialize "here" =
    .ok (Schema.string.codec.encode "here") := rfl
  obtain ⟨-, iteration, b', d', run, free, -, -, works⟩ :=
    (iteration_stops_at_first_failure (b := .faltering) rfl written
      (KeyFunction.leavesSelection_accepting "b")
      ⟨"count", .initial, none, .value .i64 none⟩).2 _ _ rfl
  -- the state is opened over the storage that has handed the keys out
  rcases opened : (Backend.getPartitioned ⟨.string, .binary .string⟩ "here").perform
    ({ Backend.faltering with storage := ((Storage.handOut "count"
      (Schema.string.codec.encode "here")).perform Backend.faltering.storage).2 },
      ⟨"count", .initial, none, .value .i64 none⟩) with ⟨reply, b₁, d₁⟩
  have first : reply = .ok 0 := by
    refine (congrArg Prod.fst opened).symm.trans ?_
    decide +kernel
  subst first
  obtain ⟨rfl, calls, outcome, rfl, iterates⟩ := works 0 b₁ d₁ opened
  have ran : (fun r : Iteration String × Backend .string × Descriptor =>
      (r.1.calls, r.1.outcome, r.2.1.context.key, r.2.1.events.length, r.2.1.storage.givenBack))
        ((Backend.applyToAllKeys ⟨.string, .binary .string⟩ "here" (KeyFunction.accepting "b")).run
          (.faltering, ⟨"count", .initial, none, .value .i64 none⟩)) =
      (["a", "b"], .error (.userFunctionFailed "unwanted"), some "b", 4, [0]) := by
    decide +kernel
  rw [run] at ran
  simp only [Prod.mk.injEq] at ran
  obtain ⟨gave, rfl, current, many, givenBack⟩ := ran
  exact ⟨calls, b', d', run, gave, iterates.told, many, iterates.key.symm.trans current,
    (iterates.sequence (KeyFunction.leavesSequences_accepting "b")).1 0 rfl, free 0 rfl, givenBack⟩

end KeyedState
