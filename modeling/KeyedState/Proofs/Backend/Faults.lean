import KeyedState.Proofs.Backend.Opening

/-!
# Samples that cannot be recorded

A backend that tracks a family with histories that cannot be set up does not follow the reference.
Each value that is set is an access for that family. When one is picked, its sample is refused, and
the call with it, with an error that the reference never gives (`Reference.Takes.ne_fault`). How
many values can be set before that is bounded by the interval of the family (`Backend.Blocked`).

Main statement: `Backend.Blocked.not_follows`.
-/

namespace KeyedState

variable {keys : Schema}

/-! ## References without lists -/

/-- Only lists take memory that may not be there. -/
theorem StateType.fitsMemory_of_ne {t : StateType} (other : ∀ v, t ≠ .list v) (x : t.Content) :
    t.FitsMemory x := by
  cases t with
  | list v => exact absurd rfl (other v)
  | _ => trivial

/-- No list is asked for. -/
def Step.Listless : Step keys → Prop
  | create d _ => ∀ v, d.type ≠ .list v
  | getPartitioned d _ _ => ∀ v, d.type ≠ .list v
  | _ => True

namespace Reference

variable {r r' : Reference keys}

/-- No state is a list. -/
def Listless (r : Reference keys) : Prop := ∀ x ∈ r.states, ∀ v, x.spec.type ≠ .list v

namespace Listless

theorem fitsMemory (listless : r.Listless) : r.FitsMemory :=
  fun x member _ _ _ => StateType.fitsMemory_of_ne (listless x member) _

/-- A state was replaced by one of the same type. -/
theorem set (listless : r.Listless) {id : StateId} {x x' : ReferenceState keys}
    (held : r.states[id]? = some x) (same : x'.spec = x.spec) : (r.set id x').Listless := by
  intro y member v
  rcases List.mem_or_eq_of_mem_set member with old | rfl
  · exact listless y old v
  · rw [same]
    exact listless x (List.mem_of_getElem? held) v

/-- A state that is no list was found, created or refused. -/
theorem opens (listless : r.Listless) {d : Descriptor} (other : ∀ v, d.type ≠ .list v)
    {schema : Schema} {outcome : Except StateError StateId}
    (opens : r.Opens d schema outcome r') : r'.Listless := by
  cases opens with
  | created fresh =>
      intro x member v
      rcases List.mem_append.1 member with old | new
      · exact listless x old v
      · rw [List.mem_singleton.1 new, ReferenceState.fresh, StateSpec.type_settled]
        exact other v
  | _ => exact listless

end Listless

/-- An operation that asks for no list makes none. -/
theorem Takes.listless {s : Step keys} {outcome : Except StateError s.Reply}
    (takes : r.Takes s outcome r') (listless : r.Listless) (other : s.Listless) : r'.Listless := by
  cases takes with
  | create opens => exact listless.opens other opens
  | getPartitioned opens named =>
      obtain ⟨x, ns, held, rfl⟩ := setNamespace_eq_ok named
      exact (listless.opens other opens).set held rfl
  | notPartitioned opens => exact listless.opens other opens
  | setNamespace named =>
      obtain ⟨x, ns, held, rfl⟩ := setNamespace_eq_ok named
      exact listless.set held rfl
  | call held takes =>
      apply listless.set held
      cases takes <;> rfl
  | _ => exact listless

/-- Calls are not refused for samples that cannot be recorded. -/
theorem Takes.ne_fault {id : StateId} {type : StateType} {c : type.Call}
    {outcome : Except StateError (type.Reply c)} (takes : r.Takes (.call id type c) outcome r') :
    outcome ≠ .error .historyTooLarge := by
  rintro rfl
  cases takes with
  | call held takes =>
      cases takes with
      | refused missing busy =>
          -- what is missing is the key, the group or the namespace
          rw [ReferenceState.missing] at missing
          split at missing
          · cases missing
          · split at missing <;> cases missing

end Reference

/-! ## Values that are set -/

namespace NamedState

variable {s : NamedState} {v : Schema} {serializer : Serializer v.Val}

/-- A call on a value is carried out with its serializer. -/
theorem callAs_value (typed : s.spec = .value v serializer) (conditions : Conditions)
    (c : ValueCall v.Val) :
    s.callAs conditions (.value v) c =
      (ValueCall.perform serializer (s.workspaceStore conditions) s.scope c :
        Action (Workspace keys) c.Reply) := by
  obtain ⟨name, spec, namespaces, ns, ttl, tracker, place⟩ := s
  cases typed
  exact dif_pos rfl

/-- Setting a value is a put, which the tracker observes. -/
theorem perform_set (found : Workspace keys) (typed : s.spec = .value v serializer)
    (plain : s.ttl.isEnabled = false) (coherent : found.context.Coherent) {g : KeyGroup}
    (group : found.context.group = some g) {key : Bytes}
    (written : found.context.serialize = .ok key) {ns : Bytes} (current : s.ns = some ns)
    {x : v.Val} {bytes : Bytes} (writes : serializer.serialize x = .ok bytes)
    (conditions : Conditions) :
    ∃ (a : Address) (t : Table),
      (s.callAs conditions (.value v) (.set x)).perform found =
        (if (found.tracker.observe conditions.accepts (.put a bytes) (.ok ())).1 then .ok ()
            else .error .historyTooLarge,
          ⟨{ found.context with serialized := some key }, t,
            (found.tracker.observe conditions.accepts (.put a bytes) (.ok ())).2⟩) := by
  refine ⟨(SlotAddress.mk g key ns).whole,
    found.table.put (SlotAddress.mk g key ns).whole bytes, ?_⟩
  have writes' : ∀ w : Workspace keys, (Action.lift (serializer.serialize x)).perform w =
      (.ok bytes, w) := fun w => by rw [Action.perform_lift, writes]
  rw [callAs_value typed]
  apply (Action.perform_bind_ok (perform_scope coherent group written current) _).trans
  apply (Action.perform_bind_ok (writes' _) _).trans
  -- the slot and the bytes are known; the put is left
  show ((s.store conditions).perform _ |>.within stored).perform _ = _
  rw [Action.perform_within, store_of_plain plain]
  rfl

end NamedState

namespace Backend

/-- The state of number 0 is a value in a namespace, and none of its samples of a family can be
recorded. After at most `left` values that are set one of them would have to be. -/
structure Blocked (v : Schema) (serializer : Serializer v.Val) (family : Tracked) (left : Nat)
    (b : Backend keys) (s : NamedState) : Prop where
  coherent : b.context.Coherent
  group : ∃ g, b.context.group = some g
  written : ∃ bytes, b.context.serialize = .ok bytes
  found : b.states[0]? = some s
  typed : s.spec = .value v serializer
  plain : s.ttl.isEnabled = false
  shared : s.place = .shared
  ns : ∃ bytes, s.ns = some bytes
  picks : s.tracker.PicksWithin family left
  refuses : ∃ m, b.metrics = some m ∧ m.Refuses family s.name

variable {b : Backend keys} {v : Schema} {serializer : Serializer v.Val} {family : Tracked}
  {left : Nat} {s : NamedState}

/-- What is recorded does not unblock. -/
theorem refuses_collect {m : Metrics} {state : String} (refuses : m.Refuses family state)
    (samples : List Sample) :
    (samples.foldl (fun m x => m.recordSample state x) m).Refuses family state := by
  induction samples generalizing m with
  | nil => exact refuses
  | cons x rest ih => exact ih (refuses.recordSample x)

/-- The sampler of a family that a new state tracks. -/
theorem sampler_newTracker (metered : b.metered = true)
    (enabled : (b.sampling family).enabled = true) :
    b.newTracker.sampler family = some (.of (b.sampling family).interval) := by
  rw [newTracker, if_pos metered]
  cases family <;> exact if_pos enabled

/-- A name without histories has none after its capacity was registered. -/
theorem history_registerFamily {m : Metrics} {name : String}
    (unset : ∀ family op, (m.histories family).history name op = none) (family' : Tracked)
    (c : SamplingConfig) (family : Tracked) (op : Operation) :
    ((registerFamily m family' c name).histories family).history name op = none := by
  rw [registerFamily]
  split
  · rw [Metrics.register, Metrics.histories_modify]
    split
    · exact Histories.history_register_eq_none (unset family op) name _
    · exact unset family op
  · exact unset family op

/-- No sample can be recorded for a name whose capacities were registered, if the one of the family
cannot be set up. -/
theorem refuses_registerTracking (name : String) {m : Metrics} (metrics : b.metrics = some m)
    (unset : ∀ family op, (m.histories family).history name op = none)
    (enabled : (b.sampling family).enabled = true)
    (large : SampleHistory.greatestCapacity < (b.sampling family).history.toNat) :
    ∃ m', (b.registerTracking name).metrics = some m' ∧ m'.Refuses family name := by
  have metrics' : (b.registerTracking name).metrics =
      some (registerFamily (registerFamily m .latency b.latency name) .size b.size name) := by
    rw [registerTracking, metrics]
    rfl
  refine ⟨_, metrics', ?_, ?_⟩
  · obtain ⟨m₀, -, capacity⟩ := capacity_registerTracking metrics'
    rw [capacity, if_pos ⟨enabled, rfl⟩]
    exact Nat.lt_of_lt_of_le large (Nat.le_max_left _ _)
  · exact history_registerFamily (history_registerFamily unset .latency b.latency) .size b.size
      family

namespace Blocked

/-- A new backend whose samples cannot be recorded is blocked as soon as it has opened a value state
for a key. -/
theorem of_new {config : BackendConfig} {serializer : Serializer keys.Val}
    (new : b.IsNew config serializer) {m : Metrics} (metrics : b.metrics = some m)
    (enabled : (b.sampling family).enabled = true)
    (large : SampleHistory.greatestCapacity < (b.sampling family).history.toNat) {key : keys.Val}
    {bytes : Bytes} (writes : serializer.serialize key = .ok bytes) :
    ∃ s, ((Step.getPartitioned ⟨"k", .initial, none, .value keys (some serializer)⟩
      ⟨keys, serializer⟩ key).perform.perform (b.setKey key)).2.Blocked keys serializer family
        (Sampler.of (b.sampling family).interval).interval.toNat s := by
  have metered : b.metered = true := by
    apply new.metered
    cases family with
    | latency => exact .inl enabled
    | size => exact .inr enabled
  have known : (b.setKey key).context.serializer = some serializer :=
    congrArg (·.serializer) new.context
  obtain ⟨n, rfl⟩ := new.metrics m metrics
  have unset : ∀ family op, ((Metrics.of n).histories family).history "k" op = none := by
    intro family op
    cases family <;> rfl
  obtain ⟨m', registered, refuses⟩ :=
    refuses_registerTracking (b := b.setKey key) "k" metrics unset enabled large
  obtain ⟨b', opened, context, metrics', states⟩ :=
    perform_getPartitioned_first (b := b.setKey key)
      (d := ⟨"k", .initial, none, .value keys (some serializer)⟩) ⟨keys, serializer⟩
      (Option.isSome_iff_exists.2 ⟨serializer, known⟩) new.storage new.states new.names
      (by show "k" ≠ ""; decide) rfl writes
  rw [Step.perform, Step.beside, Action.perform_of]
  dsimp only
  rw [opened]
  refine ⟨_, ?_, ?_, ?_, by rw [states]; rfl, rfl, rfl, rfl, ⟨bytes, rfl⟩,
    ⟨_, sampler_newTracker metered enabled, Sampler.running_of _, Nat.le_add_left _ _⟩, m',
    metrics'.trans registered, refuses⟩
  -- the context is still the one in which the key was made current
  · rw [context]
    rintro _ ⟨⟩
  · rw [context]
    exact ⟨_, rfl⟩
  · refine ⟨bytes, ?_⟩
    have current : (b.setKey key).context.key = some key := rfl
    rw [context, KeyContext.serialize, current, known]
    exact writes

/-- Setting a value fails or takes one of the accesses that are left. -/
theorem set (blocked : b.Blocked v serializer family (left + 1) s) {x : v.Val} {bytes : Bytes}
    (writes : serializer.serialize x = .ok bytes) :
    ((call 0 (.value v) (.set x)).perform b).1 = .error .historyTooLarge ∨
      ∃ s', ((call 0 (.value v) (.set x)).perform b).2.Blocked v serializer family left s' := by
  obtain ⟨g, group⟩ := blocked.group
  obtain ⟨key, written⟩ := blocked.written
  obtain ⟨ns, current⟩ := blocked.ns
  obtain ⟨m, metrics, refuses⟩ := blocked.refuses
  obtain ⟨a, t, performed⟩ := NamedState.perform_set ⟨b.context, b.tableOf s, s.tracker⟩
    blocked.typed blocked.plain blocked.coherent group written current writes (b.conditions s)
  have refused : ∀ x : Sample, x.family = family → (b.conditions s).accepts x = false := by
    rintro x rfl
    show b.metrics.all (fun m => m.acceptsSample s.name x) = false
    rw [metrics]
    cases x with
    | latency op => exact refuses.accepts op
    | size op bytes => exact refuses.accepts op
  rw [call, Action.perform_bind_ok (Action.perform_get b),
    perform_onState blocked.found blocked.shared _ performed]
  -- the access is sampled, and its sample refused, or it is one of those in between
  rcases blocked.picks.observe_put refused a bytes with picked | picks
  · exact .inl (if_neg (Bool.eq_false_iff.1 picked))
  · have inside := (List.getElem?_eq_some_iff.1 blocked.found).1
    refine .inr ⟨_, .remember written, ⟨g, group⟩, ⟨key, written⟩, List.getElem?_set_self inside,
      blocked.typed, blocked.plain, blocked.shared, ⟨ns, current⟩, picks.congr ?_, ?_⟩
    · cases family <;> rfl
    · rw [afterWork, metrics]
      exact ⟨_, rfl, refuses_collect refuses _⟩

/-- As many values as are left cannot be set as the reference says. -/
theorem not_follows (blocked : b.Blocked v serializer family left s) {x : v.Val} {bytes : Bytes}
    (writes : serializer.serialize x = .ok bytes) {r : Reference keys} (listless : r.Listless) :
    ¬ r.Follows (List.replicate left (.call 0 (.value v) (.set x))) b := by
  -- each call that is answered as it should be leaves one access less
  induction left generalizing b r s with
  | zero => exact absurd rfl blocked.picks.left_ne_zero
  | succ left ih =>
      rintro ⟨r', takes, rest⟩
      rcases blocked.set writes with fault | ⟨s', blocked'⟩
      · exact takes.ne_fault fault
      · have listless' := takes.listless listless trivial
        exact ih blocked' listless' (rest listless'.fitsMemory)

end Blocked

end Backend

end KeyedState
