import KeyedState.Proofs.Backend.Faults

/-!
# Typed states follow the reference

A backend is answered as the reference in every run, whatever its settings, as long as it can set up
histories for all families that it tracks (`Backend.Represents.follows`). Where it cannot, there is
a run in which setting a value fails. So a new backend follows the reference in all runs exactly if
it is trackable.

Main statement: `typed_states_follow_reference_iff`.
-/

namespace KeyedState

open Std (ExtTreeMap)

variable {keys : Schema}

/-! ## Runs -/

namespace Backend.Represents

variable {used : Selection} {serializer : Serializer keys.Val} {b : Backend keys}
  {r : Reference keys}

/-- An operation is answered as the reference answers it, and the backend is that of the reference
again. -/
theorem step (rep : b.Represents used serializer r) (faithful : serializer.Faithful (used keys))
    (room : r.FitsMemory) {s : Step keys} (within : s.Within used r.format) :
    ∃ r', r.Takes s (s.perform.perform b).1 r' ∧
      (s.perform.perform b).2.Represents used serializer r' := by
  cases s with
  | setKey key =>
      -- a key that is set alone goes to the group that it hashes to, on both sides
      have assigned : b.setKey key =
          b.setKeyAndGroup key (KeyGroup.assign (keys.hash key) r.groups) := by
        rw [← rep.context.groups]
        rfl
      refine ⟨_, .setKey key, ?_⟩
      show (b.setKey key).Represents used serializer _
      rw [assigned]
      exact rep.setKeyAndGroup within _
  | setKeyAndGroup key g => exact ⟨_, .setKeyAndGroup key g, rep.setKeyAndGroup within g⟩
  | setGroup g => exact ⟨_, .setGroup g, rep.setGroup g⟩
  | setClock now =>
      exact ⟨r, .setClock now, rep.context, rep.names, rep.wellNamed, rep.format, rep.heap,
        rep.length, rep.states, rep.unnamed, rep.admits, rep.trackable⟩
  | create d namespaces =>
      obtain ⟨plain, faithful', faithful''⟩ := within
      obtain ⟨outcome, b', d', r', performed, opens, rep'⟩ :=
        rep.getOrCreate plain faithful' namespaces faithful''
      refine ⟨r', ?_⟩
      rw [Step.perform, Step.beside, Action.perform_of, performed]
      exact ⟨.create opens, rep'⟩
  | getPartitioned d namespaces ns =>
      obtain ⟨plain, faithful', faithful'', selected⟩ := within
      exact rep.getPartitioned plain faithful' namespaces faithful'' selected
  | setNamespace id schema ns =>
      rcases rep.setNamespace id within with
        ⟨r', b', named, performed, rep'⟩ | ⟨e, refused, performed⟩
      · rw [Step.perform, performed]
        exact ⟨r', .setNamespace named, rep'⟩
      · rw [Step.perform, performed]
        exact ⟨r, .keepNamespace refused, rep⟩
  | call id type c => exact rep.call faithful room id within

/-- A run is answered as the reference answers it. -/
theorem follows (rep : b.Represents used serializer r) (faithful : serializer.Faithful (used keys))
    (room : r.FitsMemory) {steps : List (Step keys)}
    (within : ∀ s ∈ steps, s.Within used r.format) : r.Follows steps b := by
  -- the backend represents the reference all along, and the format stays what it is
  induction steps generalizing b r with
  | nil => trivial
  | cons s rest ih =>
      obtain ⟨r', takes, rep'⟩ := rep.step faithful room (within s List.mem_cons_self)
      refine ⟨r', takes, fun room' => ih rep' room' fun s' member => ?_⟩
      rw [takes.format_eq]
      exact within s' (List.mem_cons_of_mem s member)

end Backend.Represents

/-! ## New backends -/

namespace Backend.IsNew

variable {used : Selection} {config : BackendConfig} {serializer : Serializer keys.Val}
  {b : Backend keys}

/-- A new backend is that of a reference without a key and without states. -/
theorem represents (new : b.IsNew config serializer) (trackable : b.Trackable) :
    b.Represents used serializer (.initial config.groups config.execution.format) := by
  have current : b.context.Represents used serializer
      (.initial config.groups config.execution.format) := by
    rw [new.context]
    refine ⟨rfl, rfl, rfl, rfl, ?_, ?_⟩
    · rintro key ⟨⟩
    · rintro bytes ⟨⟩
  have named : b.names.Represents
      (.initial config.groups config.execution.format : Reference keys) := by
    rw [new.names]
    refine ⟨fun name => ExtTreeMap.getElem?_empty, ?_⟩
    rintro name id ⟨⟩
  -- there are no states and no tables yet, so the rest holds of nothing
  refine ⟨current, named, ⟨?_, ?_⟩, congrArg (·.format) new.execution, ⟨_, new.storage⟩, ?_, ?_,
    ?_, ?_, trackable⟩
  · rintro name id ⟨⟩
  · rintro id x ⟨⟩
  · rw [new.states]
    rfl
  · rintro id s x found ⟨⟩
  · intro name _ t opened
    rw [new.storage] at opened
    cases (ExtTreeMap.getElem?_empty (a := name)).symm.trans opened
  · intro s member
    rw [new.states] at member
    cases member

/-- A new backend follows the reference, if it can set up its histories. -/
theorem follows (new : b.IsNew config serializer) (trackable : b.Trackable)
    (faithful : serializer.Faithful (used keys)) {steps : List (Step keys)}
    (within : ∀ s ∈ steps, s.Within used config.execution.format) :
    (Reference.initial config.groups config.execution.format).Follows steps b :=
  (new.represents trackable).follows faithful (fun _ member => absurd member List.not_mem_nil)
    within

/-- If a family is tracked whose histories cannot be set up, some run of one key and one value state
goes another way. -/
theorem not_follows (new : b.IsNew config serializer) (untrackable : ¬ b.Trackable)
    (faithful : serializer.Faithful (used keys)) {key : keys.Val} (selected : used keys key) :
    ∃ steps : List (Step keys), (∀ s ∈ steps, s.Within used config.execution.format) ∧
      ¬ (Reference.initial config.groups config.execution.format).Follows steps b := by
  obtain ⟨bytes, -, writes⟩ := faithful.exists_writes selected
  simp only [Trackable, not_forall, Nat.not_le] at untrackable
  obtain ⟨m, metrics, family, enabled, large⟩ := untrackable
  refine ⟨.setKey key :: .getPartitioned ⟨"k", .initial, none, .value keys (some serializer)⟩
    ⟨keys, serializer⟩ key :: List.replicate
      (Sampler.of (b.sampling family).interval).interval.toNat (.call 0 (.value keys) (.set key)),
    ?_, ?_⟩
  · intro s member
    rcases List.mem_cons.1 member with rfl | member
    · exact selected
    rcases List.mem_cons.1 member with rfl | member
    · exact ⟨rfl, faithful, faithful, selected⟩
    · rw [(List.mem_replicate.1 member).2]
      exact selected
  -- the reference has the room for each of the steps, since none of them makes a list
  · rintro ⟨r₁, takes₁, rest₁⟩
    have listless₁ : r₁.Listless :=
      takes₁.listless (fun _ member => absurd member List.not_mem_nil) trivial
    obtain ⟨r₂, takes₂, rest₂⟩ := rest₁ listless₁.fitsMemory
    have listless₂ : r₂.Listless := takes₂.listless listless₁ fun _ => StateType.noConfusion
    obtain ⟨s, blocked⟩ := Blocked.of_new new metrics enabled large writes
    exact blocked.not_follows writes listless₂ (rest₂ listless₂.fitsMemory)

end Backend.IsNew

/-- A new backend is answered in all runs as the reference, which knows neither bytes nor tables nor
samples, exactly if it can set up the histories of all families that it tracks. -/
theorem typed_states_follow_reference_iff {used : Selection} {config : BackendConfig}
    {serializer : Serializer keys.Val} {b : Backend keys} (new : b.IsNew config serializer)
    (faithful : serializer.Faithful (used keys)) {key : keys.Val} (selected : used keys key) :
    (∀ steps : List (Step keys), (∀ s ∈ steps, s.Within used config.execution.format) →
      (Reference.initial config.groups config.execution.format).Follows steps b) ↔ b.Trackable := by
  constructor
  · intro follows
    by_contra untrackable
    obtain ⟨steps, within, otherwise⟩ := new.not_follows untrackable faithful selected
    exact otherwise (follows steps within)
  · exact fun trackable steps within => new.follows trackable faithful within

/-- An operator for text keys that samples the sizes of all that is moved. -/
def Backend.sized (history : UInt64) : Backend .string :=
  { plain 4 ⟨0, 3⟩ with size := ⟨true, 1, history⟩, metered := true, metrics := some (.of 128) }

theorem Backend.isNew_sized {history : UInt64} (positive : ¬ history = 0) :
    (sized history).IsNew ⟨4, ⟨0, 3⟩, .initial, .initial, ⟨true, 1, history⟩⟩
      (.binary .string) where
  built := by
    refine ⟨true, ?_⟩
    simp only [BackendCore.build, SamplingConfig.validate, if_neg positive]
    rfl
  storage := rfl
  states := rfl
  metrics := by
    rintro m ⟨⟩
    exact ⟨128, rfl⟩

/-- Histories of 128 sizes are not noticed, histories of 2^60 sizes are. -/
theorem typed_states_follow_reference_iff_sized :
    (∀ steps : List (Step .string), (∀ s ∈ steps, s.Within Schema.Storable .binary) →
      (Reference.initial 4 .binary).Follows steps (.sized 128)) ∧
    ¬ ∀ steps : List (Step .string), (∀ s ∈ steps, s.Within Schema.Storable .binary) →
      (Reference.initial 4 .binary).Follows steps (.sized 1152921504606846976) := by
  have selected : Schema.Storable .string "k" := by
    constructor
    · show _ < _
      decide
    · decide
  constructor
  · refine (typed_states_follow_reference_iff (Backend.isNew_sized (by decide))
      (Serializer.faithful_binary .string) selected).2 ?_
    rintro m ⟨⟩ family enabled
    cases family with
    | latency => cases enabled
    | size => decide
  · intro follows
    have trackable := (typed_states_follow_reference_iff (Backend.isNew_sized (by decide))
      (Serializer.faithful_binary .string) selected).1 follows
    exact absurd (trackable _ rfl .size rfl) (by decide)

end KeyedState
