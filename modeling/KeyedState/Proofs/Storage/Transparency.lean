import KeyedState.Backend.States
import KeyedState.Proofs.Storage.Tracking
import Mathlib.Data.List.Forall2

/-!
# Tracking beside the store

A run of requests to a store, whatever store that is, is compared with the same run behind the layer
that takes samples. Both send the store beneath the same requests in the same order and leave it as
the same one, also where expiry is in between and sends requests of its own. What is recorded is
taken from what the caller sees: the requests as they were made, and the answers without stamps.

The answers are the same as well, as long as every sample that may be taken can be recorded. That is
so if there is room for it: there is a history already, or one of the capacity that is asked for can
be set up (`Tracking.HasRoom`). Then a family that is tracked takes every `n`-th of its samples.
Where there is no room, some run to some store has a fault in the place of an answer.

Main statement: `tracking_is_unnoticed_iff`.
-/

namespace KeyedState

/-! ## Runs of requests -/

/-- A request and what it was answered with. -/
structure Exchange where
  request : Request
  answer : Except StateError request.Reply

/-- The samples of an exchange, if all of them are picked. -/
def Exchange.samples (e : Exchange) : List Sample := e.request.samples e.answer

/-- The same request, which ended in a fault of the layer above. -/
def Exchange.faulted (e : Exchange) : Exchange := ⟨e.request, .error .historyTooLarge⟩

/-- A sample may also be given by an exchange that did not end in the fault of the layer above. -/
theorem Exchange.exists_answered {e : Exchange} {x : Sample} (given : x ∈ e.samples) :
    ∃ e' : Exchange, x ∈ e'.samples ∧ e'.answer ≠ .error .historyTooLarge := by
  obtain ⟨r, answer⟩ := e
  rcases List.mem_cons.1 given with rfl | moved
  · exact ⟨⟨r, .error .unknownState⟩, List.mem_cons_self, nofun⟩
  · refine ⟨⟨r, answer⟩, given, fun fault => ?_⟩
    -- what is refused has moved nothing
    obtain rfl : answer = .error .historyTooLarge := fault
    cases r <;> cases moved

namespace Store

variable {σ : Type}

/-- A store that answers one request, always in the same way. -/
def answering (e : Exchange) : Store Unit where
  perform r :=
    .lift (if same : e.request = r then same ▸ e.answer else .error .unknownState)

/-- The store with a list of the requests that it was sent, the latest last. -/
def logged (inner : Store σ) : Store (σ × List Request) where
  perform r := .of fun (s, log) =>
    let (outcome, s) := (inner.perform r).perform s
    (outcome, s, log ++ [r])

/-- The store behind expiry, if that is enabled. -/
def expiring (c : TtlConfig) (now : UInt64) (inner : Store σ) : Store σ :=
  if c.isEnabled then Ttl.store c now inner else inner

/-- Requests in turn, each at a time of its own: what they are answered with, and the state that
they leave. -/
def run (store : UInt64 → Store σ) : List (UInt64 × Request) → σ → List Exchange × σ
  | [], s => ([], s)
  | (now, r) :: rest, s =>
    let (outcome, s) := ((store now).perform r).perform s
    let (exchanges, s) := run store rest s
    (⟨r, outcome⟩ :: exchanges, s)

theorem run_cons {store : UInt64 → Store σ} {now : UInt64} {r : Request} {s s' : σ}
    {outcome : Except StateError r.Reply}
    (performed : ((store now).perform r).perform s = (outcome, s'))
    (rest : List (UInt64 × Request)) :
    run store ((now, r) :: rest) s =
      (⟨r, outcome⟩ :: (run store rest s').1, (run store rest s').2) := by
  rw [run, performed]

end Store

/-! ## Samples of a run -/

/-- The samples of a family. -/
def Sample.ofFamily (family : Tracked) (samples : List Sample) : List Sample :=
  samples.filter fun x => x.family = family

theorem Sample.ofFamily_append (family : Tracked) (l l' : List Sample) :
    ofFamily family (l ++ l') = ofFamily family l ++ ofFamily family l' :=
  List.filter_append ..

theorem Sample.ofFamily_cons (family : Tracked) (x : Sample) (l : List Sample) :
    ofFamily family (x :: l) = if x.family = family then x :: ofFamily family l
      else ofFamily family l := by
  rw [ofFamily, List.filter_cons]
  simp only [decide_eq_true_eq]
  rfl

/-- Every `n`-th element of a list, when `seen` of them have gone before. -/
def everyNth {α : Type} (n seen : Nat) (l : List α) : List α :=
  ((l.zipIdx (seen + 1)).filter fun x => n ∣ x.2).map Prod.fst

theorem everyNth_cons {α : Type} (n seen : Nat) (x : α) (l : List α) :
    everyNth n seen (x :: l) = (if n ∣ seen + 1 then [x] else []) ++ everyNth n (seen + 1) l := by
  rw [everyNth, List.zipIdx_cons, everyNth]
  by_cases due : n ∣ seen + 1 <;> simp [due]

namespace Tracker

variable {accepts : Sample → Bool} {t : Tracker} {family : Tracked}

/-- Counts samples in turn, up to the first one that is not accepted. -/
def countAll (accepts : Sample → Bool) : List Sample → Tracker → Bool × Tracker
  | [], t => (true, t)
  | x :: rest, t =>
    match t.count accepts x with
    | (false, t) => (false, t)
    | (true, t) => countAll accepts rest t

/-- To observe a request is to count its samples. -/
theorem observe_eq_countAll (accepts : Sample → Bool) (t : Tracker) (r : Request)
    (outcome : Except StateError r.Reply) :
    t.observe accepts r outcome = countAll accepts (r.samples outcome) t := by
  rw [observe, Request.samples, countAll, countLatency_eq]
  rcases t.count accepts (.latency r.operation) with ⟨_ | _, t'⟩
  · rfl
  · dsimp only
    cases r.movedBytes outcome with
    | none => rfl
    | some bytes =>
        show t'.countSize accepts r.operation bytes = countAll accepts [.size r.operation bytes] t'
        rw [countSize_eq, countAll]
        rcases t'.count accepts (.size r.operation bytes) with ⟨_ | _, _⟩ <;> rfl

/-- Samples behind others that were accepted. -/
theorem countAll_append {first : List Sample} (accepted : (countAll accepts first t).1 = true)
    (second : List Sample) :
    countAll accepts (first ++ second) t =
      countAll accepts second (countAll accepts first t).2 := by
  induction first generalizing t with
  | nil => rfl
  | cons x rest ih =>
      rw [List.cons_append, countAll, countAll]
      rw [countAll] at accepted
      rcases counted : t.count accepts x with ⟨_ | _, t'⟩
      · rw [counted] at accepted
        cases accepted
      · rw [counted] at accepted
        exact ih accepted

/-- A sample is recorded at most once, and if its family is tracked. -/
theorem samples_count (accepts : Sample → Bool) (t : Tracker) (x : Sample) :
    (t.count accepts x).2.samples = t.samples ∨
      (t.sampler x.family).isSome = true ∧ (t.count accepts x).2.samples = t.samples ++ [x] := by
  rw [count]
  cases t.sampler x.family with
  | none => exact .inl rfl
  | some s =>
      have same : (t.setSampler s.tick.2 x.family).samples = t.samples := by
        cases x.family <;> rfl
      dsimp only
      split
      · rw [take]
        split
        · exact .inr ⟨rfl, congrArg (· ++ [x]) same⟩
        · exact .inl same
      · exact .inl same

/-- What is recorded is part of what was counted, of families that are tracked. -/
theorem samples_countAll (accepts : Sample → Bool) (samples : List Sample) (t : Tracker) :
    ∃ taken, (countAll accepts samples t).2.samples = t.samples ++ taken ∧
      taken.Sublist (samples.filter fun x => (t.sampler x.family).isSome) := by
  induction samples generalizing t with
  | nil => exact ⟨[], (List.append_nil _).symm, List.Sublist.refl _⟩
  | cons x rest ih =>
      -- `first` is what counting the first sample has recorded
      obtain ⟨first, recorded, listed⟩ : ∃ first, (t.count accepts x).2.samples =
          t.samples ++ first ∧ first.Sublist ([x].filter fun x => (t.sampler x.family).isSome) := by
        rcases samples_count accepts t x with same | ⟨tracked, more⟩
        · exact ⟨[], same.trans (List.append_nil _).symm, List.nil_sublist _⟩
        · exact ⟨[x], more, by simp [tracked]⟩
      have alike := alike_count accepts t x
      rw [countAll, ← List.singleton_append, List.filter_append]
      rcases counted : t.count accepts x with ⟨_ | _, t'⟩
      · rw [counted] at recorded
        exact ⟨first, recorded, listed.trans (List.sublist_append_left _ _)⟩
      · rw [counted] at recorded alike
        obtain ⟨taken, recorded', listed'⟩ := ih t'
        refine ⟨first ++ taken, ?_, listed.append ?_⟩
        · rw [← List.append_assoc, ← recorded]
          exact recorded'
        · simpa only [alike _] using listed'

/-! ## Samples that are accepted -/

/-- Counting a sample of another family. -/
theorem ofFamily_count_of_ne {x : Sample} (other : x.family ≠ family) :
    Sample.ofFamily family (t.count accepts x).2.samples = Sample.ofFamily family t.samples := by
  rcases samples_count accepts t x with same | ⟨-, more⟩
  · rw [same]
  · rw [more, Sample.ofFamily_append, Sample.ofFamily_cons, if_neg other]
    exact List.append_nil _

/-- A sample that is accepted is recorded if it is picked. -/
theorem count_of_accepted {x : Sample} {s : Sampler} {n seen : Nat}
    (found : t.sampler x.family = some s) (counts : s.Counts n seen) (accepted : accepts x = true) :
    (t.count accepts x).2.samples = t.samples ++ (if n ∣ seen + 1 then [x] else []) ∧
      ∃ s', (t.count accepts x).2.sampler x.family = some s' ∧ s'.Counts n (seen + 1) := by
  have paced : t.Paced x.family (some n) seen := ⟨s, found, counts⟩
  obtain ⟨-, recorded, paced'⟩ := paced.count accepts x
  have due : (Pace.due (some n) (seen + 1) && accepts x) = decide (n ∣ seen + 1) := by
    rw [accepted, Bool.and_true]
    rfl
  refine ⟨?_, paced'⟩
  rw [recorded, due]
  simp only [decide_eq_true_eq]

/-- Samples that are accepted are all counted, and of each family every `n`-th one is recorded. -/
theorem countAll_of_accepted {samples : List Sample}
    (accepted : ∀ x ∈ samples, (t.sampler x.family).isSome = true → accepts x = true) :
    (countAll accepts samples t).1 = true ∧
      ∀ (family : Tracked) (s : Sampler) (n seen : Nat), t.sampler family = some s →
        s.Counts n seen → Sample.ofFamily family (countAll accepts samples t).2.samples =
          Sample.ofFamily family t.samples ++ everyNth n seen (Sample.ofFamily family samples) := by
  induction samples generalizing t with
  | nil => exact ⟨rfl, fun _ _ _ _ _ _ => (List.append_nil _).symm⟩
  | cons x rest ih =>
      have first : (t.count accepts x).1 = true :=
        count_of_accepts (accepted x List.mem_cons_self)
      have alike := alike_count accepts t x
      have later : ∀ y ∈ rest, ((t.count accepts x).2.sampler y.family).isSome = true →
          accepts y = true := fun y listed tracked =>
        accepted y (List.mem_cons_of_mem x listed) ((alike y.family).symm.trans tracked)
      obtain ⟨all, recorded⟩ := ih later
      rw [countAll]
      rcases counted : t.count accepts x with ⟨ok, t'⟩
      rw [counted] at first all recorded
      obtain rfl : ok = true := first
      refine ⟨all, fun family s n seen found counts => ?_⟩
      show Sample.ofFamily family (countAll accepts rest t').2.samples = _
      by_cases own : x.family = family
      · subst own
        obtain ⟨taken, s', found', counts'⟩ := count_of_accepted found counts
          (accepted x List.mem_cons_self (by rw [found]; rfl))
        rw [counted] at taken found'
        have later := recorded x.family s' n (seen + 1) found' counts'
        rw [later, taken, Sample.ofFamily_append, Sample.ofFamily_cons, if_pos rfl, everyNth_cons,
          List.append_assoc]
        by_cases due : n ∣ seen + 1
        · rw [if_pos due, Sample.ofFamily_cons, if_pos rfl]
          rfl
        · rw [if_neg due]
          rfl
      · have unmoved : (t.count accepts x).2.sampler family = t.sampler family :=
          sampler_count own
        have unrecorded : Sample.ofFamily family (t.count accepts x).2.samples =
            Sample.ofFamily family t.samples := ofFamily_count_of_ne own
        rw [counted] at unmoved unrecorded
        rw [recorded family s n seen (unmoved.trans found) counts, unrecorded,
          Sample.ofFamily_cons, if_neg own]

/-! ## Runs behind a tracker -/

variable {σ : Type}

/-- One step of a run behind a tracker: the store beneath is sent the same request, and its outcome
is passed on if the samples are accepted. -/
theorem run_store_cons {accepts : Sample → Bool} {inner : UInt64 → Store σ} {now : UInt64}
    {r : Request} {s s' : σ} {outcome : Except StateError r.Reply} {t t' : Tracker}
    {accepted : Bool} (beneath : ((inner now).perform r).perform s = (outcome, s'))
    (counted : countAll accepts (r.samples outcome) t = (accepted, t'))
    (rest : List (UInt64 × Request)) :
    Store.run (fun now => store accepts (inner now)) ((now, r) :: rest) (s, t) =
      let (exchanges, left) := Store.run (fun now => store accepts (inner now)) rest (s', t')
      (⟨r, if accepted then outcome else .error .historyTooLarge⟩ :: exchanges, left) := by
  rw [← observe_eq_countAll] at counted
  have performed : ((store accepts (inner now)).perform r).perform (s, t) =
      (if accepted then outcome else .error .historyTooLarge, s', t') := by
    rw [store, Action.perform_of]
    dsimp only
    rw [beneath]
    dsimp only
    rw [counted]
  exact Store.run_cons (s := (s, t)) performed rest

/-- No request changes which families are tracked. -/
theorem alike_countAll {accepts : Sample → Bool} {t t' : Tracker} {e : Exchange} {accepted : Bool}
    (counted : countAll accepts e.samples t = (accepted, t')) : t.Alike t' := by
  have alike := alike_observe accepts t e.request e.answer
  rw [observe_eq_countAll, show countAll accepts (e.request.samples e.answer) t = _ from counted]
    at alike
  exact alike

/-- A run behind a tracker has the effects of the run without it, its answers up to faults, and
records part of what the caller sees. -/
theorem run_store (accepts : Sample → Bool) (inner : UInt64 → Store σ)
    (requests : List (UInt64 × Request)) (s : σ) (t : Tracker) :
    let plain := Store.run inner requests s
    let tracked := Store.run (fun now => store accepts (inner now)) requests (s, t)
    tracked.2.1 = plain.2 ∧
      List.Forall₂ (fun e e' => e' = e ∨ e' = e.faulted) plain.1 tracked.1 ∧
      ∃ taken, tracked.2.2.samples = t.samples ++ taken ∧
        taken.Sublist ((plain.1.flatMap Exchange.samples).filter fun x =>
          (t.sampler x.family).isSome) := by
  induction requests generalizing s t with
  | nil => exact ⟨rfl, .nil, [], (List.append_nil _).symm, List.Sublist.refl _⟩
  | cons next rest ih =>
      obtain ⟨now, r⟩ := next
      rcases beneath : ((inner now).perform r).perform s with ⟨outcome, s'⟩
      rcases counted : countAll accepts (r.samples outcome) t with ⟨accepted, t'⟩
      obtain ⟨taken, recorded, listed⟩ := samples_countAll accepts (r.samples outcome) t
      obtain ⟨same, answers, taken', recorded', listed'⟩ := ih s' t'
      have alike : t.Alike t' := alike_countAll (e := ⟨r, outcome⟩) counted
      rw [counted] at recorded
      dsimp only
      rw [Store.run_cons beneath, run_store_cons beneath counted]
      refine ⟨same, .cons ?_ answers, taken ++ taken', ?_, ?_⟩
      · cases accepted with
        | true => exact .inl rfl
        | false => exact .inr rfl
      · exact recorded'.trans (by rw [recorded, List.append_assoc])
      · rw [List.flatMap_cons, List.filter_append]
        refine listed.append ?_
        simpa only [alike _] using listed'

/-- Where every sample of the tracked families is accepted, a run is not changed by the tracker,
which counts all samples. -/
theorem run_store_of_accepted {accepts : Sample → Bool} {t : Tracker}
    (accepted : ∀ e : Exchange, ∀ x ∈ e.samples, (t.sampler x.family).isSome = true →
      accepts x = true) (inner : UInt64 → Store σ) (requests : List (UInt64 × Request)) (s : σ) :
    Store.run (fun now => store accepts (inner now)) requests (s, t) =
      ((Store.run inner requests s).1, (Store.run inner requests s).2,
        (countAll accepts ((Store.run inner requests s).1.flatMap Exchange.samples) t).2) := by
  induction requests generalizing s t with
  | nil => rfl
  | cons next rest ih =>
      obtain ⟨now, r⟩ := next
      rcases beneath : ((inner now).perform r).perform s with ⟨outcome, s'⟩
      have all := (countAll_of_accepted (accepted ⟨r, outcome⟩)).1
      rcases counted : countAll accepts (Exchange.samples ⟨r, outcome⟩) t with ⟨ok, t'⟩
      have alike := alike_countAll counted
      have later : ∀ e : Exchange, ∀ x ∈ e.samples, (t'.sampler x.family).isSome = true →
          accepts x = true := fun e x given tracked =>
        accepted e x given ((alike x.family).symm.trans tracked)
      rw [Store.run_cons beneath, run_store_cons beneath counted, List.flatMap_cons,
        countAll_append all, ih later s', counted]
      rw [counted] at all
      obtain rfl : ok = true := all
      rfl

/-- A run of requests that give a sample that is refused ends in a fault, if it goes on until the
sample is picked. -/
theorem run_store_of_refused {accepts : Sample → Bool} {t : Tracker} {x : Sample} {n : Nat}
    (picks : t.PicksWithin x.family n) (refused : accepts x = false) {e : Exchange}
    (given : x ∈ e.samples) (other : e.answer ≠ .error .historyTooLarge)
    {inner : UInt64 → Store σ}
    (answers : ∀ s, (((inner 0).perform e.request).perform s).1 = e.answer) (s : σ) :
    (Store.run (fun now => store accepts (inner now)) (List.replicate n (0, e.request)) (s, t)).1 ≠
      (Store.run inner (List.replicate n (0, e.request)) s).1 := by
  induction n generalizing s t with
  | zero => exact absurd rfl picks.left_ne_zero
  | succ n ih =>
      rcases beneath : ((inner 0).perform e.request).perform s with ⟨outcome, s'⟩
      obtain rfl : outcome = e.answer := (congrArg Prod.fst beneath).symm.trans (answers s)
      rcases counted : countAll accepts (e.request.samples e.answer) t with ⟨accepted, t'⟩
      have next := picks.observe refused given
      rw [observe_eq_countAll, counted] at next
      rw [List.replicate_succ, Store.run_cons beneath, run_store_cons beneath counted]
      intro same
      obtain ⟨first, rest⟩ := List.cons.inj same
      rcases next with fault | picks'
      · obtain rfl : accepted = false := fault
        exact other (eq_of_heq (Exchange.mk.inj first).2).symm
      · exact ih picks' s' rest

end Tracker

/-! ## Tracked states -/

/-- How a state is tracked: its name, the settings of both families, and the histories that its
samples go into. Somebody who keeps no histories takes all samples. -/
structure Tracking where
  name : String
  latency : SamplingConfig
  size : SamplingConfig
  group : Option Metrics

namespace Tracking

variable {σ : Type} (c : Tracking)

/-- The settings of a family. -/
def sampling : Tracked → SamplingConfig
  | .latency => c.latency
  | .size => c.size

/-- The tracker before the first request. -/
def tracker : Tracker := .of c.latency c.size

/-- The histories before the first request, for which the capacities were registered. -/
def registered : Option Metrics :=
  c.group.map fun m =>
    Backend.registerFamily (Backend.registerFamily m .latency c.latency c.name) .size c.size c.name

/-- The histories after some samples. -/
def collected (samples : List Sample) : Option Metrics :=
  c.registered.map fun m => samples.foldl (fun m x => m.recordSample c.name x) m

/-- A sample can be recorded after some others. -/
def accepts (samples : List Sample) (x : Sample) : Bool :=
  (c.collected samples).all fun m => m.acceptsSample c.name x

/-- The store of the state around the one beneath. -/
def store (inner : Store σ) : Store (σ × Tracker) where
  perform r := .of fun (s, t) =>
    ((Tracker.store (c.accepts t.samples) inner).perform r).perform (s, t)

/-- A run behind the tracker and behind expiry. Next to the state of the store beneath it keeps what
that was sent. -/
def run (inner : Store σ) (ttl : TtlConfig) (requests : List (UInt64 × Request)) (s : σ) :
    List Exchange × (σ × List Request) × Tracker :=
  Store.run (fun now => c.store (inner.logged.expiring ttl now)) requests ((s, []), c.tracker)

end Tracking

/-- The same run without the tracker. -/
def Store.untracked {σ : Type} (inner : Store σ) (ttl : TtlConfig)
    (requests : List (UInt64 × Request)) (s : σ) : List Exchange × σ × List Request :=
  run (fun now => inner.logged.expiring ttl now) requests (s, [])

namespace Tracking

variable {σ : Type} {c : Tracking}

/-- There is room for every sample that may be taken: its history is there, or can be set up. -/
def HasRoom (c : Tracking) : Prop :=
  ∀ m, c.group = some m → ∀ (e : Exchange), ∀ x ∈ e.samples,
    (c.sampling x.family).enabled = true →
      ((m.histories x.family).history c.name x.operation).isSome = true ∨
        (c.sampling x.family).history.toNat ≤ SampleHistory.greatestCapacity

/-- Samples do not change what is accepted. -/
theorem accepts_eq (c : Tracking) (samples : List Sample) : c.accepts samples = c.accepts [] := by
  funext x
  rw [accepts, accepts, collected, collected]
  cases c.registered with
  | none => rfl
  | some m => exact m.acceptsSample_collect c.name c.name samples x

theorem store_eq (c : Tracking) (inner : Store σ) :
    c.store inner = Tracker.store (c.accepts []) inner := by
  have perform (r : Request) :
      (c.store inner).perform r = (Tracker.store (c.accepts []) inner).perform r := by
    funext ⟨s, t⟩
    show ((Tracker.store (c.accepts t.samples) inner).perform r).perform (s, t) =
      ((Tracker.store (c.accepts []) inner).perform r).perform (s, t)
    rw [c.accepts_eq t.samples]
  exact congrArg Store.mk (funext perform)

theorem run_eq (c : Tracking) (inner : Store σ) (ttl : TtlConfig)
    (requests : List (UInt64 × Request)) (s : σ) :
    c.run inner ttl requests s =
      Store.run (fun now => Tracker.store (c.accepts []) (inner.logged.expiring ttl now)) requests
        ((s, []), c.tracker) := by
  simp only [run, store_eq]

/-- A backend registers the capacities of a new state. -/
theorem registerTracking_eq {keys : Schema} (b : Backend keys) (name : String) :
    (b.registerTracking name).metrics =
      (Tracking.mk name b.latency b.size b.metrics).collected [] := by
  rw [collected, registered, Option.map_map]
  rfl

/-- The store of a named state is a tracked one, also after the backend has taken in samples of the
state. -/
theorem store_conditions {keys : Schema} {b : Backend keys} {s : NamedState}
    (named : s.name = c.name) {samples : List Sample} (metrics : b.metrics = c.collected samples) :
    s.store (b.conditions s) = c.store (Table.store.expiring s.ttl b.now) := by
  have accepted : (b.conditions s).accepts = c.accepts samples := by
    funext x
    rw [Backend.conditions, accepts, metrics, named]
  rw [store_eq, ← c.accepts_eq samples, ← accepted]
  rfl

/-- The sampler of a family. -/
theorem sampler_tracker (c : Tracking) (family : Tracked) :
    c.tracker.sampler family =
      if (c.sampling family).enabled then some (.of (c.sampling family).interval) else none := by
  cases family <;> rfl

theorem isSome_sampler_tracker (c : Tracking) (family : Tracked) :
    (c.tracker.sampler family).isSome = (c.sampling family).enabled := by
  rw [sampler_tracker]
  cases (c.sampling family).enabled <;> rfl

/-- Registering the capacities of a family sets up no history and drops none. -/
theorem isSome_history_registerFamily (m : Metrics) (family family' : Tracked)
    (config : SamplingConfig) (name : String) (op : Operation) :
    (((Backend.registerFamily m family config name).histories family').history name op).isSome =
      ((m.histories family').history name op).isSome := by
  rw [Backend.registerFamily]
  split
  · exact m.isSome_history_register family family' name name _ op
  · rfl

theorem accepts_registerFamily (m : Metrics) (family family' : Tracked) (config : SamplingConfig)
    (name : String) (op : Operation) :
    (Backend.registerFamily m family config name).accepts family' name op =
      if config.enabled = true ∧ family = family' then
        ((m.histories family').history name op).isSome ||
          decide (max config.history.toNat 1 ≤ SampleHistory.greatestCapacity)
      else m.accepts family' name op := by
  rw [Backend.registerFamily]
  by_cases enabled : config.enabled = true
  · simp only [enabled, if_true, true_and, Metrics.accepts_register, and_true]
  · rw [if_neg enabled, if_neg fun both => enabled both.1]

/-- Samples of a tracked family are accepted where there is room for them. -/
theorem accepts_iff {x : Sample} (enabled : (c.sampling x.family).enabled = true) :
    c.accepts [] x = true ↔ ∀ m, c.group = some m →
      ((m.histories x.family).history c.name x.operation).isSome = true ∨
        (c.sampling x.family).history.toNat ≤ SampleHistory.greatestCapacity := by
  rw [accepts, collected, registered]
  cases c.group with
  | none => exact iff_of_true rfl nofun
  | some m =>
      show (Backend.registerFamily _ _ _ _).acceptsSample c.name x = true ↔ _
      have accepted : (Backend.registerFamily (Backend.registerFamily m .latency c.latency c.name)
          .size c.size c.name).accepts x.family c.name x.operation =
            (((m.histories x.family).history c.name x.operation).isSome ||
              decide (max (c.sampling x.family).history.toNat 1 ≤
                SampleHistory.greatestCapacity)) := by
        cases x with
        | latency op =>
            rw [accepts_registerFamily, if_neg fun both => Tracked.noConfusion both.2,
              accepts_registerFamily, if_pos ⟨enabled, rfl⟩]
            rfl
        | size op bytes =>
            rw [accepts_registerFamily, if_pos ⟨enabled, rfl⟩, isSome_history_registerFamily]
            rfl
      rw [Metrics.acceptsSample_eq, accepted, Bool.or_eq_true, decide_eq_true_eq, Nat.max_le,
        and_iff_left (by decide)]
      exact ⟨fun room _ same => Option.some.inj same ▸ room, fun room => room m rfl⟩

theorem hasRoom_iff :
    c.HasRoom ↔ ∀ e : Exchange, ∀ x ∈ e.samples, (c.tracker.sampler x.family).isSome = true →
      c.accepts [] x = true := by
  simp only [isSome_sampler_tracker]
  constructor
  · intro room e x given enabled
    exact (accepts_iff enabled).2 fun m metrics => room m metrics e x given enabled
  · intro accepted m metrics e x given enabled
    exact (accepts_iff enabled).1 (accepted e x given enabled) m metrics

/-- A tracked family picks a sample within its interval. -/
theorem picksWithin_tracker {family : Tracked}
    (tracked : (c.tracker.sampler family).isSome = true) :
    c.tracker.PicksWithin family (Sampler.of (c.sampling family).interval).interval.toNat := by
  have sampler := c.sampler_tracker family
  split at sampler
  · refine ⟨_, sampler, Sampler.running_of _, ?_⟩
    exact Nat.le_add_left _ _
  · rw [sampler] at tracked
    cases tracked

/-- Where there is no room for some sample, it is told from the answers. -/
theorem hasRoom_of_unnoticed
    (unnoticed : ∀ {σ : Type} (inner : Store σ) (ttl : TtlConfig)
      (requests : List (UInt64 × Request)) (s : σ),
        (c.run inner ttl requests s).1 = (inner.untracked ttl requests s).1) : c.HasRoom := by
  rw [hasRoom_iff]
  intro e x given tracked
  by_contra refused
  obtain ⟨e', given', other⟩ := Exchange.exists_answered given
  have answers (s : Unit × List Request) :
      ((((Store.answering e').logged.expiring .initial 0).perform e'.request).perform s).1 =
        e'.answer := by
    show (if same : e'.request = e'.request then same ▸ e'.answer else _) = _
    rw [dif_pos rfl]
  have same := unnoticed (Store.answering e') .initial
    (List.replicate (Sampler.of (c.sampling x.family).interval).interval.toNat (0, e'.request)) ()
  rw [run_eq] at same
  exact Tracker.run_store_of_refused (picksWithin_tracker tracked) (Bool.eq_false_iff.2 refused)
    given' other answers ((), []) same

end Tracking

/-- **Tracking is not noticed if and only if there is room for its samples.** Whatever the store
beneath is, it is sent the same requests and left as the same one, every answer is the same or a
fault in its place, and only samples of what the caller sees are recorded. Where there is room, no
answer is a fault, and every `n`-th sample of a tracked family is recorded. -/
theorem tracking_is_unnoticed_iff (c : Tracking) :
    (∀ {σ : Type} (inner : Store σ) (ttl : TtlConfig) (requests : List (UInt64 × Request)) (s : σ),
      let plain := inner.untracked ttl requests s
      let tracked := c.run inner ttl requests s
      tracked.2.1 = plain.2 ∧
        List.Forall₂ (fun e e' => e' = e ∨ e' = e.faulted) plain.1 tracked.1 ∧
        tracked.2.2.samples.Sublist ((plain.1.flatMap Exchange.samples).filter fun x =>
          (c.sampling x.family).enabled)) ∧
    ((∀ {σ : Type} (inner : Store σ) (ttl : TtlConfig) (requests : List (UInt64 × Request)) (s : σ),
      (c.run inner ttl requests s).1 = (inner.untracked ttl requests s).1) ↔ c.HasRoom) ∧
    (c.HasRoom → ∀ {σ : Type} (inner : Store σ) (ttl : TtlConfig)
      (requests : List (UInt64 × Request)) (s : σ) (family : Tracked),
        (c.sampling family).enabled = true →
          Sample.ofFamily family (c.run inner ttl requests s).2.2.samples =
            everyNth (max (c.sampling family).interval.toNat 1) 0 (Sample.ofFamily family
              ((inner.untracked ttl requests s).1.flatMap Exchange.samples))) := by
  refine ⟨fun inner ttl requests s => ?_, ⟨Tracking.hasRoom_of_unnoticed, ?_⟩, ?_⟩
  · obtain ⟨same, answers, taken, recorded, listed⟩ := Tracker.run_store (c.accepts [])
      (fun now => inner.logged.expiring ttl now) requests (s, []) c.tracker
    simp only [Tracking.isSome_sampler_tracker] at listed
    dsimp only
    rw [Tracking.run_eq]
    refine ⟨same, answers, ?_⟩
    rw [recorded]
    exact listed
  · intro room σ inner ttl requests s
    rw [Tracking.run_eq, Tracker.run_store_of_accepted (Tracking.hasRoom_iff.1 room)]
    rfl
  · intro room σ inner ttl requests s family enabled
    have accepted := Tracking.hasRoom_iff.1 room
    have sampler := c.sampler_tracker family
    rw [if_pos enabled] at sampler
    rw [Tracking.run_eq, Tracker.run_store_of_accepted accepted]
    refine (Tracker.countAll_of_accepted ?_).2 family _ _ 0 sampler (Sampler.counts_of _)
    intro x listed tracked
    obtain ⟨e, -, given⟩ := List.mem_flatMap.1 listed
    exact accepted e x given tracked

/-- A state of which every second latency and all sizes are sampled. -/
def Tracking.counting (history : UInt64) : Tracking :=
  ⟨"count", ⟨true, 2, history⟩, ⟨true, 1, history⟩, some (.of 16)⟩

/-- Behind expiry a value of two bytes is stored in ten, and counts as two beside its key. -/
example :
    ((Tracking.counting 128).run Table.store ⟨.ofMillis 1000, .onWrite, .neverReturnExpired⟩
      [(0, .put ⟨⟨0, [1], []⟩, none⟩ [7, 8]), (5, .get ⟨⟨0, [1], []⟩, none⟩)]
      (.empty .value)).2.2.samples = [.size .put 3, .latency .get, .size .get 3] := by
  decide +kernel

/-- Histories of 128 samples are not noticed, and histories of 2^60 samples are. -/
theorem tracking_is_unnoticed_iff_counting :
    (∀ {σ : Type} (inner : Store σ) (ttl : TtlConfig) (requests : List (UInt64 × Request)) (s : σ),
      ((Tracking.counting 128).run inner ttl requests s).1 =
        (inner.untracked ttl requests s).1) ∧
    ∃ (σ : Type) (inner : Store σ) (ttl : TtlConfig) (requests : List (UInt64 × Request)) (s : σ),
      ((Tracking.counting 0x1000000000000000).run inner ttl requests s).1 ≠
        (inner.untracked ttl requests s).1 := by
  constructor
  · have small : (128 : UInt64).toNat ≤ SampleHistory.greatestCapacity := by decide
    have room : (Tracking.counting 128).HasRoom := fun m _ e x _ _ => by
      cases x <;> exact .inr small
    intro σ inner ttl requests s
    exact (tracking_is_unnoticed_iff (.counting 128)).2.1.2 room inner ttl requests s
  · by_contra unnoticed
    push Not at unnoticed
    have room := (tracking_is_unnoticed_iff (.counting 0x1000000000000000)).2.1.1
      fun inner ttl requests s => unnoticed _ inner ttl requests s
    have large : ¬ (0x1000000000000000 : UInt64).toNat ≤ SampleHistory.greatestCapacity := by decide
    rcases room (.of 16) rfl ⟨.clear ⟨0, [], []⟩, .ok ()⟩ (.latency .clear) List.mem_cons_self
      rfl with there | small
    · cases there
    · exact large small

end KeyedState
