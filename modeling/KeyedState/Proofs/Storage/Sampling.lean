import KeyedState.Proofs.Metrics.Histories
import KeyedState.Proofs.Storage.Transparency

/-!
# Which samples are recorded

Behind a tracker, two things can keep a sample from being recorded: it is not due, or it is not
accepted. Latencies are due at every `n`-th request, whatever that was answered. Sizes are due at
every `n`-th exchange that has moved data, where exchanges are left out whose own latency was not
accepted (`Tracker.timely`). One exchange moves both families on (`Tracker.Paces.observe`), and a
run of them accordingly (`Tracker.Paces.observeAll`).

What is recorded goes into the histories of its state, the latest behind the others
(`Metrics.Keeps.collect`). Where all samples can be recorded, exactly every `n`-th one is
(`Tracking.HasRoom.samplesExactly`), and only there (`Tracking.hasRoom_of_samplesExactly`): a run of
equal exchanges is short of a sample that is not accepted.

Main statement: `sampling_is_exact_iff`.
-/

namespace KeyedState

/-! ## Every so many elements of a list -/

section EveryNth

variable {α : Type}

theorem mem_of_mem_everyNth {n seen : Nat} {x : α} {l : List α} (taken : x ∈ everyNth n seen l) :
    x ∈ l := by
  induction l generalizing seen with
  | nil => exact taken
  | cons y rest ih =>
      rw [everyNth_cons, List.mem_append] at taken
      rcases taken with first | later
      · by_cases due : n ∣ seen + 1
        · rw [if_pos due] at first
          rw [List.mem_singleton.1 first]
          exact List.mem_cons_self
        · rw [if_neg due] at first
          cases first
      · exact List.mem_cons_of_mem y (ih later)

/-- As many elements are taken as there are multiples of `n` among their numbers. -/
theorem length_everyNth (n seen : Nat) (l : List α) :
    (everyNth n seen l).length + seen / n = (seen + l.length) / n := by
  induction l generalizing seen with
  | nil =>
      rw [List.length_nil, Nat.add_zero]
      exact Nat.zero_add _
  | cons x rest ih =>
      have later := ih (seen + 1)
      -- the quotient goes up with every multiple
      have progress : (seen + 1) / n = seen / n + if n ∣ seen + 1 then 1 else 0 := Nat.succ_div
      rw [everyNth_cons, List.length_append, List.length_cons, Nat.add_comm rest.length,
        ← Nat.add_assoc, ← later, progress]
      split
      · rw [List.length_singleton]
        omega
      · rw [List.length_nil]
        omega

/-- Where `left` elements stand before the first one that is taken, `n` more stand before each one
behind it. -/
theorem getElem?_everyNth {n seen left : Nat} (next : n ∣ seen + left + 1) (few : left < n)
    (l : List α) (j : Nat) : (everyNth n seen l)[j]? = l[left + n * j]? := by
  induction l generalizing seen left j with
  | nil =>
      rw [List.getElem?_nil]
      exact List.getElem?_nil
  | cons x rest ih =>
      rw [everyNth_cons]
      cases left with
      | zero =>
          rw [if_pos next, List.singleton_append]
          cases j with
          | zero => rfl
          | succ j =>
              -- behind an element that is taken, `n - 1` stand before the next one
              have next' : n ∣ seen + 1 + (n - 1) + 1 := by
                rw [Nat.add_assoc, Nat.sub_add_cancel few]
                exact Nat.dvd_add next (Nat.dvd_refl n)
              have index : 0 + n * (j + 1) = n - 1 + n * j + 1 := by
                rw [Nat.mul_succ]
                omega
              rw [List.getElem?_cons_succ, ih next' (Nat.sub_lt few Nat.one_pos), index,
                List.getElem?_cons_succ]
      | succ left =>
          -- a number is due at most once in `n`, and the next one is ahead
          have early : ¬ n ∣ seen + 1 := by
            intro due
            have both : n ∣ seen + 1 + (left + 1) := by
              rw [Nat.add_right_comm]
              exact next
            have behind := (Nat.dvd_add_right due).1 both
            exact absurd (Nat.le_of_dvd (Nat.succ_pos left) behind) (Nat.not_le.2 few)
          have next' : n ∣ seen + 1 + left + 1 := by
            rw [Nat.add_right_comm seen 1 left]
            exact next
          rw [if_neg early, List.nil_append, ih next' (Nat.lt_of_succ_lt few),
            Nat.add_right_comm left 1, List.getElem?_cons_succ]

namespace Pace

/-- The elements of a list that are taken, when `seen` of them have gone before. -/
def taken (pace : Pace) (seen : Nat) (l : List α) : List α := pace.elim [] (everyNth · seen l)

theorem taken_cons (pace : Pace) (seen : Nat) (x : α) (l : List α) :
    pace.taken seen (x :: l) =
      (if pace.due (seen + 1) = true then [x] else []) ++ pace.taken (seen + 1) l := by
  cases pace with
  | none => rfl
  | some n =>
      show everyNth n seen (x :: l) = (if decide (n ∣ seen + 1) = true then [x] else []) ++ _
      simp only [decide_eq_true_eq]
      exact everyNth_cons n seen x l

theorem taken_nil (pace : Pace) (seen : Nat) : pace.taken seen ([] : List α) = [] := by
  cases pace <;> rfl

theorem filter_taken_singleton (pace : Pace) (seen : Nat) (x : α) (p : α → Bool) :
    (pace.taken seen [x]).filter p = if (pace.due (seen + 1) && p x) = true then [x] else [] := by
  rw [taken_cons, taken_nil, List.append_nil]
  cases pace.due (seen + 1) with
  | false => rfl
  | true =>
      rw [if_pos rfl, Bool.true_and, List.filter_cons]
      rfl

theorem taken_append (pace : Pace) (seen : Nat) (l l' : List α) :
    pace.taken seen (l ++ l') = pace.taken seen l ++ pace.taken (seen + l.length) l' := by
  induction l generalizing seen with
  | nil =>
      cases pace <;> rfl
  | cons x rest ih =>
      rw [List.cons_append, taken_cons, taken_cons, ih, List.append_assoc, List.length_cons,
        Nat.add_right_comm, Nat.add_assoc]

theorem mem_of_mem_taken {pace : Pace} {seen : Nat} {x : α} {l : List α}
    (listed : x ∈ pace.taken seen l) : x ∈ l := by
  cases pace with
  | none => cases listed
  | some n => exact mem_of_mem_everyNth listed

end Pace

end EveryNth

/-! ## Samples by family -/

namespace Sample

/-- The kind of request whose latency the sample is. -/
def latency? : Sample → Option Operation
  | latency op => some op
  | size _ _ => none

/-- The kind of request whose size the sample is, and the size. -/
def size? : Sample → Option (Operation × Nat)
  | latency _ => none
  | size op bytes => some (op, bytes)

end Sample

namespace Exchange

/-- The kind of the request. -/
def operation (e : Exchange) : Operation := e.request.operation

/-- What was moved, if the exchange counts as one that moves data. -/
def moved? (e : Exchange) : Option (Operation × Nat) :=
  (e.request.movedBytes e.answer).map (e.operation, ·)

theorem latency_mem_samples (e : Exchange) : .latency e.operation ∈ e.samples := List.mem_cons_self

theorem size_mem_samples {e : Exchange} {x : Operation × Nat} (moved : e.moved? = some x) :
    .size x.1 x.2 ∈ e.samples := by
  obtain ⟨bytes, given, rfl⟩ := Option.map_eq_some_iff.1 moved
  apply List.mem_cons_of_mem
  rw [given]
  exact List.mem_cons_self

/-- A sample of an exchange is its latency, or the size of what was moved. -/
theorem mem_samples_cases {e : Exchange} {x : Sample} (given : x ∈ e.samples) :
    x = .latency e.operation ∨ ∃ y, e.moved? = some y ∧ x = .size y.1 y.2 := by
  rcases List.mem_cons.1 given with rfl | moved
  · exact .inl rfl
  · obtain ⟨bytes, listed, rfl⟩ := List.mem_map.1 moved
    exact .inr ⟨(e.operation, bytes), Option.map_eq_some_iff.2
      ⟨bytes, Option.mem_toList.1 listed, rfl⟩, rfl⟩

end Exchange

/-! ## Trackers at a pace -/

namespace Tracker

variable {accepts : Sample → Bool} {t t' t'' : Tracker} {pace pace' : Pace} {seen moved : Nat}

/-- Both families are sampled, each at a pace of its own, and have seen so many accesses. -/
structure Paces (t : Tracker) (pace pace' : Pace) (seen moved : Nat) : Prop where
  latency : t.Paced .latency pace seen
  size : t.Paced .size pace' moved

/-- What has been recorded since an earlier tracker, by family. -/
structure Gains (t t' : Tracker) (latencies : List Operation) (sizes : List (Operation × Nat)) :
    Prop where
  latencies : t'.samples.filterMap Sample.latency? =
    t.samples.filterMap Sample.latency? ++ latencies
  sizes : t'.samples.filterMap Sample.size? = t.samples.filterMap Sample.size? ++ sizes

theorem Gains.refl (t : Tracker) : t.Gains t [] [] :=
  ⟨(List.append_nil _).symm, (List.append_nil _).symm⟩

theorem Gains.trans {l l' : List Operation} {s s' : List (Operation × Nat)}
    (first : t.Gains t' l s) (second : t'.Gains t'' l' s') : t.Gains t'' (l ++ l') (s ++ s') where
  latencies := by rw [second.latencies, first.latencies, List.append_assoc]
  sizes := by rw [second.sizes, first.sizes, List.append_assoc]

/-- Latencies are counted whatever was moved. -/
theorem Paces.count_latency (paces : t.Paces pace pace' seen moved) (accepts : Sample → Bool)
    (op : Operation) :
    let t' := (t.count accepts (.latency op)).2
    t'.Paces pace pace' (seen + 1) moved ∧
      t.Gains t' ((pace.taken seen [op]).filter fun op => accepts (.latency op)) [] := by
  obtain ⟨-, recorded, latency⟩ := Paced.count accepts (.latency op) paces.latency
  refine ⟨⟨latency, paces.size.congr (sampler_count Tracked.noConfusion)⟩, ?_, ?_⟩
  · rw [recorded, List.filterMap_append, Pace.filter_taken_singleton]
    split <;> rfl
  · rw [recorded, List.filterMap_append]
    split <;> rfl

/-- The tracker after the size of what was moved, if anything was, is counted. -/
def countMoved (accepts : Sample → Bool) (t : Tracker) (x : Option (Operation × Nat)) : Tracker :=
  x.elim t fun x => (t.count accepts (.size x.1 x.2)).2

/-- What was moved is counted whatever the latencies are. -/
theorem Paces.count_moved (paces : t.Paces pace pace' seen moved) (accepts : Sample → Bool)
    (x : Option (Operation × Nat)) :
    let t' := t.countMoved accepts x
    t'.Paces pace pace' seen (moved + x.toList.length) ∧
      t.Gains t' [] ((pace'.taken moved x.toList).filter fun x => accepts (.size x.1 x.2)) := by
  cases x with
  | none =>
      rw [Option.toList_none, Pace.taken_nil]
      exact ⟨paces, .refl t⟩
  | some x =>
      obtain ⟨-, recorded, size⟩ := Paced.count accepts (.size x.1 x.2) paces.size
      refine ⟨⟨paces.latency.congr (sampler_count Tracked.noConfusion), size⟩, ?_, ?_⟩
      · show (t.count accepts (.size x.1 x.2)).2.samples.filterMap Sample.latency? = _
        rw [recorded, List.filterMap_append]
        split <;> rfl
      · show (t.count accepts (.size x.1 x.2)).2.samples.filterMap Sample.size? = _
        rw [recorded, List.filterMap_append, Option.toList_some, Pace.filter_taken_singleton]
        split <;> rfl

/-- To observe an exchange is to count its latency, and if that is not refused, what was moved. -/
theorem observe_eq (accepts : Sample → Bool) (t : Tracker) (e : Exchange) :
    (t.observe accepts e.request e.answer).2 =
      if (t.count accepts (.latency e.operation)).1 = true then
        (t.count accepts (.latency e.operation)).2.countMoved accepts e.moved?
      else (t.count accepts (.latency e.operation)).2 := by
  rw [observe, countLatency_eq, Exchange.moved?, Exchange.operation]
  rcases t.count accepts (.latency e.request.operation) with ⟨_ | _, t'⟩
  · rfl
  · cases e.request.movedBytes e.answer <;> rfl

/-- The exchanges whose latency was not refused, when `seen` of them have gone before. -/
def timely (pace : Pace) (accepts : Sample → Bool) : Nat → List Exchange → List Exchange
  | _, [] => []
  | seen, e :: rest =>
    (if (!pace.due (seen + 1) || accepts (.latency e.operation)) = true then [e] else []) ++
      timely pace accepts (seen + 1) rest

theorem timely_singleton (pace : Pace) (accepts : Sample → Bool) (seen : Nat) (e : Exchange) :
    timely pace accepts seen [e] =
      if (!pace.due (seen + 1) || accepts (.latency e.operation)) = true then [e] else [] :=
  List.append_nil _

theorem timely_cons (pace : Pace) (accepts : Sample → Bool) (seen : Nat) (e : Exchange)
    (rest : List Exchange) :
    timely pace accepts seen (e :: rest) =
      timely pace accepts seen [e] ++ timely pace accepts (seen + 1) rest := by
  rw [timely_singleton]
  rfl

theorem timely_sublist (pace : Pace) (accepts : Sample → Bool) (seen : Nat)
    (exchanges : List Exchange) : (timely pace accepts seen exchanges).Sublist exchanges := by
  induction exchanges generalizing seen with
  | nil => exact List.Sublist.refl []
  | cons e rest ih =>
      rw [timely]
      split
      · exact (ih (seen + 1)).cons_cons e
      · exact (ih (seen + 1)).cons e

/-- Where all latencies are accepted that may be due, all exchanges are timely. -/
theorem timely_of_accepted {exchanges : List Exchange}
    (accepted : ∀ e ∈ exchanges, pace = none ∨ accepts (.latency e.operation) = true) (seen : Nat) :
    timely pace accepts seen exchanges = exchanges := by
  induction exchanges generalizing seen with
  | nil => rfl
  | cons e rest ih =>
      have first : (!pace.due (seen + 1) || accepts (.latency e.operation)) = true := by
        rcases accepted e List.mem_cons_self with rfl | ok
        · rfl
        · rw [ok, Bool.or_true]
      rw [timely, if_pos first, ih fun e' listed => accepted e' (List.mem_cons_of_mem e listed)]
      rfl

/-- One more exchange: its latency is recorded if it is due and accepted. If the latency is not
refused, what was moved is counted as well. -/
theorem Paces.observe (paces : t.Paces pace pace' seen moved) (accepts : Sample → Bool)
    (e : Exchange) :
    let t' := (t.observe accepts e.request e.answer).2
    let sized := (timely pace accepts seen [e]).filterMap Exchange.moved?
    t'.Paces pace pace' (seen + 1) (moved + sized.length) ∧
      t.Gains t' ((pace.taken seen [e.operation]).filter fun op => accepts (.latency op))
        ((pace'.taken moved sized).filter fun x => accepts (.size x.1 x.2)) := by
  obtain ⟨accepted, -⟩ := Paced.count accepts (.latency e.operation) paces.latency
  obtain ⟨paces₁, gains₁⟩ := paces.count_latency accepts e.operation
  rw [observe_eq, timely_singleton, ← accepted]
  by_cases ok : (t.count accepts (.latency e.operation)).1 = true
  · obtain ⟨paces₂, gains₂⟩ := paces₁.count_moved accepts e.moved?
    have sized : [e].filterMap Exchange.moved? = e.moved?.toList := by
      rw [filterMap_cons_eq_append, List.filterMap_nil, List.append_nil]
    have both := gains₁.trans gains₂
    rw [List.append_nil, List.nil_append] at both
    rw [if_pos ok, if_pos ok, sized]
    exact ⟨paces₂, both⟩
  · rw [if_neg ok, if_neg ok]
    intro t' sized
    rw [show sized = [] from rfl, Pace.taken_nil]
    exact ⟨paces₁, gains₁⟩

/-- The tracker after it has observed exchanges in turn. -/
def observeAll (accepts : Sample → Bool) (t : Tracker) (exchanges : List Exchange) : Tracker :=
  exchanges.foldl (fun t e => (t.observe accepts e.request e.answer).2) t

/-- Of all latencies, and of all sizes of exchanges that were timely, those are recorded that are
due and accepted. -/
theorem Paces.observeAll (paces : t.Paces pace pace' seen moved) (accepts : Sample → Bool)
    (exchanges : List Exchange) :
    let t' := t.observeAll accepts exchanges
    let sized := (timely pace accepts seen exchanges).filterMap Exchange.moved?
    t'.Paces pace pace' (seen + exchanges.length) (moved + sized.length) ∧
      t.Gains t' ((pace.taken seen (exchanges.map Exchange.operation)).filter
          fun op => accepts (.latency op))
        ((pace'.taken moved sized).filter fun x => accepts (.size x.1 x.2)) := by
  induction exchanges generalizing t seen moved with
  | nil =>
      intro t' sized
      rw [List.map_nil, Pace.taken_nil, show sized = [] from rfl, Pace.taken_nil]
      exact ⟨paces, .refl t⟩
  | cons e rest ih =>
      obtain ⟨paces₁, gains₁⟩ := paces.observe accepts e
      obtain ⟨paces₂, gains₂⟩ := ih paces₁
      intro t' sized
      -- the first exchange, and the others behind it
      have split : sized = (timely pace accepts seen [e]).filterMap Exchange.moved? ++
          (timely pace accepts (seen + 1) rest).filterMap Exchange.moved? := by
        rw [← List.filterMap_append, ← timely_cons]
      have operations : (e :: rest).map Exchange.operation =
          [e.operation] ++ rest.map Exchange.operation := rfl
      rw [split, operations, List.length_append, List.length_cons, Nat.add_comm rest.length,
        ← Nat.add_assoc, ← Nat.add_assoc, Pace.taken_append, Pace.taken_append,
        List.filter_append, List.filter_append]
      exact ⟨paces₂, gains₁.trans gains₂⟩

/-- A tracker in front of a store has observed what the store beneath has answered. -/
theorem run_store_tracker {σ : Type} (accepts : Sample → Bool) (inner : UInt64 → Store σ)
    (requests : List (UInt64 × Request)) (s : σ) (t : Tracker) :
    (Store.run (fun now => store accepts (inner now)) requests (s, t)).2.2 =
      t.observeAll accepts (Store.run inner requests s).1 := by
  induction requests generalizing s t with
  | nil => rfl
  | cons next rest ih =>
      obtain ⟨now, r⟩ := next
      rcases beneath : ((inner now).perform r).perform s with ⟨outcome, s'⟩
      rcases counted : countAll accepts (r.samples outcome) t with ⟨accepted, t'⟩
      rw [Store.run_cons beneath, run_store_cons beneath counted]
      have observed : (t.observe accepts r outcome).2 = t' := by
        rw [observe_eq_countAll, counted]
      rw [observeAll, List.foldl_cons, observed]
      exact ih s' t'

end Tracker

/-! ## Filing -/

namespace Sample

/-- What is recorded of the sample; what a latency measures counts as nothing. -/
def value : Sample → UInt64
  | latency _ => 0
  | size _ bytes => UInt64.ofNat bytes

/-- The series that a sample of a state goes into. -/
def series (state : String) (x : Sample) : Series := ⟨x.family, state, x.operation⟩

/-- What a sample of a state adds to a series. -/
def valueIn (state : String) (k : Series) (x : Sample) : Option UInt64 :=
  if x.series state = k then some x.value else none

end Sample

namespace Metrics

variable {m : Metrics} {k : Series} {bound : Nat} {recorded : List UInt64}

/-- Samples of a state that are accepted go into the histories of their series, in turn. -/
theorem Keeps.collect (keeps : m.Keeps k bound recorded) {state : String} {samples : List Sample}
    (accepted : ∀ x ∈ samples, m.acceptsSample state x = true) :
    (samples.foldl (fun m x => m.recordSample state x) m).Keeps k bound
      (recorded ++ samples.filterMap (Sample.valueIn state k)) := by
  induction samples generalizing m recorded with
  | nil =>
      rw [List.filterMap_nil, List.append_nil]
      exact keeps
  | cons x rest ih =>
      have first := accepted x List.mem_cons_self
      rw [acceptsSample_eq] at first
      -- both families record in the same way
      have step : m.recordSample state x =
          ((Metrics.record x.family state x.operation x.value).perform m).2 := by
        cases x <;> rfl
      have own : m.accepts (x.series state).family (x.series state).state (x.series state).op =
          true := first
      obtain ⟨keeps', -⟩ := keeps.recordAny own x.value
      have later : ∀ y ∈ rest, (m.recordSample state x).acceptsSample state y = true := by
        intro y listed
        have same := m.acceptsSample_collect state state [x] y
        rw [List.foldl_cons, List.foldl_nil] at same
        rw [same]
        exact accepted y (List.mem_cons_of_mem x listed)
      rw [filterMap_cons_eq_append, ← List.append_assoc, List.foldl_cons]
      refine ih ?_ later
      rw [step]
      exact keeps'

end Metrics

/-! ## Tracked states -/

/-- A list has every `n`-th element of another one, and nothing else. -/
structure IsEveryNth {α : Type} (n : Nat) (part whole : List α) : Prop where
  length : part.length = whole.length / n
  picked : ∀ j, part[j]? = whole[(j + 1) * n - 1]?

theorem isEveryNth_everyNth {α : Type} {n : Nat} (positive : 0 < n) (l : List α) :
    IsEveryNth n (everyNth n 0 l) l where
  length := by
    have := length_everyNth n 0 l
    rwa [Nat.zero_div, Nat.add_zero, Nat.zero_add] at this
  picked j := by
    have next : n ∣ 0 + (n - 1) + 1 := ⟨1, by omega⟩
    have index : (j + 1) * n - 1 = n - 1 + n * j := by
      rw [Nat.succ_mul, Nat.mul_comm]
      omega
    rw [index]
    exact getElem?_everyNth next (Nat.sub_lt positive Nat.one_pos) l j

namespace Store

variable {σ : Type}

/-- Every request is answered, in turn. -/
theorem requests_run (store : UInt64 → Store σ) (requests : List (UInt64 × Request)) (s : σ) :
    (run store requests s).1.map Exchange.request = requests.map Prod.snd := by
  induction requests generalizing s with
  | nil => rfl
  | cons next rest ih =>
      obtain ⟨now, r⟩ := next
      rcases performed : ((store now).perform r).perform s with ⟨outcome, s'⟩
      rw [run_cons performed, List.map_cons, List.map_cons, ih]

/-- A run of the same request to a store that always gives the same answer. -/
theorem untracked_answering (e : Exchange) (n : Nat) :
    ((answering e).untracked .initial (List.replicate n (0, e.request)) ()).1 =
      List.replicate n e := by
  have answered (s : Unit × List Request) :
      ((((answering e).logged.expiring .initial 0).perform e.request).perform s).1 = e.answer := by
    show (if same : e.request = e.request then same ▸ e.answer else _) = _
    rw [dif_pos rfl]
  rw [untracked]
  generalize ((), ([] : List Request)) = s
  induction n generalizing s with
  | zero => rfl
  | succ n ih =>
      rcases performed :
        (((answering e).logged.expiring .initial 0).perform e.request).perform s with ⟨outcome, s'⟩
      obtain rfl : outcome = e.answer := (congrArg Prod.fst performed).symm.trans (answered s)
      rw [List.replicate_succ, run_cons performed, ih]
      rfl

end Store

namespace Tracking

variable {σ : Type} {c : Tracking}

/-- How often samples of a family are taken. An interval of zero counts as one. -/
def pace (c : Tracking) (family : Tracked) : Pace :=
  if (c.sampling family).enabled then some (max (c.sampling family).interval.toNat 1) else none

theorem paced_tracker (c : Tracking) (family : Tracked) :
    c.tracker.Paced family (c.pace family) 0 := by
  have sampler := c.sampler_tracker family
  rw [pace]
  split
  · next enabled =>
      rw [if_pos enabled] at sampler
      exact ⟨_, sampler, Sampler.counts_of _⟩
  · next disabled =>
      rw [if_neg disabled] at sampler
      exact sampler

/-- The samples of a tracked family are those of every `n`-th access, and no other ones. -/
structure SamplesExactly (c : Tracking) (exchanges : List Exchange) (samples : List Sample) :
    Prop where
  latencies : ∀ n, c.pace .latency = some n →
    IsEveryNth n (samples.filterMap Sample.latency?) (exchanges.map Exchange.operation)
  sizes : ∀ n, c.pace .size = some n →
    IsEveryNth n (samples.filterMap Sample.size?) (exchanges.filterMap Exchange.moved?)

theorem pace_eq_some {family : Tracked} (enabled : (c.sampling family).enabled = true) :
    c.pace family = some (max (c.sampling family).interval.toNat 1) := if_pos enabled

theorem enabled_of_pace {family : Tracked} {n : Nat} (paced : c.pace family = some n) :
    (c.sampling family).enabled = true ∧ 0 < n := by
  rw [pace] at paced
  split at paced
  · next enabled =>
      obtain rfl := Option.some.inj paced
      exact ⟨enabled, by omega⟩
  · cases paced

/-- What has been recorded after a run: of all latencies, and of all sizes of exchanges that were
timely, those that were due and accepted. -/
theorem samples_run (c : Tracking) (inner : Store σ) (ttl : TtlConfig)
    (requests : List (UInt64 × Request)) (s : σ) :
    let plain := (inner.untracked ttl requests s).1
    let t := (c.run inner ttl requests s).2.2
    let sized := (Tracker.timely (c.pace .latency) (c.accepts []) 0 plain).filterMap Exchange.moved?
    t.Paces (c.pace .latency) (c.pace .size) plain.length sized.length ∧
      t.samples.filterMap Sample.latency? =
        ((c.pace .latency).taken 0 (plain.map Exchange.operation)).filter
          (fun op => c.accepts [] (.latency op)) ∧
      t.samples.filterMap Sample.size? =
        ((c.pace .size).taken 0 sized).filter fun x => c.accepts [] (.size x.1 x.2) := by
  have observed := Tracker.run_store_tracker (c.accepts [])
    (fun now => inner.logged.expiring ttl now) requests (s, []) c.tracker
  have start : c.tracker.Paces (c.pace .latency) (c.pace .size) 0 0 :=
    ⟨c.paced_tracker .latency, c.paced_tracker .size⟩
  obtain ⟨⟨latency, size⟩, latencies, sizes⟩ :=
    start.observeAll (c.accepts []) (inner.untracked ttl requests s).1
  rw [Nat.zero_add] at latency size
  rw [run_eq, observed]
  exact ⟨⟨latency, size⟩, latencies, sizes⟩

/-- Every sample that was recorded is one that is accepted. -/
theorem accepts_of_mem_samples {inner : Store σ} {ttl : TtlConfig}
    {requests : List (UInt64 × Request)} {s : σ} {x : Sample}
    (listed : x ∈ (c.run inner ttl requests s).2.2.samples) : c.accepts [] x = true := by
  obtain ⟨-, latencies, sizes⟩ := c.samples_run inner ttl requests s
  cases x with
  | latency op =>
      have member : op ∈ (c.run inner ttl requests s).2.2.samples.filterMap Sample.latency? :=
        List.mem_filterMap.2 ⟨_, listed, rfl⟩
      rw [latencies] at member
      exact (List.mem_filter.1 member).2
  | size op bytes =>
      have member : (op, bytes) ∈
          (c.run inner ttl requests s).2.2.samples.filterMap Sample.size? :=
        List.mem_filterMap.2 ⟨_, listed, rfl⟩
      rw [sizes] at member
      exact (List.mem_filter.1 member).2

/-- Where there is room for all samples, exactly every `n`-th one is recorded. -/
theorem HasRoom.samplesExactly (room : c.HasRoom) (inner : Store σ) (ttl : TtlConfig)
    (requests : List (UInt64 × Request)) (s : σ) :
    c.SamplesExactly (inner.untracked ttl requests s).1
      (c.run inner ttl requests s).2.2.samples := by
  obtain ⟨-, latencies, sizes⟩ := c.samples_run inner ttl requests s
  simp only [hasRoom_iff, isSome_sampler_tracker] at room
  generalize (inner.untracked ttl requests s).1 = plain at latencies sizes ⊢
  constructor
  · intro n paced
    obtain ⟨enabled, positive⟩ := enabled_of_pace paced
    have all : ∀ op ∈ (c.pace .latency).taken 0 (plain.map Exchange.operation),
        c.accepts [] (.latency op) = true := by
      intro op listed
      obtain ⟨e, -, rfl⟩ := List.mem_map.1 (Pace.mem_of_mem_taken listed)
      exact room e _ e.latency_mem_samples enabled
    rw [latencies, List.filter_eq_self.2 all, paced]
    exact isEveryNth_everyNth positive _
  · intro n paced
    obtain ⟨enabled, positive⟩ := enabled_of_pace paced
    have timely : Tracker.timely (c.pace .latency) (c.accepts []) 0 plain = plain := by
      apply Tracker.timely_of_accepted
      intro e _
      cases paced' : c.pace .latency with
      | none => exact .inl rfl
      | some n' => exact .inr (room e _ e.latency_mem_samples (enabled_of_pace paced').1)
    have all : ∀ x ∈ (c.pace .size).taken 0 (plain.filterMap Exchange.moved?),
        c.accepts [] (.size x.1 x.2) = true := by
      intro x listed
      obtain ⟨e, -, moved⟩ := List.mem_filterMap.1 (Pace.mem_of_mem_taken listed)
      exact room e _ (Exchange.size_mem_samples moved) enabled
    rw [sizes, timely, List.filter_eq_self.2 all, paced]
    exact isEveryNth_everyNth positive _

/-- Where there is no room for some sample, a run is short of it. -/
theorem hasRoom_of_samplesExactly
    (exact : ∀ {σ : Type} (inner : Store σ) (ttl : TtlConfig) (requests : List (UInt64 × Request))
      (s : σ), c.SamplesExactly (inner.untracked ttl requests s).1
        (c.run inner ttl requests s).2.2.samples) : c.HasRoom := by
  rw [hasRoom_iff]
  intro e x given tracked
  rw [isSome_sampler_tracker] at tracked
  have paced := pace_eq_some tracked
  have positive := (enabled_of_pace paced).2
  by_contra refused
  generalize max (c.sampling x.family).interval.toNat 1 = n at paced positive
  -- one sample should have been recorded of as many equal exchanges as the interval says
  have run := c.samples_run (Store.answering e) .initial (List.replicate n (0, e.request)) ()
  have exact' := exact (Store.answering e) .initial (List.replicate n (0, e.request)) ()
  rw [Store.untracked_answering] at run exact'
  obtain ⟨-, latencies, sizes⟩ := run
  rcases Exchange.mem_samples_cases given with rfl | ⟨y, moved, rfl⟩
  · have none : (c.run (Store.answering e) .initial (List.replicate n (0, e.request))
        ()).2.2.samples.filterMap Sample.latency? = [] := by
      rw [latencies, List.filter_eq_nil_iff]
      intro op listed
      obtain ⟨e', among, rfl⟩ := List.mem_map.1 (Pace.mem_of_mem_taken listed)
      rw [List.eq_of_mem_replicate among]
      exact refused
    have length := (exact'.latencies n paced).length
    rw [none, List.length_map, List.length_replicate, Nat.div_self positive] at length
    cases length
  · have none : (c.run (Store.answering e) .initial (List.replicate n (0, e.request))
        ()).2.2.samples.filterMap Sample.size? = [] := by
      rw [sizes, List.filter_eq_nil_iff]
      intro z listed
      obtain ⟨e', among, moved'⟩ := List.mem_filterMap.1 (Pace.mem_of_mem_taken listed)
      rw [List.eq_of_mem_replicate ((Tracker.timely_sublist ..).subset among), moved] at moved'
      rw [← Option.some.inj moved']
      exact refused
    have whole : (List.replicate n e).filterMap Exchange.moved? = List.replicate n y :=
      List.filterMap_replicate_of_some moved
    have length := (exact'.sizes n paced).length
    rw [none, whole, List.length_replicate, Nat.div_self positive] at length
    cases length

end Tracking

/-- **Sampling is exact if and only if there is room for the samples.** Whatever the store beneath
is, all requests are answered, no counter comes to the end of its word, and of all latencies, and of
all sizes of exchanges that were timely, those are recorded that are due and accepted, each behind
the earlier ones of its series. Where there is room, and only there, these are the samples of every
`n`-th access and no other ones. -/
theorem sampling_is_exact_iff (c : Tracking) :
    (∀ {σ : Type} (inner : Store σ) (ttl : TtlConfig) (requests : List (UInt64 × Request)) (s : σ),
      let plain := (inner.untracked ttl requests s).1
      let t := (c.run inner ttl requests s).2.2
      let sized :=
        (Tracker.timely (c.pace .latency) (c.accepts []) 0 plain).filterMap Exchange.moved?
      plain.map Exchange.request = requests.map Prod.snd ∧
      (∀ family sampler, t.sampler family = some sampler →
        sampler.accesses.toNat + 1 < 2 ^ 32) ∧
      t.samples.filterMap Sample.latency? =
        ((c.pace .latency).taken 0 (plain.map Exchange.operation)).filter
          (fun op => c.accepts [] (.latency op)) ∧
      t.samples.filterMap Sample.size? =
        ((c.pace .size).taken 0 sized).filter (fun x => c.accepts [] (.size x.1 x.2)) ∧
      ∀ m, c.registered = some m →
        ∃ m', c.collected t.samples = some m' ∧
          ∀ k bound before, m.Keeps k bound before →
            m'.Keeps k bound (before ++ t.samples.filterMap (Sample.valueIn c.name k))) ∧
    ((∀ {σ : Type} (inner : Store σ) (ttl : TtlConfig) (requests : List (UInt64 × Request)) (s : σ),
      c.SamplesExactly (inner.untracked ttl requests s).1
        (c.run inner ttl requests s).2.2.samples) ↔ c.HasRoom) := by
  refine ⟨fun inner ttl requests s => ?_, Tracking.hasRoom_of_samplesExactly,
    fun room _ inner ttl requests s => room.samplesExactly inner ttl requests s⟩
  intro plain t sized
  obtain ⟨paces, latencies, sizes⟩ := c.samples_run inner ttl requests s
  refine ⟨Store.requests_run _ requests (s, []), ?_, latencies, sizes, ?_⟩
  · intro family sampler found
    cases family with
    | latency => exact paces.latency.room found
    | size => exact paces.size.room found
  · intro m registered
    have collected : c.collected t.samples =
        some (t.samples.foldl (fun m x => m.recordSample c.name x) m) := by
      rw [Tracking.collected, registered]
      rfl
    refine ⟨_, collected, fun k bound before keeps => keeps.collect fun x listed => ?_⟩
    have accepted := Tracking.accepts_of_mem_samples listed
    rw [Tracking.accepts, Tracking.collected, registered] at accepted
    exact accepted

/-- Histories of 128 samples get every sample that is due, and histories of 2^60 samples do not. -/
theorem sampling_is_exact_iff_counting :
    (∀ {σ : Type} (inner : Store σ) (ttl : TtlConfig) (requests : List (UInt64 × Request)) (s : σ),
      (Tracking.counting 128).SamplesExactly (inner.untracked ttl requests s).1
        ((Tracking.counting 128).run inner ttl requests s).2.2.samples) ∧
    ∃ (σ : Type) (inner : Store σ) (ttl : TtlConfig) (requests : List (UInt64 × Request)) (s : σ),
      ¬ (Tracking.counting 0x1000000000000000).SamplesExactly (inner.untracked ttl requests s).1
        ((Tracking.counting 0x1000000000000000).run inner ttl requests s).2.2.samples := by
  constructor
  · have small : (128 : UInt64).toNat ≤ SampleHistory.greatestCapacity := by decide
    have room : (Tracking.counting 128).HasRoom := fun m _ e x _ _ => by
      cases x <;> exact .inr small
    intro σ inner ttl requests s
    exact (sampling_is_exact_iff (.counting 128)).2.2 room inner ttl requests s
  · by_contra exact
    push Not at exact
    have room := (sampling_is_exact_iff (.counting 0x1000000000000000)).2.1
      fun inner ttl requests s => exact _ inner ttl requests s
    have large : ¬ (0x1000000000000000 : UInt64).toNat ≤ SampleHistory.greatestCapacity := by decide
    rcases room (.of 16) rfl ⟨.clear ⟨0, [], []⟩, .ok ()⟩ (.latency .clear) List.mem_cons_self
      rfl with there | fits
    · cases there
    · exact large fits

end KeyedState
