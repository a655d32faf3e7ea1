import KeyedState.Proofs.Action
import KeyedState.Metrics

/-!
# When tracking can be told

The layer that takes samples is not noticed as long as the samples of every family that it tracks
are accepted (`Tracker.perform_of_admits`). One more access of a family is recorded if it is due and
its sample is accepted (`Tracker.Paced.count`). A family whose samples are never accepted is noticed
after as many puts as its interval says (`Tracker.PicksWithin.observe_put`).

Histories accept the samples of a state when the capacity that was registered for it can be set up
(`Metrics.accepts_of_capacity`), which recording does not change. A capacity that cannot be set up
keeps refusing samples until there is a history (`Metrics.Refuses`).
-/

namespace KeyedState

open Std (ExtTreeMap)

/-- The family that a sample belongs to. -/
def Sample.family : Sample → Tracked
  | latency _ => .latency
  | size _ _ => .size

/-- The kind of request that a sample is of. -/
def Sample.operation : Sample → Operation
  | latency op => op
  | size op _ => op

/-- The samples that a request gives with its outcome, if all of them are picked: its latency, and
the bytes that it has moved. -/
def Request.samples (r : Request) (outcome : Except StateError r.Reply) : List Sample :=
  .latency r.operation :: (r.movedBytes outcome).toList.map (.size r.operation)

/-! ## Samplers -/

namespace Sampler

/-- The sampler picks every `n`-th access, and has seen some number of them. -/
structure Counts (s : Sampler) (n seen : Nat) : Prop where
  interval : s.interval.toNat = n
  positive : 0 < n
  accesses : s.accesses.toNat = seen % n

/-- One more access is picked if their number is a multiple of the interval. -/
theorem Counts.tick {s : Sampler} {n seen : Nat} (counts : s.Counts n seen) :
    s.tick.1 = decide (n ∣ seen + 1) ∧ s.tick.2.Counts n (seen + 1) := by
  obtain ⟨rfl, positive, accesses⟩ := counts
  have few : seen % s.interval.toNat < s.interval.toNat := Nat.mod_lt _ positive
  have bound := s.interval.toNat_lt
  have next : (s.accesses + 1).toNat = seen % s.interval.toNat + 1 := by
    rw [UInt32.toNat_add, accesses]
    exact Nat.mod_eq_of_lt (by simp only [UInt32.toNat_one]; omega)
  -- the number of all accesses is that of those since the last one picked, up to the interval
  have rest : (seen + 1) % s.interval.toNat = (seen % s.interval.toNat + 1) % s.interval.toNat :=
    (Nat.mod_add_mod seen s.interval.toNat 1).symm
  rw [Sampler.tick]
  split
  · next full =>
      have last : seen % s.interval.toNat + 1 = s.interval.toNat := by
        have := UInt32.le_iff_toNat_le.1 full
        omega
      rw [last, Nat.mod_self] at rest
      exact ⟨(decide_eq_true (Nat.dvd_of_mod_eq_zero rest)).symm, rfl, positive, rest.symm⟩
  · next later =>
      have less := UInt32.lt_iff_toNat_lt.1 (UInt32.not_le.1 later)
      rw [next] at less
      rw [Nat.mod_eq_of_lt less] at rest
      refine ⟨(decide_eq_false fun divides => ?_).symm, rfl, positive, next.trans rest.symm⟩
      have := Nat.mod_eq_zero_of_dvd divides
      omega

/-- A sampler that has seen nothing. -/
theorem counts_of (interval : UInt32) : (of interval).Counts (max interval.toNat 1) 0 := by
  rw [of]
  split
  · next zero =>
      subst zero
      exact ⟨rfl, by decide, rfl⟩
  · next positive =>
      have := UInt32.lt_iff_toNat_lt.1 (UInt32.pos_iff_ne_zero.2 positive)
      exact ⟨(Nat.max_eq_left this).symm, by omega, (Nat.zero_mod _).symm⟩

/-- An access that is not picked is counted. -/
theorem tick_cases {s : Sampler} (running : s.accesses < s.interval) :
    s.tick.1 = true ∨ (s.tick = (false, { s with accesses := s.accesses + 1 }) ∧
      (s.accesses + 1).toNat = s.accesses.toNat + 1 ∧ s.accesses + 1 < s.interval) := by
  simp only [tick]
  split
  · exact .inl rfl
  · next later =>
      refine .inr ⟨rfl, ?_, UInt32.not_le.1 later⟩
      have := UInt32.lt_iff_toNat_lt.1 running
      have := s.interval.toNat_lt
      rw [UInt32.toNat_add]
      exact Nat.mod_eq_of_lt (by simp only [UInt32.toNat_one]; omega)

/-- A sampler that has seen nothing picks none of the accesses before the interval has passed. -/
theorem running_of (interval : UInt32) : (of interval).accesses < (of interval).interval := by
  simp only [of]
  split
  · decide
  · next positive => exact UInt32.pos_iff_ne_zero.2 positive

/-- A sampler counts up to a word at most. -/
theorem Counts.room {s : Sampler} {n seen : Nat} (counts : s.Counts n seen) :
    s.accesses.toNat + 1 < 2 ^ 32 := by
  have few : seen % n < n := Nat.mod_lt _ counts.positive
  have bound := s.interval.toNat_lt
  rw [counts.accesses]
  rw [counts.interval] at bound
  omega

end Sampler

/-- How often samples are taken: one of so many, or none. -/
abbrev Pace := Option Nat

/-- The sample of this number is taken. -/
def Pace.due (pace : Pace) (i : Nat) : Bool := pace.any fun n => decide (n ∣ i)

/-! ## Trackers -/

namespace Tracker

/-- The sampler of a family, if the family is tracked. -/
def sampler (t : Tracker) : Tracked → Option Sampler
  | .latency => t.latency
  | .size => t.size

/-- The tracker with another sampler of a family. -/
def setSampler (t : Tracker) (s : Sampler) : Tracked → Tracker
  | .latency => { t with latency := some s }
  | .size => { t with size := some s }

/-- All samples of the tracked families are accepted. -/
def Admits (accepts : Sample → Bool) (t : Tracker) : Prop :=
  ∀ x : Sample, (t.sampler x.family).isSome = true → accepts x = true

/-- The same families are tracked. -/
def Alike (t t' : Tracker) : Prop :=
  ∀ family, (t'.sampler family).isSome = (t.sampler family).isSome

/-- Whether a sample of one more access is accepted if it is picked, and the tracker after it. -/
def count (accepts : Sample → Bool) (t : Tracker) (x : Sample) : Bool × Tracker :=
  match t.sampler x.family with
  | none => (true, t)
  | some s =>
    if s.tick.1 then (t.setSampler s.tick.2 x.family).take accepts x
    else (true, t.setSampler s.tick.2 x.family)

variable {accepts : Sample → Bool} {t t' : Tracker}

theorem countLatency_eq (accepts : Sample → Bool) (t : Tracker) (op : Operation) :
    t.countLatency accepts op = t.count accepts (.latency op) := rfl

theorem countSize_eq (accepts : Sample → Bool) (t : Tracker) (op : Operation) (bytes : Nat) :
    t.countSize accepts op bytes = t.count accepts (.size op bytes) := rfl

theorem sampler_setSampler (t : Tracker) (s : Sampler) (family family' : Tracked) :
    (t.setSampler s family).sampler family' =
      if family = family' then some s else t.sampler family' := by
  cases family <;> cases family' <;> rfl

theorem sampler_take (accepts : Sample → Bool) (t : Tracker) (x : Sample) (family : Tracked) :
    (t.take accepts x).2.sampler family = t.sampler family := by
  rw [take]
  split <;> cases family <;> rfl

theorem Admits.alike (admits : t.Admits accepts) (alike : t.Alike t') : t'.Admits accepts :=
  fun x tracked => admits x ((alike x.family).symm.trans tracked)

/-- The sampler of another family does not count the access. -/
theorem sampler_count {x : Sample} {family : Tracked} (other : x.family ≠ family) :
    (t.count accepts x).2.sampler family = t.sampler family := by
  rw [count]
  cases t.sampler x.family with
  | none => rfl
  | some s =>
      dsimp only
      split
      · rw [sampler_take, sampler_setSampler, if_neg other]
      · rw [sampler_setSampler, if_neg other]

/-- Counting an access does not change which families are tracked. -/
theorem alike_count (accepts : Sample → Bool) (t : Tracker) (x : Sample) :
    t.Alike (t.count accepts x).2 := by
  intro family
  rw [count]
  cases found : t.sampler x.family with
  | none => rfl
  | some s =>
      -- whether the access is sampled or only counted, the families stay the same
      have alike : ((t.setSampler s.tick.2 x.family).sampler family).isSome =
          (t.sampler family).isSome := by
        rw [sampler_setSampler]
        split
        · next same => rw [← same, found]; rfl
        · rfl
      dsimp only
      split
      · rw [sampler_take]
        exact alike
      · exact alike

/-- No request changes which families are tracked. -/
theorem alike_observe (accepts : Sample → Bool) (t : Tracker) (r : Request)
    (outcome : Except StateError r.Reply) : t.Alike (t.observe accepts r outcome).2 := by
  have alike := alike_count accepts t (.latency r.operation)
  rw [observe, countLatency_eq]
  rcases counted : t.count accepts (.latency r.operation) with ⟨_ | _, t'⟩
  · rw [counted] at alike
    exact alike
  · rw [counted] at alike
    dsimp only
    cases r.movedBytes outcome with
    | none => exact alike
    | some bytes =>
        intro family
        exact (alike_count accepts t' (.size r.operation bytes) family).trans (alike family)

/-- Counting an access whose sample is accepted, if its family is tracked. -/
theorem count_of_accepts {x : Sample}
    (accepted : (t.sampler x.family).isSome = true → accepts x = true) :
    (t.count accepts x).1 = true := by
  rw [count]
  cases found : t.sampler x.family with
  | none => rfl
  | some s =>
      rw [found] at accepted
      dsimp only
      split
      · rw [take, if_pos (accepted rfl)]
      · rfl

/-- Counting an access where all samples are accepted. -/
theorem count_of_admits (admits : t.Admits accepts) (x : Sample) :
    (t.count accepts x).1 = true :=
  count_of_accepts (admits x)

/-- No sample of a request stands in its way. -/
theorem observe_of_admits (admits : t.Admits accepts) (r : Request)
    (outcome : Except StateError r.Reply) : (t.observe accepts r outcome).1 = true := by
  -- the size of a request is only counted once its latency was accepted
  have accepted := count_of_admits admits (.latency r.operation)
  have alike := alike_count accepts t (.latency r.operation)
  rw [observe, countLatency_eq]
  rcases counted : t.count accepts (.latency r.operation) with ⟨ok, t'⟩
  rw [counted] at accepted alike
  cases accepted
  dsimp only
  cases r.movedBytes outcome with
  | none => rfl
  | some bytes => exact count_of_admits (admits.alike alike) (.size r.operation bytes)

/-- As long as samples are accepted, a request is answered as without the layer. -/
theorem perform_of_admits {σ : Type} (inner : Store σ) (admits : t.Admits accepts) (r : Request)
    (s : σ) :
    ∃ t', ((store accepts inner).perform r).perform (s, t) =
        (((inner.perform r).perform s).1, ((inner.perform r).perform s).2, t') ∧ t.Alike t' := by
  have accepted := observe_of_admits admits r ((inner.perform r).perform s).1
  refine ⟨_, ?_, alike_observe accepts t r ((inner.perform r).perform s).1⟩
  simp only [store, Action.perform_of, accepted, if_true]

section Pace

variable {family : Tracked} {pace : Pace} {seen : Nat}

/-- The family is sampled at a pace, and has seen so many accesses; without a pace it is not
tracked. -/
def Paced (t : Tracker) (family : Tracked) (pace : Pace) (seen : Nat) : Prop :=
  match pace with
  | none => t.sampler family = none
  | some n => ∃ s, t.sampler family = some s ∧ s.Counts n seen

theorem Paced.congr (paced : t.Paced family pace seen)
    (same : t'.sampler family = t.sampler family) : t'.Paced family pace seen := by
  simpa only [Paced, same] using paced

/-- No sampler counts up to the end of its word. -/
theorem Paced.room {s : Sampler} (paced : t.Paced family pace seen)
    (found : t.sampler family = some s) : s.accesses.toNat + 1 < 2 ^ 32 := by
  cases pace with
  | none =>
      rw [show t.sampler family = none from paced] at found
      cases found
  | some n =>
      obtain ⟨s', found', counts⟩ := paced
      rw [found] at found'
      obtain rfl := Option.some.inj found'
      exact counts.room

/-- A sample is recorded if it is due and accepted, and refused if it is due and not accepted. -/
theorem Paced.count (accepts : Sample → Bool) (x : Sample) (paced : t.Paced x.family pace seen) :
    (t.count accepts x).1 = (!pace.due (seen + 1) || accepts x) ∧
      (t.count accepts x).2.samples =
        t.samples ++ (if (pace.due (seen + 1) && accepts x) = true then [x] else []) ∧
      (t.count accepts x).2.Paced x.family pace (seen + 1) := by
  cases pace with
  | none =>
      have untracked : t.count accepts x = (true, t) := by
        rw [Tracker.count, show t.sampler x.family = none from paced]
      rw [untracked]
      exact ⟨rfl, (List.append_nil _).symm, paced⟩
  | some n =>
      obtain ⟨s, found, counts⟩ := paced
      obtain ⟨picked, counts'⟩ := counts.tick
      have same : (t.setSampler s.tick.2 x.family).samples = t.samples := by
        cases x.family <;> rfl
      have moved : (t.setSampler s.tick.2 x.family).sampler x.family = some s.tick.2 := by
        rw [sampler_setSampler, if_pos rfl]
      have due : Pace.due (some n) (seen + 1) = s.tick.1 := picked.symm
      rw [due, Tracker.count, found]
      dsimp only
      cases s.tick.1 with
      | false => exact ⟨rfl, same.trans (List.append_nil _).symm, s.tick.2, moved, counts'⟩
      | true =>
          refine ⟨?_, ?_, s.tick.2, (sampler_take accepts _ x _).trans moved, counts'⟩
          · rw [if_pos rfl, take]
            cases accepts x <;> rfl
          · rw [if_pos rfl, take, Bool.true_and]
            cases accepts x with
            | false => exact same.trans (List.append_nil _).symm
            | true => exact congrArg (· ++ [x]) same

end Pace

/-- The family is tracked, and one of the next `left` accesses is picked. -/
def PicksWithin (family : Tracked) (left : Nat) (t : Tracker) : Prop :=
  ∃ s, t.sampler family = some s ∧ s.accesses < s.interval ∧
    s.interval.toNat ≤ s.accesses.toNat + left

namespace PicksWithin

variable {family : Tracked} {left : Nat}

theorem left_ne_zero (picks : t.PicksWithin family left) : left ≠ 0 := by
  rintro rfl
  obtain ⟨s, -, running, few⟩ := picks
  exact absurd (UInt32.lt_iff_toNat_lt.1 running) (Nat.not_lt.2 few)

theorem congr (picks : t.PicksWithin family left) (same : t'.sampler family = t.sampler family) :
    t'.PicksWithin family left := by
  rw [PicksWithin, same]
  exact picks

/-- Of an access whose samples are refused the tracker is told, or it has one less to go. -/
theorem count {x : Sample} (picks : t.PicksWithin x.family (left + 1))
    (refused : accepts x = false) :
    (t.count accepts x).1 = false ∨ (t.count accepts x).2.PicksWithin x.family left := by
  obtain ⟨s, found, running, few⟩ := picks
  rw [Tracker.count, found]
  rcases Sampler.tick_cases running with picked | ⟨later, one, less⟩
  · left
    simp only [picked, if_true, take, refused]
    rfl
  · right
    simp only [later]
    refine ⟨⟨s.interval, s.accesses + 1⟩, ?_, less, ?_⟩
    · rw [if_neg (by decide), sampler_setSampler, if_pos rfl]
    · simp only [one]
      omega

/-- A request that gives a sample that is refused fails, or it leaves one access less to go. -/
theorem observe {x : Sample} (picks : t.PicksWithin x.family (left + 1))
    (refused : accepts x = false) {r : Request} {outcome : Except StateError r.Reply}
    (given : x ∈ r.samples outcome) :
    (t.observe accepts r outcome).1 = false ∨
      (t.observe accepts r outcome).2.PicksWithin x.family left := by
  rw [Tracker.observe, countLatency_eq]
  rcases counted : t.count accepts (.latency r.operation) with ⟨_ | _, t'⟩
  · exact .inl rfl
  -- each family is moved on by its own count, which the other one leaves alone
  rcases List.mem_cons.1 given with rfl | moved
  · rcases count picks refused with fault | picks'
    · rw [counted] at fault
      cases fault
    · rw [counted] at picks'
      right
      cases r.movedBytes outcome with
      | none => exact picks'
      | some bytes =>
          show PicksWithin _ left (t'.countSize accepts r.operation bytes).2
          rw [countSize_eq]
          exact picks'.congr (sampler_count Tracked.noConfusion)
  · obtain ⟨bytes, listed, rfl⟩ := List.mem_map.1 moved
    have unmoved : (t.count accepts (.latency r.operation)).2.sampler .size = t.sampler .size :=
      sampler_count Tracked.noConfusion
    rw [counted] at unmoved
    rw [Option.mem_toList.1 listed]
    exact count (picks.congr unmoved) refused

/-- A put whose samples are refused fails, or it leaves one access less to go. -/
theorem observe_put (picks : t.PicksWithin family (left + 1))
    (refused : ∀ x : Sample, x.family = family → accepts x = false) (a : Address) (value : Bytes) :
    (t.observe accepts (.put a value) (.ok ())).1 = false ∨
      (t.observe accepts (.put a value) (.ok ())).2.PicksWithin family left := by
  cases family with
  | latency =>
      exact observe (x := .latency .put) picks (refused _ rfl) List.mem_cons_self
  | size =>
      exact observe (x := .size .put (a.length + value.length)) picks (refused _ rfl)
        (List.mem_cons_of_mem _ List.mem_cons_self)

end PicksWithin

end Tracker

/-! ## Histories -/

namespace ByOperation

variable {α : Type}

theorem select_const (a : α) (op : Operation) : (const a).select op = a := by
  cases op <;> rfl

theorem select_modify (b : ByOperation α) (op op' : Operation) (f : α → α) :
    (b.modify op f).select op' = if op = op' then f (b.select op) else b.select op' := by
  cases op <;> cases op' <;> rfl

end ByOperation

namespace Histories

theorem capacity_register (h : Histories) (default : Nat) (state name : String) (n : Nat) :
    (h.register state n).capacity default name =
      if state = name then max n 1 else h.capacity default name := by
  simp only [register, capacity, ExtTreeMap.getD_insert, Std.LawfulEqOrd.compare_eq_iff_eq]

/-- Registering a capacity changes the histories that the state has. -/
theorem history_register (h : Histories) (state name : String) (n : Nat) (op : Operation) :
    (h.register state n).history name op =
      if state = name then (h.history name op).map fun s => s.setCapacity (max n 1)
      else h.history name op := by
  simp only [history, register, ExtTreeMap.getElem?_alter, Std.LawfulEqOrd.compare_eq_iff_eq]
  split
  · next same =>
      subst same
      cases h.samples[state]? with
      | none => rfl
      | some b => cases op <;> rfl
  · rfl

/-- Registering a capacity sets up no history and drops none. -/
theorem isSome_history_register (h : Histories) (state name : String) (n : Nat) (op : Operation) :
    ((h.register state n).history name op).isSome = (h.history name op).isSome := by
  rw [history_register]
  split
  · exact Option.isSome_map
  · rfl

theorem history_register_eq_none {h : Histories} {name : String} {op : Operation}
    (none : h.history name op = none) (state : String) (n : Nat) :
    (h.register state n).history name op = .none := by
  rw [← Option.isNone_iff_eq_none, ← Option.not_isSome, isSome_history_register, none]
  rfl

theorem history_eq (h : Histories) (state : String) (op : Operation) :
    h.history state op = (h.samples[state]?.getD (.const none)).select op := by
  rw [history]
  cases h.samples[state]? with
  | none => exact (ByOperation.select_const none op).symm
  | some b => rfl

/-- Recording a sample changes the history that it goes into, or sets it up. -/
theorem history_record (h : Histories) (default : Nat) (state name : String)
    (op op' : Operation) (x : UInt64) :
    (h.record default state op x).history name op' =
      if state = name ∧ op = op' then
        some (((h.history name op').getD (.empty (h.capacity default name))).record x)
      else h.history name op' := by
  simp only [history_eq, record, ExtTreeMap.getElem?_alter, Std.LawfulEqOrd.compare_eq_iff_eq]
  by_cases same : state = name
  · subst same
    by_cases kind : op = op' <;> simp [ByOperation.select_modify, kind]
  · simp [same]

/-- Recording a sample sets up the history that it goes into, and no other one. -/
theorem isSome_history_record (h : Histories) (default : Nat) (state name : String)
    (op op' : Operation) (x : UInt64) :
    ((h.record default state op x).history name op').isSome =
      ((h.history name op').isSome || decide (state = name ∧ op = op')) := by
  rw [history_record]
  split
  · next same => rw [decide_eq_true same, Bool.or_true, Option.isSome_some]
  · next other => rw [decide_eq_false other, Bool.or_false]

/-- A sample that is recorded does not change what is accepted. -/
theorem accepts_record {h : Histories} {default : Nat} {state : String} {op : Operation}
    (accepted : h.accepts default state op = true) (name : String) (op' : Operation) (x : UInt64) :
    (h.record default state op x).accepts default name op' = h.accepts default name op' := by
  have accepted' : (h.record default state op x).accepts default name op' =
      (h.accepts default name op' || decide (state = name ∧ op = op')) := by
    rw [accepts, isSome_history_record, accepts, Bool.or_right_comm]
    rfl
  rw [accepted']
  by_cases same : state = name ∧ op = op'
  · obtain ⟨rfl, rfl⟩ := same
    rw [accepted, Bool.true_or]
  · rw [decide_eq_false same, Bool.or_false]

end Histories

namespace Metrics

/-- The capacity of a new history of a family for a state. -/
def capacity (m : Metrics) (family : Tracked) (state : String) : Nat :=
  (m.histories family).capacity m.defaultCapacity state

variable {m : Metrics} {family : Tracked} {state : String}

theorem histories_modify (m : Metrics) (family family' : Tracked) (f : Histories → Histories) :
    (m.modify family f).histories family' =
      if family = family' then f (m.histories family') else m.histories family' := by
  cases family <;> cases family' <;> rfl

theorem defaultCapacity_modify (m : Metrics) (family : Tracked) (f : Histories → Histories) :
    (m.modify family f).defaultCapacity = m.defaultCapacity := by
  cases family <;> rfl

/-- Samples are accepted where the capacity can be set up. -/
theorem accepts_of_capacity (small : m.capacity family state ≤ SampleHistory.greatestCapacity)
    (op : Operation) : m.accepts family state op = true := by
  rw [accepts, Histories.accepts, Bool.or_eq_true]
  exact .inr (decide_eq_true small)

theorem capacity_record (m : Metrics) (family family' : Tracked) (state name : String)
    (op : Operation) (x : UInt64) :
    ((record family state op x).perform m).2.capacity family' name = m.capacity family' name := by
  rw [record, Action.perform_of]
  split
  · rw [capacity, histories_modify, defaultCapacity_modify]
    split <;> rfl
  · rfl

/-- Recording a sample changes no capacity. -/
theorem capacity_recordSample (m : Metrics) (family : Tracked) (state name : String) (x : Sample) :
    (m.recordSample state x).capacity family name = m.capacity family name := by
  cases x with
  | latency op => exact capacity_record m .latency family state name op 0
  | size op bytes => exact capacity_record m .size family state name op _

/-- A capacity that is registered is at least one. -/
theorem capacity_register (m : Metrics) (family family' : Tracked) (state name : String) (n : Nat) :
    (m.register family state n).capacity family' name =
      if family = family' ∧ state = name then max n 1 else m.capacity family' name := by
  rw [capacity, register, histories_modify, defaultCapacity_modify]
  by_cases same : family = family'
  · simp only [same, true_and, if_true]
    exact Histories.capacity_register _ _ _ _ _
  · rw [if_neg same, if_neg fun both => same both.1]
    rfl

/-- A sample is accepted by what its family accepts. -/
theorem acceptsSample_eq (m : Metrics) (state : String) (x : Sample) :
    m.acceptsSample state x = m.accepts x.family state x.operation := by
  cases x <;> rfl

theorem accepts_record (m : Metrics) (family family' : Tracked) (state name : String)
    (op op' : Operation) (x : UInt64) :
    ((record family state op x).perform m).2.accepts family' name op' =
      m.accepts family' name op' := by
  rw [record, Action.perform_of]
  split
  · next accepted =>
      rw [accepts, histories_modify, defaultCapacity_modify]
      split
      · next same =>
          subst same
          exact Histories.accepts_record accepted name op' x
      · rfl
  · rfl

/-- Recording samples of a state does not change what is accepted. -/
theorem acceptsSample_collect (m : Metrics) (state name : String) (samples : List Sample)
    (x : Sample) :
    (samples.foldl (fun m x => m.recordSample state x) m).acceptsSample name x =
      m.acceptsSample name x := by
  induction samples generalizing m with
  | nil => rfl
  | cons first rest ih =>
      rw [List.foldl_cons, ih, acceptsSample_eq, acceptsSample_eq]
      cases first with
      | latency op => exact m.accepts_record .latency x.family state name op x.operation 0
      | size op bytes => exact m.accepts_record .size x.family state name op x.operation _

/-- Registering a capacity sets up no history and drops none. -/
theorem isSome_history_register (m : Metrics) (family family' : Tracked) (state name : String)
    (n : Nat) (op : Operation) :
    (((m.register family state n).histories family').history name op).isSome =
      ((m.histories family').history name op).isSome := by
  rw [register, histories_modify]
  split
  · exact Histories.isSome_history_register _ _ _ _ _
  · rfl

/-- A registered capacity has to be one that can be set up, where there is no history yet. -/
theorem accepts_register (m : Metrics) (family family' : Tracked) (state name : String) (n : Nat)
    (op : Operation) :
    (m.register family state n).accepts family' name op =
      if family = family' ∧ state = name then
        ((m.histories family').history name op).isSome ||
          decide (max n 1 ≤ SampleHistory.greatestCapacity)
      else m.accepts family' name op := by
  have accepts_eq : ∀ m : Metrics, m.accepts family' name op =
      (((m.histories family').history name op).isSome ||
        decide (m.capacity family' name ≤ SampleHistory.greatestCapacity)) := fun _ => rfl
  rw [accepts_eq, accepts_eq, isSome_history_register, capacity_register]
  split <;> rfl

/-- The samples of a family are refused for a state: there is no history of any kind of request, and
none can be set up. -/
structure Refuses (m : Metrics) (family : Tracked) (state : String) : Prop where
  large : SampleHistory.greatestCapacity < m.capacity family state
  unset : ∀ op, (m.histories family).history state op = none

theorem Refuses.accepts (refuses : m.Refuses family state) (op : Operation) :
    m.accepts family state op = false := by
  rw [Metrics.accepts, Histories.accepts, refuses.unset op]
  exact decide_eq_false (Nat.not_le.2 refuses.large)

theorem Refuses.record (refuses : m.Refuses family state) (family' : Tracked) (op : Operation)
    (x : UInt64) : ((Metrics.record family' state op x).perform m).2.Refuses family state := by
  refine ⟨by rw [capacity_record]; exact refuses.large, fun op' => ?_⟩
  rw [Metrics.record, Action.perform_of]
  -- what is recorded belongs to another family, which was accepted
  split
  · next accepted =>
      have other : family' ≠ family := by
        rintro rfl
        rw [refuses.accepts] at accepted
        cases accepted
      rw [histories_modify, if_neg other]
      exact refuses.unset op'
  · exact refuses.unset op'

/-- What is recorded of a state does not make room for what is refused. -/
theorem Refuses.recordSample (refuses : m.Refuses family state) (x : Sample) :
    (m.recordSample state x).Refuses family state := by
  cases x with
  | latency op => exact refuses.record .latency op 0
  | size op bytes => exact refuses.record .size op _

end Metrics

end KeyedState
