import KeyedState.Proofs.Storage.Tracking
import Mathlib.Data.List.Induction

/-!
# Histories over whole runs

Capacities are registered and samples recorded in any order, for any states (`MetricsCall`). Each
history belongs to a series of samples: those of one family, of one kind of request to one state. It
holds the newest samples of its series and counts all of them (`SampleHistory.Holds`), whatever
capacities are registered before it is set up or later on.

What is reported of a history is a sum of words, which is the true total (`SampleHistory.sum_eq`) or,
where that is larger than a word, cannot be reported, and the count and the largest sample with it.

A capacity stands twice, once for the state and once in each of its histories; the two are the
same after every run (`Metrics.Keeps`). One call changes the histories as its answer says
(`Metrics.Keeps.perform`), and those of another state or family not at all.

Main statement: `histories_keep_newest_samples`.
-/

namespace KeyedState

/-! ## One history -/

namespace SampleHistory

variable {h : SampleHistory} {recorded : List UInt64}

/-- A history holds the newest ones of the samples that were recorded, at least one and not more
than its capacity, and counts all of them. -/
structure Holds (h : SampleHistory) (recorded : List UInt64) : Prop where
  count : h.count = recorded.length
  newest : h.samples <:+ recorded
  filled : h.samples ≠ []
  few : h.samples.length ≤ h.capacity

theorem Holds.capacity_pos (holds : h.Holds recorded) : 1 ≤ h.capacity :=
  Nat.le_trans (List.length_pos_iff.2 holds.filled) holds.few

/-- One more sample is retained if the history is not full. -/
theorem length_record (positive : 1 ≤ h.capacity) (x : UInt64) :
    (h.record x).samples.length =
      if h.samples.length < h.capacity then h.samples.length + 1 else h.samples.length := by
  rw [record]
  by_cases full : h.capacity ≤ h.samples.length
  · rw [if_pos full, if_neg (Nat.not_lt.2 full), List.length_append, List.length_drop,
      List.length_singleton]
    omega
  · rw [if_neg full, if_pos (Nat.not_le.1 full), List.length_append, List.length_singleton]

theorem length_setCapacity (h : SampleHistory) (n : Nat) :
    (h.setCapacity n).samples.length = min h.samples.length n := by
  rw [setCapacity, List.length_drop]
  omega

/-- The first sample of a history. -/
theorem holds_record_empty {capacity : Nat} (positive : 1 ≤ capacity) (x : UInt64) :
    ((empty capacity).record x).Holds [x] where
  count := rfl
  newest := by
    have only : ((empty capacity).record x).samples = [x] :=
      congrArg (· ++ [x]) (if_neg (Nat.not_le.2 positive))
    exact ⟨[], only⟩
  filled := List.append_ne_nil_of_right_ne_nil _ (List.cons_ne_nil x [])
  few := by
    rw [length_record positive]
    show (if 0 < capacity then 1 else 0) ≤ capacity
    split <;> omega

/-- A full history gives up its oldest sample for the new one. -/
theorem Holds.record (holds : h.Holds recorded) (x : UInt64) :
    (h.record x).Holds (recorded ++ [x]) where
  count := by
    rw [List.length_append, ← holds.count]
    rfl
  newest := by
    rw [SampleHistory.record]
    apply List.suffix_append_self_iff.2
    split
    · exact (List.drop_suffix 1 h.samples).trans holds.newest
    · exact holds.newest
  filled := List.append_ne_nil_of_right_ne_nil _ (List.cons_ne_nil x [])
  few := by
    show (h.record x).samples.length ≤ h.capacity
    have := holds.few
    rw [length_record holds.capacity_pos]
    split <;> omega

/-- Another capacity takes the oldest samples away, but not all samples. -/
theorem Holds.setCapacity (holds : h.Holds recorded) {n : Nat} (positive : 1 ≤ n) :
    (h.setCapacity n).Holds recorded where
  count := holds.count
  newest := (List.drop_suffix _ h.samples).trans holds.newest
  filled := by
    have := List.length_pos_iff.2 holds.filled
    rw [← List.length_pos_iff, length_setCapacity]
    omega
  few := by
    rw [length_setCapacity]
    exact Nat.min_le_right _ _

/-- The larger one of two words. -/
theorem max_cases (a b : UInt64) : max a b = a ∧ b ≤ a ∨ max a b = b ∧ a ≤ b := by
  show (if a ≤ b then b else a) = a ∧ _ ∨ (if a ≤ b then b else a) = b ∧ _
  split
  · next le => exact .inr ⟨rfl, le⟩
  · next less => exact .inl ⟨rfl, UInt64.le_of_lt (UInt64.not_le.1 less)⟩

theorem foldl_max_mem (l : List UInt64) (a : UInt64) : l.foldl max a ∈ a :: l := by
  induction l generalizing a with
  | nil => exact List.mem_cons_self
  | cons b rest ih =>
      rw [List.foldl_cons]
      rcases max_cases a b with ⟨same, -⟩ | ⟨same, -⟩
      · rw [same]
        exact (List.cons_subset_cons a (List.subset_cons_self b rest)) (ih a)
      · rw [same]
        exact List.mem_cons_of_mem a (ih b)

theorem le_foldl_max (l : List UInt64) (a : UInt64) : ∀ x ∈ a :: l, x ≤ l.foldl max a := by
  induction l generalizing a with
  | nil =>
      intro x listed
      rw [List.mem_singleton.1 listed]
      exact UInt64.le_refl a
  | cons b rest ih =>
      have both : a ≤ max a b ∧ b ≤ max a b := by
        rcases max_cases a b with ⟨same, le⟩ | ⟨same, le⟩
        · rw [same]
          exact ⟨UInt64.le_refl a, le⟩
        · rw [same]
          exact ⟨le, UInt64.le_refl b⟩
      have above := ih (max a b) (max a b) List.mem_cons_self
      intro x listed
      rcases List.mem_cons.1 listed with rfl | listed
      · exact UInt64.le_trans both.1 above
      rcases List.mem_cons.1 listed with rfl | listed
      · exact UInt64.le_trans both.2 above
      · exact ih (max a b) x (List.mem_cons_of_mem _ listed)

/-- What is reported of a history as the largest sample is one that it retains, and no retained
sample is larger. -/
theorem largest_spec (filled : h.samples ≠ []) :
    h.samples.foldl max 0 ∈ h.samples ∧ ∀ x ∈ h.samples, x ≤ h.samples.foldl max 0 := by
  have bound (x : UInt64) (listed : x ∈ h.samples) : x ≤ h.samples.foldl max 0 :=
    le_foldl_max h.samples 0 x (List.mem_cons_of_mem 0 listed)
  refine ⟨?_, bound⟩
  rcases List.mem_cons.1 (foldl_max_mem h.samples 0) with zero | listed
  · -- where the largest sample is zero, all samples are
    obtain ⟨x, rest, same⟩ := List.exists_cons_of_ne_nil filled
    have listed : x ∈ h.samples := same ▸ List.mem_cons_self
    have least := bound x listed
    rw [zero] at least ⊢
    rw [← UInt64.le_antisymm least UInt64.zero_le]
    exact listed
  · exact listed

/-- The sum of words, whatever its size. -/
def totalOf (l : List UInt64) : Nat := (l.map UInt64.toNat).sum

/-- The sum of the retained samples, whatever its size. -/
def total (h : SampleHistory) : Nat := totalOf h.samples

theorem totalOf_cons (x : UInt64) (l : List UInt64) : totalOf (x :: l) = x.toNat + totalOf l := by
  rw [totalOf, List.map_cons, List.sum_cons, totalOf]

/-- Words are added up without a loss, or not at all. -/
theorem foldlM_addSample (l : List UInt64) (sum : UInt64) :
    l.foldlM addSample sum =
      if sum.toNat + totalOf l < 2 ^ 64 then .ok (UInt64.ofNat (sum.toNat + totalOf l))
      else .error .sampleSumTooLarge := by
  induction l generalizing sum with
  | nil =>
      rw [totalOf, List.map_nil, List.sum_nil, Nat.add_zero, if_pos sum.toNat_lt,
        UInt64.ofNat_toNat]
      rfl
  | cons x rest ih =>
      rw [List.foldlM_cons, addSample, totalOf_cons, ← Nat.add_assoc]
      by_cases fits : sum.toNat + x.toNat < 2 ^ 64
      · have next : (sum + x).toNat = sum.toNat + x.toNat := by
          rw [UInt64.toNat_add]
          exact Nat.mod_eq_of_lt fits
        rw [if_pos fits, ← next]
        exact ih (sum + x)
      · rw [if_neg fits, if_neg (by omega)]
        rfl

/-- The sum is the total, if that is a word. -/
theorem sum_eq (h : SampleHistory) :
    h.sum = if h.total < 2 ^ 64 then .ok (UInt64.ofNat h.total)
      else .error .sampleSumTooLarge := by
  rw [sum, foldlM_addSample, UInt64.toNat_zero, Nat.zero_add]
  rfl

/-- Where the total is a word, it is the sum. -/
theorem sum_of_small (h : SampleHistory) (small : h.total < 2 ^ 64) :
    ∃ sum, h.sum = .ok sum ∧ sum.toNat = h.total := by
  refine ⟨UInt64.ofNat h.total, by rw [h.sum_eq, if_pos small], ?_⟩
  rw [UInt64.toNat_ofNat']
  exact Nat.mod_eq_of_lt small

end SampleHistory

/-! ## Series and calls -/

/-- The first element gives something or nothing, and the others follow. -/
theorem filterMap_cons_eq_append {α β : Type} (f : α → Option β) (x : α) (l : List α) :
    (x :: l).filterMap f = (f x).toList ++ l.filterMap f := by
  rw [List.filterMap_cons]
  cases f x <;> rfl

/-- What one history is of: a family of samples, a state, and a kind of request. -/
structure Series where
  family : Tracked
  state : String
  op : Operation
  deriving DecidableEq

/-- A call on the histories of both families. -/
inductive MetricsCall where
  | register (family : Tracked) (state : String) (capacity : Nat)
  | latency (state : String) (op : Operation) (span : Span)
  | size (state : String) (op : Operation) (bytes : UInt64)

namespace MetricsCall

/-- Carries out a call. -/
def perform : MetricsCall → Action Metrics Unit
  | register family state n => .of fun m => (.ok (), m.register family state n)
  | latency state op span => Metrics.recordLatency state op span
  | size state op bytes => Metrics.record .size state op bytes

/-- The family that a call is about. -/
def family : MetricsCall → Tracked
  | register family _ _ => family
  | latency _ _ _ => .latency
  | size _ _ _ => .size

/-- The state that a call is about. -/
def state : MetricsCall → String
  | register _ state _ => state
  | latency state _ _ => state
  | size state _ _ => state

/-- The sample that is to be recorded, and its series. -/
def sample? : MetricsCall → Option (Series × UInt64)
  | register _ _ _ => none
  | latency state op span => some (⟨.latency, state, op⟩, UInt64.ofNat span.nanos)
  | size state op bytes => some (⟨.size, state, op⟩, bytes)

/-- The capacity that is registered for a series, at least one. -/
def capacity? (k : Series) : MetricsCall → Option Nat
  | register family state n =>
    if family = k.family ∧ state = k.state then some (max n 1) else none
  | _ => none

/-- A call with its outcome. -/
structure Answer where
  call : MetricsCall
  outcome : Except StateError Unit

/-- The sample that was recorded in a series. -/
def Answer.recorded? (k : Series) : Answer → Option UInt64
  | ⟨call, .ok ()⟩ => call.sample?.bind fun (k', x) => if k' = k then some x else none
  | ⟨_, .error _⟩ => none

/-- How many samples of a series are retained after a call: one more if a sample was recorded and
there were fewer than the capacity, no more than a capacity that was registered, and else as many
as before. -/
def Answer.retained (a : Answer) (k : Series) (capacity before : Nat) : Nat :=
  match a.recorded? k, a.call.capacity? k with
  | some _, _ => if before < capacity then before + 1 else before
  | none, some n => min before n
  | none, none => before

/-- Calls with their outcomes, the oldest first. -/
abbrev History := List Answer

namespace History

variable (past : History) (k : Series)

/-- The samples that were recorded in a series, the oldest first. -/
def recorded : List UInt64 := past.filterMap (Answer.recorded? k)

/-- The capacity of a series: the one that was registered last, or else the default. -/
def capacity (default : Nat) : Nat :=
  (past.filterMap fun a => a.call.capacity? k).getLast?.getD (max default 1)

end History

/-- A call hands over the first sample of a series for which no history can be set up. -/
def Refused (c : MetricsCall) (past : History) (default : Nat) : Prop :=
  ∃ k x, c.sample? = some (k, x) ∧ past.recorded k = [] ∧
    SampleHistory.greatestCapacity < past.capacity k default

/-- The histories after a run of calls on new ones, and the history of the run. -/
def run (default : Nat) (calls : List MetricsCall) : Metrics × History :=
  calls.foldl
    (fun x c => ((c.perform.perform x.1).2, x.2 ++ [⟨c, (c.perform.perform x.1).1⟩]))
    (.of default, [])

theorem run_append (default : Nat) (calls : List MetricsCall) (c : MetricsCall) :
    run default (calls ++ [c]) = ((c.perform.perform (run default calls).1).2,
      (run default calls).2 ++ [⟨c, (c.perform.perform (run default calls).1).1⟩]) := by
  rw [run, List.foldl_append]
  rfl

theorem History.recorded_append (past : History) (a : Answer) (k : Series) :
    (past ++ [a] : History).recorded k = past.recorded k ++ (a.recorded? k).toList := by
  rw [recorded, List.filterMap_append, filterMap_cons_eq_append, List.filterMap_nil,
    List.append_nil, recorded]

theorem History.capacity_append (past : History) (a : Answer) (k : Series) (default : Nat) :
    (past ++ [a] : History).capacity k default =
      (a.call.capacity? k).getD (past.capacity k default) := by
  rw [capacity, List.filterMap_append, List.getLast?_append]
  cases h : a.call.capacity? k <;> simp [h, capacity]

/-- A call that hands over a sample is about the state and the family of the sample, and registers
no capacity. -/
theorem about_of_sample {c : MetricsCall} {k : Series} {x : UInt64}
    (given : c.sample? = some (k, x)) :
    c.family = k.family ∧ c.state = k.state ∧ ∀ k', c.capacity? k' = none := by
  cases c with
  | register family state n => cases given
  | latency state op span =>
      cases given
      exact ⟨rfl, rfl, fun _ => rfl⟩
  | size state op bytes =>
      cases given
      exact ⟨rfl, rfl, fun _ => rfl⟩

/-- What a call can do: register a capacity, record a sample that is accepted, or refuse one and
leave everything as it is. -/
theorem perform_cases (c : MetricsCall) (m : Metrics) :
    (∃ family state n, c = register family state n ∧
      c.perform.perform m = (.ok (), m.register family state n)) ∨
    ∃ k x, c.sample? = some (k, x) ∧
      (m.accepts k.family k.state k.op = true ∧
        c.perform.perform m = (.ok (), ((Metrics.record k.family k.state k.op x).perform m).2) ∨
      m.accepts k.family k.state k.op = false ∧
        c.perform.perform m = (.error .historyTooLarge, m)) := by
  -- both calls that hand over a sample record it in the same way
  have recording (k : Series) (x : UInt64) :
      m.accepts k.family k.state k.op = true ∧
          (Metrics.record k.family k.state k.op x).perform m =
            (.ok (), ((Metrics.record k.family k.state k.op x).perform m).2) ∨
        m.accepts k.family k.state k.op = false ∧
          (Metrics.record k.family k.state k.op x).perform m = (.error .historyTooLarge, m) := by
    rw [Metrics.record, Action.perform_of]
    cases m.accepts k.family k.state k.op with
    | true => exact .inl ⟨rfl, rfl⟩
    | false => exact .inr ⟨rfl, rfl⟩
  cases c with
  | register family state n => exact .inl ⟨family, state, n, rfl, rfl⟩
  | latency state op span =>
      exact .inr ⟨⟨.latency, state, op⟩, _, rfl, recording ⟨.latency, state, op⟩ _⟩
  | size state op bytes =>
      exact .inr ⟨⟨.size, state, op⟩, bytes, rfl, recording ⟨.size, state, op⟩ bytes⟩

/-- The sample of an answer counts for its series, unless it was refused. -/
theorem Answer.recorded?_of_sample {c : MetricsCall} {k : Series} {x : UInt64}
    (given : c.sample? = some (k, x)) (k' : Series) :
    Answer.recorded? k' ⟨c, .ok ()⟩ = if k = k' then some x else none := by
  rw [recorded?, given]
  rfl

end MetricsCall

/-! ## Histories of a series -/

namespace Metrics

variable {m : Metrics} {k k' : Series} {bound : Nat} {recorded : List UInt64}

/-- The history of a series, if there are samples. -/
def historyOf (m : Metrics) (k : Series) : Option SampleHistory :=
  (m.histories k.family).history k.state k.op

/-- The samples of a series that are retained, the oldest first. -/
def retained (m : Metrics) (k : Series) : List UInt64 :=
  (m.historyOf k).elim [] SampleHistory.samples

/-- What is known of a series after some calls. The capacity of its state is the one of its history,
if there is one, which holds what was recorded; without a history nothing was. -/
structure Keeps (m : Metrics) (k : Series) (bound : Nat) (recorded : List UInt64) : Prop where
  capacity : m.capacity k.family k.state = bound
  positive : 1 ≤ bound
  unset : m.historyOf k = none → recorded = []
  held : ∀ h, m.historyOf k = some h → h.capacity = bound ∧ h.Holds recorded

theorem historyOf_register (m : Metrics) (family : Tracked) (state : String) (n : Nat)
    (k : Series) :
    (m.register family state n).historyOf k =
      if family = k.family ∧ state = k.state then
        (m.historyOf k).map fun s => s.setCapacity (max n 1)
      else m.historyOf k := by
  rw [historyOf, register, histories_modify]
  by_cases same : family = k.family
  · simp only [same, true_and, if_true]
    exact Histories.history_register _ _ _ _ _
  · rw [if_neg same, if_neg fun both => same both.1]
    rfl

theorem historyOf_record (accepted : m.accepts k'.family k'.state k'.op = true) (x : UInt64)
    (k : Series) :
    ((record k'.family k'.state k'.op x).perform m).2.historyOf k =
      if k' = k then
        some (((m.historyOf k).getD (.empty (m.capacity k.family k.state))).record x)
      else m.historyOf k := by
  obtain ⟨family, state, op⟩ := k
  obtain ⟨family', state', op'⟩ := k'
  rw [record, Action.perform_of, if_pos accepted, historyOf, histories_modify]
  by_cases same : family' = family
  · subst same
    simp only [if_true, Series.mk.injEq, true_and]
    exact Histories.history_record _ _ _ _ _ _ _
  · rw [if_neg same, if_neg fun both => same (Series.mk.inj both).1]
    rfl

/-- New histories. -/
theorem keeps_of (default : Nat) (k : Series) : (of default).Keeps k (max default 1) [] where
  capacity := by
    obtain ⟨_ | _, state, op⟩ := k <;> rfl
  positive := Nat.le_max_right _ _
  unset _ := rfl
  held h found := by
    obtain ⟨_ | _, state, op⟩ := k <;> cases found

theorem retained_of_none (none : m.historyOf k = none) : m.retained k = [] := by
  rw [retained, none]
  rfl

theorem retained_of_some {h : SampleHistory} (found : m.historyOf k = some h) :
    m.retained k = h.samples := by
  rw [retained, found]
  rfl

/-- Nothing new is known of a series that was left alone. -/
theorem Keeps.congr {m' : Metrics} (keeps : m.Keeps k bound recorded)
    (history : m'.historyOf k = m.historyOf k)
    (capacity : m'.capacity k.family k.state = m.capacity k.family k.state) :
    m'.Keeps k bound recorded ∧ m'.retained k = m.retained k := by
  refine ⟨⟨capacity.trans keeps.capacity, keeps.positive, ?_, ?_⟩, ?_⟩
  · rw [history]
    exact keeps.unset
  · rw [history]
    exact keeps.held
  · rw [retained, retained, history]

/-- A capacity is registered for the state of the series. -/
theorem Keeps.register (keeps : m.Keeps k bound recorded) (n : Nat) :
    (m.register k.family k.state n).Keeps k (max n 1) recorded ∧
      ((m.register k.family k.state n).retained k).length =
        min (m.retained k).length (max n 1) := by
  have after := historyOf_register m k.family k.state n k
  have capacity := capacity_register m k.family k.family k.state k.state n
  rw [if_pos ⟨rfl, rfl⟩] at after capacity
  have positive := Nat.le_max_right n 1
  refine ⟨⟨capacity, positive, ?_, ?_⟩, ?_⟩
  · intro none
    rw [after, Option.map_eq_none_iff] at none
    exact keeps.unset none
  · intro h found
    rw [after] at found
    obtain ⟨h', before, rfl⟩ := Option.map_eq_some_iff.1 found
    exact ⟨rfl, (keeps.held h' before).2.setCapacity positive⟩
  · cases before : m.historyOf k with
    | none =>
        rw [before] at after
        rw [retained_of_none before, retained_of_none after]
        exact (Nat.zero_min _).symm
    | some h =>
        rw [before] at after
        rw [retained_of_some before, retained_of_some after]
        exact h.length_setCapacity _

/-- The history that the next sample of a series goes into, a new one if there is none. -/
theorem Keeps.next (keeps : m.Keeps k bound recorded) (x : UInt64) :
    ∃ h, (m.historyOf k).getD (.empty bound) = h ∧ h.capacity = bound ∧ m.retained k = h.samples ∧
      (h.record x).Holds (recorded ++ [x]) := by
  refine ⟨_, rfl, ?_⟩
  cases before : m.historyOf k with
  | none =>
      rw [keeps.unset before, retained_of_none before]
      exact ⟨rfl, rfl, SampleHistory.holds_record_empty keeps.positive x⟩
  | some h =>
      obtain ⟨same, holds⟩ := keeps.held h before
      rw [retained_of_some before]
      exact ⟨same, rfl, holds.record x⟩

/-- A sample of the series is recorded. -/
theorem Keeps.record (keeps : m.Keeps k bound recorded)
    (accepted : m.accepts k.family k.state k.op = true) (x : UInt64) :
    ((Metrics.record k.family k.state k.op x).perform m).2.Keeps k bound (recorded ++ [x]) ∧
      (((Metrics.record k.family k.state k.op x).perform m).2.retained k).length =
        if (m.retained k).length < bound then (m.retained k).length + 1
        else (m.retained k).length := by
  have after := historyOf_record accepted x k
  have capacity := capacity_record m k.family k.family k.state k.state k.op x
  obtain ⟨h, next, rfl, same, holds⟩ := keeps.next x
  rw [if_pos rfl, keeps.capacity, next] at after
  refine ⟨⟨capacity.trans keeps.capacity, keeps.positive, ?_, ?_⟩, ?_⟩
  · intro none
    rw [after] at none
    cases none
  · intro h' found
    obtain rfl := Option.some.inj (after.symm.trans found)
    exact ⟨rfl, holds⟩
  · rw [retained_of_some after, same]
    exact SampleHistory.length_record keeps.positive x

/-- A sample of the series or of another one is recorded. -/
theorem Keeps.recordAny (keeps : m.Keeps k bound recorded)
    (accepted : m.accepts k'.family k'.state k'.op = true) (x : UInt64) :
    ((Metrics.record k'.family k'.state k'.op x).perform m).2.Keeps k bound
        (recorded ++ (if k' = k then some x else none).toList) ∧
      (((Metrics.record k'.family k'.state k'.op x).perform m).2.retained k).length =
        if k' = k ∧ (m.retained k).length < bound then (m.retained k).length + 1
        else (m.retained k).length := by
  by_cases own : k' = k
  · subst own
    rw [if_pos rfl]
    simp only [true_and]
    exact keeps.record accepted x
  · obtain ⟨keeps', same⟩ := keeps.congr ((historyOf_record accepted x k).trans (if_neg own))
      (capacity_record ..)
    rw [if_neg own, Option.toList_none, List.append_nil, if_neg fun both => own both.1, same]
    exact ⟨keeps', rfl⟩

/-- A call on another state or another family changes nothing for a series. -/
theorem perform_other (m : Metrics) {c : MetricsCall}
    (other : c.family ≠ k.family ∨ c.state ≠ k.state) :
    (c.perform.perform m).2.historyOf k = m.historyOf k ∧
      (c.perform.perform m).2.capacity k.family k.state = m.capacity k.family k.state := by
  have apart : ¬ (c.family = k.family ∧ c.state = k.state) := by
    rintro ⟨family, state⟩
    exact other.elim (· family) (· state)
  rcases c.perform_cases m with ⟨family, state, n, rfl, done⟩ |
    ⟨k', x, given, ⟨accepted, done⟩ | ⟨-, done⟩⟩
  · rw [done]
    exact ⟨(historyOf_register ..).trans (if_neg apart),
      (capacity_register ..).trans (if_neg apart)⟩
  · obtain ⟨family, state, -⟩ := MetricsCall.about_of_sample given
    have series : k' ≠ k := by
      rintro rfl
      exact apart ⟨family, state⟩
    rw [done]
    exact ⟨(historyOf_record accepted x k).trans (if_neg series), capacity_record ..⟩
  · rw [done]
    exact ⟨rfl, rfl⟩

/-- One more call changes what is known of a series as its answer says. -/
theorem Keeps.perform (keeps : m.Keeps k bound recorded) (c : MetricsCall) :
    (c.perform.perform m).2.Keeps k ((c.capacity? k).getD bound)
        (recorded ++ (MetricsCall.Answer.recorded? k ⟨c, (c.perform.perform m).1⟩).toList) ∧
      ((c.perform.perform m).2.retained k).length =
        MetricsCall.Answer.retained ⟨c, (c.perform.perform m).1⟩ k bound
          (m.retained k).length := by
  rw [MetricsCall.Answer.retained]
  rcases c.perform_cases m with ⟨family, state, n, rfl, done⟩ |
    ⟨k', x, given, ⟨accepted, done⟩ | ⟨-, done⟩⟩
  · have none : MetricsCall.Answer.recorded? k ⟨.register family state n, .ok ()⟩ = none := rfl
    rw [done, none, Option.toList_none, List.append_nil, MetricsCall.capacity?]
    by_cases own : family = k.family ∧ state = k.state
    · obtain ⟨rfl, rfl⟩ := own
      rw [if_pos ⟨rfl, rfl⟩]
      exact keeps.register n
    · rw [if_neg own]
      obtain ⟨keeps', same⟩ := keeps.congr ((historyOf_register ..).trans (if_neg own))
        ((capacity_register ..).trans (if_neg own))
      exact ⟨keeps', congrArg List.length same⟩
  · obtain ⟨keeps', length⟩ := keeps.recordAny accepted x
    rw [done, (MetricsCall.about_of_sample given).2.2 k,
      MetricsCall.Answer.recorded?_of_sample given]
    refine ⟨keeps', length.trans ?_⟩
    by_cases own : k' = k
    · simp only [own, true_and, if_true]
    · simp only [own, false_and, if_false]
  · have none : MetricsCall.Answer.recorded? k ⟨c, .error .historyTooLarge⟩ = none := rfl
    rw [done, (MetricsCall.about_of_sample given).2.2 k, none, Option.toList_none, List.append_nil]
    exact ⟨keeps, rfl⟩

/-- What is known of a series after a run. -/
theorem keeps_run (default : Nat) (calls : List MetricsCall) (k : Series) :
    (MetricsCall.run default calls).1.Keeps k ((MetricsCall.run default calls).2.capacity k default)
      ((MetricsCall.run default calls).2.recorded k) := by
  induction calls using List.reverseRecOn with
  | nil => exact keeps_of default k
  | append_singleton calls c ih =>
      rw [MetricsCall.run_append, MetricsCall.History.capacity_append,
        MetricsCall.History.recorded_append]
      exact (ih.perform c).1

/-- There is a history if samples were recorded. -/
theorem Keeps.historyOf_eq_none_iff (keeps : m.Keeps k bound recorded) :
    m.historyOf k = none ↔ recorded = [] := by
  refine ⟨keeps.unset, fun empty => ?_⟩
  cases found : m.historyOf k with
  | none => rfl
  | some h =>
      obtain ⟨-, holds⟩ := keeps.held h found
      exact absurd (List.suffix_nil.1 (empty ▸ holds.newest)) holds.filled

/-- A sample is refused if it is the first one of its series and its capacity cannot be set up. -/
theorem Keeps.accepts_eq_false_iff (keeps : m.Keeps k bound recorded) :
    m.accepts k.family k.state k.op = false ↔
      recorded = [] ∧ SampleHistory.greatestCapacity < bound := by
  have accepts : m.accepts k.family k.state k.op =
      ((m.historyOf k).isSome || decide (bound ≤ SampleHistory.greatestCapacity)) := by
    rw [← keeps.capacity]
    rfl
  rw [accepts, Bool.or_eq_false_iff, decide_eq_false_iff_not, Nat.not_le,
    ← keeps.historyOf_eq_none_iff, Option.isSome_eq_false_iff, Option.isNone_iff_eq_none]

/-- A call on the histories after a run is refused, and then changes nothing, only if it hands over
the first sample of a series for which no history can be set up. -/
theorem perform_run (default : Nat) (calls : List MetricsCall) (c : MetricsCall) :
    (c.Refused (MetricsCall.run default calls).2 default →
      c.perform.perform (MetricsCall.run default calls).1 =
        (.error .historyTooLarge, (MetricsCall.run default calls).1)) ∧
    (¬ c.Refused (MetricsCall.run default calls).2 default →
      (c.perform.perform (MetricsCall.run default calls).1).1 = .ok ()) := by
  rcases c.perform_cases (MetricsCall.run default calls).1 with ⟨family, state, n, rfl, done⟩ |
    ⟨k, x, given, ⟨accepted, done⟩ | ⟨refused, done⟩⟩
  · rw [done]
    refine ⟨?_, fun _ => rfl⟩
    rintro ⟨k, x, given, -⟩
    cases given
  · rw [done]
    refine ⟨?_, fun _ => rfl⟩
    rintro ⟨k', x', given', first⟩
    obtain ⟨rfl, -⟩ := Prod.mk.inj (Option.some.inj (given.symm.trans given'))
    have refused := (keeps_run default calls k).accepts_eq_false_iff.2 first
    rw [accepted] at refused
    cases refused
  · rw [done]
    refine ⟨fun _ => rfl, fun taken => ?_⟩
    have first := (keeps_run default calls k).accepts_eq_false_iff.1 refused
    exact absurd ⟨k, x, given, first⟩ taken

/-- Nothing is reported of a series without samples. -/
theorem summary_of_none (unset : m.historyOf k = none) :
    m.summary k.family k.state k.op = .ok none := by
  rw [historyOf] at unset
  rw [summary, unset]
  rfl

theorem summary_of_some {h : SampleHistory} (found : m.historyOf k = some h) :
    m.summary k.family k.state k.op = h.summary.map some := by
  rw [historyOf] at found
  rw [summary, found, Option.mapM_some]
  rfl

/-- Where the total of the retained samples is no word, nothing can be reported. -/
theorem summary_of_large {h : SampleHistory} (found : m.historyOf k = some h)
    (large : 2 ^ 64 ≤ h.total) :
    m.summary k.family k.state k.op = .error .sampleSumTooLarge := by
  rw [summary_of_some found, SampleHistory.summary, h.sum_eq, if_neg (Nat.not_lt.2 large)]
  rfl

/-- Where it is a word, everything is reported. -/
theorem summary_of_small {h : SampleHistory} (found : m.historyOf k = some h)
    (filled : h.samples ≠ []) (small : h.total < 2 ^ 64) :
    m.summary k.family k.state k.op = .ok (some {
      count := h.count
      retained := h.samples.length
      mean := Binary64.divMagnitude (.ofNat h.total) (.ofNat h.samples.length)
      max := h.samples.foldl max 0 }) := by
  obtain ⟨sum, same, total⟩ := h.sum_of_small small
  have several : h.samples.length ≠ 0 := mt List.length_eq_zero_iff.1 filled
  have mean : SampleHistory.mean sum h.samples.length =
      Binary64.divMagnitude (.ofNat h.total) (.ofNat h.samples.length) := by
    rw [SampleHistory.mean, if_neg several, total]
  rw [summary_of_some found, SampleHistory.summary, same, ← mean]
  rfl

end Metrics

/-- **Histories are bounded suffixes of what was recorded.** After every run of calls there is a
history of each series of which samples were recorded. It counts all of them and holds the newest
ones, at least one and at most as many as the capacity that was registered last, or else the
default. The count, the number of retained samples and the largest one of those are reported if and
only if the total of the retained samples is a word; where it is not, nothing can be reported. A call
is refused only if it would have to set up a history that is too large, and then changes nothing. One
more sample is retained only where a sample is recorded that has room, fewer are only where a smaller
capacity is registered, and calls on other states or the other family change nothing. -/
theorem histories_keep_newest_samples (default : Nat) (calls : List MetricsCall) :
    let m := (MetricsCall.run default calls).1
    let past := (MetricsCall.run default calls).2
    (∀ k : Series,
      1 ≤ past.capacity k default ∧
      (m.historyOf k = none ↔ past.recorded k = []) ∧
      (m.historyOf k = none → m.summary k.family k.state k.op = .ok none) ∧
      ∀ h, m.historyOf k = some h →
        h.count = (past.recorded k).length ∧
        h.samples <:+ past.recorded k ∧
        h.capacity = past.capacity k default ∧
        h.samples.length ≤ h.capacity ∧
        ∃ largest ∈ h.samples, (∀ x ∈ h.samples, x ≤ largest) ∧
          (h.total < 2 ^ 64 → m.summary k.family k.state k.op = .ok (some {
            count := (past.recorded k).length
            retained := h.samples.length
            mean := Binary64.divMagnitude (.ofNat h.total) (.ofNat h.samples.length)
            max := largest })) ∧
          (2 ^ 64 ≤ h.total → m.summary k.family k.state k.op = .error .sampleSumTooLarge)) ∧
    ∀ c : MetricsCall,
      let outcome := (c.perform.perform m).1
      let m' := (c.perform.perform m).2
      (c.Refused past default → outcome = .error .historyTooLarge ∧ m' = m) ∧
      (¬ c.Refused past default → outcome = .ok ()) ∧
      ∀ k : Series,
        (m'.retained k).length =
          MetricsCall.Answer.retained ⟨c, outcome⟩ k (past.capacity k default)
            (m.retained k).length ∧
        (c.family ≠ k.family ∨ c.state ≠ k.state →
          m'.historyOf k = m.historyOf k ∧
            m'.capacity k.family k.state = m.capacity k.family k.state) := by
  intro m past
  refine ⟨fun k => ?_, fun c => ?_⟩
  · have keeps : m.Keeps k (past.capacity k default) (past.recorded k) :=
      Metrics.keeps_run default calls k
    refine ⟨keeps.positive, keeps.historyOf_eq_none_iff, Metrics.summary_of_none,
      fun h found => ?_⟩
    obtain ⟨same, holds⟩ := keeps.held h found
    obtain ⟨member, bound⟩ := SampleHistory.largest_spec holds.filled
    refine ⟨holds.count, holds.newest, same, holds.few, _, member, bound, fun small => ?_,
      Metrics.summary_of_large found⟩
    rw [← holds.count]
    exact Metrics.summary_of_small found holds.filled small
  · obtain ⟨refused, taken⟩ := Metrics.perform_run default calls c
    refine ⟨fun first => ?_, taken, fun k => ⟨?_, Metrics.perform_other m⟩⟩
    · exact Prod.mk.inj (refused first)
    · exact ((Metrics.keeps_run default calls k).perform c).2

/-- Of four sizes the newest three are retained, and the newest two when the capacity shrinks. -/
example :
    (MetricsCall.run 16 [.register .size "count" 3, .size "count" .put 5, .size "count" .put 6,
      .size "count" .put 7, .size "count" .put 8, .register .size "count" 2]).1.historyOf
        ⟨.size, "count", .put⟩ = some ⟨[7, 8], 2, 4⟩ := by
  decide +kernel

end KeyedState
