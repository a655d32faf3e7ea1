import KeyedState.Proofs.Metrics.Histories

/-!
# Sums of samples

The sum of the samples of a history comes out as the true total (`SampleHistory.sum_eq`), or not at
all where the total is larger than a word, and then nothing is reported of the history. So a mean
that is reported is one of the true total. The total lies between the least and the largest sample,
each taken as often as there are samples.

Main statement: `means_are_of_true_totals`.
-/

namespace KeyedState

namespace SampleHistory

variable {h : SampleHistory}

theorem le_totalOf {l : List UInt64} {least : Nat} (bound : ∀ x ∈ l, least ≤ x.toNat) :
    least * l.length ≤ totalOf l := by
  induction l with
  | nil => exact Nat.zero_le _
  | cons x rest ih =>
      have first := bound x List.mem_cons_self
      have others := ih fun y listed => bound y (List.mem_cons_of_mem x listed)
      rw [totalOf_cons, List.length_cons, Nat.mul_succ]
      omega

theorem totalOf_le {l : List UInt64} {largest : Nat} (bound : ∀ x ∈ l, x.toNat ≤ largest) :
    totalOf l ≤ largest * l.length := by
  induction l with
  | nil => exact Nat.zero_le _
  | cons x rest ih =>
      have first := bound x List.mem_cons_self
      have others := ih fun y listed => bound y (List.mem_cons_of_mem x listed)
      rw [totalOf_cons, List.length_cons, Nat.mul_succ]
      omega

/-- A history of samples that are small enough for its capacity can be added up. -/
theorem total_lt {largest : Nat} (few : h.samples.length ≤ h.capacity)
    (bound : ∀ x ∈ h.samples, x.toNat ≤ largest) (small : largest * h.capacity < 2 ^ 64) :
    h.total < 2 ^ 64 :=
  calc
    h.total ≤ largest * h.samples.length := totalOf_le bound
    _ ≤ largest * h.capacity := Nat.mul_le_mul_left largest few
    _ < 2 ^ 64 := small

end SampleHistory

/-- **A mean is one of the true total.** After every run of calls, whatever samples were recorded,
the sum of the samples that a history retains is their true total, and the mean is taken of it, if
and only if the total is a word; where it is not, nothing is reported. The total lies between the
least and the largest sample, each taken as often as there are samples, and it is a word wherever
the largest sample recorded, taken as often as the capacity says, is one. -/
theorem means_are_of_true_totals (default : Nat) (calls : List MetricsCall) (k : Series) :
    let m := (MetricsCall.run default calls).1
    let past := (MetricsCall.run default calls).2
    ∀ h, m.historyOf k = some h →
      h.samples <:+ past.recorded k ∧
      (2 ^ 64 ≤ h.total → m.summary k.family k.state k.op = .error .sampleSumTooLarge) ∧
      (h.total < 2 ^ 64 →
        ∃ sum, h.sum = .ok sum ∧ sum.toNat = h.total ∧
          ∃ s, m.summary k.family k.state k.op = .ok (some s) ∧
            s.mean = Binary64.divMagnitude (.ofNat h.total) (.ofNat h.samples.length)) ∧
      (∀ least largest, (∀ x ∈ h.samples, least ≤ x.toNat ∧ x.toNat ≤ largest) →
        least * h.samples.length ≤ h.total ∧ h.total ≤ largest * h.samples.length) ∧
      ∀ largest, (∀ x ∈ past.recorded k, x.toNat ≤ largest) →
        largest * past.capacity k default < 2 ^ 64 → h.total < 2 ^ 64 := by
  intro m past h found
  obtain ⟨capacity, holds⟩ := (Metrics.keeps_run default calls k).held h found
  refine ⟨holds.newest, Metrics.summary_of_large found, fun small => ?_, ?_, ?_⟩
  · obtain ⟨sum, same, total⟩ := h.sum_of_small small
    exact ⟨sum, same, total, _, Metrics.summary_of_small found holds.filled small, rfl⟩
  · intro least largest bounds
    exact ⟨SampleHistory.le_totalOf fun x listed => (bounds x listed).1,
      SampleHistory.totalOf_le fun x listed => (bounds x listed).2⟩
  · intro largest bound small
    rw [← capacity] at small
    exact SampleHistory.total_lt holds.few (fun x listed => bound x (holds.newest.mem listed)) small

/-- Two latencies, each of which counts as the largest word there is, have no sum. -/
theorem means_are_of_true_totals_longest :
    let m := (MetricsCall.run 16 [.latency "count" .get .longest, .latency "count" .get .longest]).1
    ∃ h, m.historyOf ⟨.latency, "count", .get⟩ = some h ∧ h.total = 2 * (2 ^ 64 - 1) ∧
      m.summary .latency "count" .get = .error .sampleSumTooLarge := by
  have found : (MetricsCall.run 16 [.latency "count" .get .longest,
      .latency "count" .get .longest]).1.historyOf ⟨.latency, "count", .get⟩ =
        some ⟨[0xFFFFFFFFFFFFFFFF, 0xFFFFFFFFFFFFFFFF], 16, 2⟩ := by
    decide +kernel
  refine ⟨_, found, rfl, ?_⟩
  exact (means_are_of_true_totals 16 _ ⟨.latency, "count", .get⟩ _ found).2.1 (by decide)

end KeyedState
