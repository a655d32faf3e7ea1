import KeyedState.Config.Ttl
import KeyedState.Numeric.Binary64
import KeyedState.Storage.Tracking
import Std.Data.ExtTreeMap

/-!
# Histories of samples

A bounded history of samples for each state and operation, once for latencies and
once for sizes. A history keeps the newest samples and counts all of them; its
capacity is the one that was registered for the state last, or else a default. A
history is set up with its first sample, for which its capacity must not be too large;
later on it may become larger. The samples of a history are added up in 64 bits: where
their sum is larger, nothing can be reported of the history, and it stays as it is.
-/

namespace KeyedState

open Std (ExtTreeMap)

/-- The samples retained, the oldest first, and how many there have been. That number has no bound
here; a counter of 64 bits shows the same one as long as there have been fewer than 2^64 samples. -/
structure SampleHistory where
  samples : List UInt64
  capacity : Nat
  count : Nat
  deriving DecidableEq, Repr

/-- What is reported of a history. -/
structure SampleSummary where
  count : Nat
  retained : Nat
  mean : Binary64
  max : UInt64
  deriving DecidableEq, Repr

namespace SampleHistory

/-- The most samples for which a history can be set up: of eight bytes each, they take less than
2^63 bytes. -/
def greatestCapacity : Nat := 2 ^ 60 - 1

/-- A history without samples. -/
def empty (capacity : Nat) : SampleHistory := ⟨[], capacity, 0⟩

/-- One more sample; a full history gives up its oldest one. -/
def record (h : SampleHistory) (sample : UInt64) : SampleHistory where
  samples := (if h.capacity ≤ h.samples.length then h.samples.drop 1 else h.samples) ++ [sample]
  capacity := h.capacity
  count := h.count + 1

/-- The newest samples stay when the capacity shrinks. -/
def setCapacity (h : SampleHistory) (capacity : Nat) : SampleHistory :=
  { h with samples := h.samples.drop (h.samples.length - capacity), capacity }

/-- One more sample added to a sum of 64 bits, which must not become larger than that. -/
def addSample (sum sample : UInt64) : Except StateError UInt64 :=
  if sum.toNat + sample.toNat < 2 ^ 64 then .ok (sum + sample) else .error .sampleSumTooLarge

/-- The sum of the retained samples, oldest first, which has to be a 64-bit word. -/
def sum (h : SampleHistory) : Except StateError UInt64 := h.samples.foldlM addSample 0

/-- The mean of a number of samples with the given sum; zero if there are none. -/
def mean (sum : UInt64) (retained : Nat) : Binary64 :=
  if retained = 0 then ⟨0⟩
  else Binary64.divMagnitude (.ofNat sum.toNat) (.ofNat retained)

/-- What is reported of the history; nothing can be if the samples cannot be added up. -/
def summary (h : SampleHistory) : Except StateError SampleSummary := do
  let sum ← h.sum
  return {
    count := h.count
    retained := h.samples.length
    mean := mean sum h.samples.length
    max := h.samples.foldl max 0 }

end SampleHistory

/-- One thing for each operation. -/
structure ByOperation (α : Type) where
  get : α
  put : α
  remove : α
  entries : α
  clear : α

namespace ByOperation

variable {α β : Type}

/-- The same thing for every operation. -/
def const (a : α) : ByOperation α := ⟨a, a, a, a, a⟩

/-- What there is for an operation. -/
def select (b : ByOperation α) : Operation → α
  | .get => b.get
  | .put => b.put
  | .remove => b.remove
  | .entries => b.entries
  | .clear => b.clear

/-- Changes what there is for one operation. -/
def modify (b : ByOperation α) (op : Operation) (f : α → α) : ByOperation α :=
  match op with
  | .get => { b with get := f b.get }
  | .put => { b with put := f b.put }
  | .remove => { b with remove := f b.remove }
  | .entries => { b with entries := f b.entries }
  | .clear => { b with clear := f b.clear }

/-- Changes what there is for each operation. -/
def map (b : ByOperation α) (f : α → β) : ByOperation β :=
  ⟨f b.get, f b.put, f b.remove, f b.entries, f b.clear⟩

end ByOperation

/-- The histories of one family, and the capacities that were registered. -/
structure Histories where
  capacities : ExtTreeMap String Nat
  samples : ExtTreeMap String (ByOperation (Option SampleHistory))

namespace Histories

/-- Nothing was registered or recorded. -/
def empty : Histories := ⟨∅, ∅⟩

/-- The history of a state and an operation, if there are samples. -/
def history (h : Histories) (state : String) (op : Operation) : Option SampleHistory :=
  h.samples[state]?.bind fun b => b.select op

/-- Sets the capacity for a state, at least one, also of its histories so far. -/
def register (h : Histories) (state : String) (capacity : Nat) : Histories :=
  let capacity := max capacity 1
  { capacities := h.capacities.insert state capacity
    samples := h.samples.alter state fun b =>
      b.map fun b => b.map fun history => history.map fun s => s.setCapacity capacity }

/-- The capacity of a new history of a state. -/
def capacity (h : Histories) (default : Nat) (state : String) : Nat :=
  h.capacities.getD state default

/-- There is a history for a state and an operation, or one can be set up. -/
def accepts (h : Histories) (default : Nat) (state : String) (op : Operation) : Bool :=
  (h.history state op).isSome ||
    decide (h.capacity default state ≤ SampleHistory.greatestCapacity)

/-- Records a sample that is accepted; a new history has the capacity of the state or else the
default. -/
def record (h : Histories) (default : Nat) (state : String) (op : Operation) (sample : UInt64) :
    Histories :=
  let fresh := SampleHistory.empty (h.capacity default state)
  { h with
    samples := h.samples.alter state fun b =>
      some ((b.getD (.const none)).modify op fun history =>
        some ((history.getD fresh).record sample)) }

end Histories

/-- The histories of both families. -/
structure Metrics where
  defaultCapacity : Nat
  latencies : Histories
  sizes : Histories

namespace Metrics

/-- Nothing was registered or recorded; the default capacity is at least one. -/
def of (defaultCapacity : Nat) : Metrics := ⟨max defaultCapacity 1, .empty, .empty⟩

/-- The histories of a family. -/
def histories (m : Metrics) : Tracked → Histories
  | .latency => m.latencies
  | .size => m.sizes

/-- Changes the histories of a family. -/
def modify (m : Metrics) (family : Tracked) (f : Histories → Histories) : Metrics :=
  match family with
  | .latency => { m with latencies := f m.latencies }
  | .size => { m with sizes := f m.sizes }

/-- Sets the capacity of a family for a state. -/
def register (m : Metrics) (family : Tracked) (state : String) (capacity : Nat) : Metrics :=
  m.modify family fun h => h.register state capacity

/-- A sample of a family can be recorded. -/
def accepts (m : Metrics) (family : Tracked) (state : String) (op : Operation) : Bool :=
  (m.histories family).accepts m.defaultCapacity state op

/-- Records a sample of a family. One that is not accepted changes nothing. -/
def record (family : Tracked) (state : String) (op : Operation) (sample : UInt64) :
    Action Metrics Unit :=
  .of fun m =>
    if m.accepts family state op then
      (.ok (), m.modify family fun h => h.record m.defaultCapacity state op sample)
    else
      (.error .historyTooLarge, m)

/-- Records a latency, in nanoseconds. -/
def recordLatency (state : String) (op : Operation) (latency : Span) : Action Metrics Unit :=
  record .latency state op (UInt64.ofNat latency.nanos)

/-- A sample of a state can be recorded. -/
def acceptsSample (m : Metrics) (state : String) : Sample → Bool
  | .latency op => m.accepts .latency state op
  | .size op _ => m.accepts .size state op

/-- Records a sample of a state; what a latency measures counts as nothing. -/
def recordSample (m : Metrics) (state : String) : Sample → Metrics
  | .latency op => ((record .latency state op 0).perform m).2
  | .size op bytes => ((record .size state op (UInt64.ofNat bytes)).perform m).2

/-- What is reported of a family for a state and an operation, if there are samples. -/
def summary (m : Metrics) (family : Tracked) (state : String) (op : Operation) :
    Except StateError (Option SampleSummary) :=
  ((m.histories family).history state op).mapM SampleHistory.summary

end Metrics

end KeyedState
