import KeyedState.Config.Basic
import KeyedState.Storage.Store

/-!
# Sampling of requests

A layer that watches the requests to a store and takes samples: of every `n`-th
request its latency, and of every `m`-th one that moves data its size. It sees what
the caller sees, and neither the replies nor the store depend on it, as long as every
sample is accepted; one that is not is a fault, after the request was carried out.
-/

namespace KeyedState

/-- Picks every `interval`-th access. -/
structure Sampler where
  interval : UInt32
  accesses : UInt32
  deriving DecidableEq, Repr

namespace Sampler

/-- A sampler that has seen nothing; an interval of zero counts as one. -/
def of (interval : UInt32) : Sampler := ⟨if interval = 0 then 1 else interval, 0⟩

/-- Whether one more access is picked, and the sampler after it. -/
def tick (s : Sampler) : Bool × Sampler :=
  let seen := s.accesses + 1
  if s.interval ≤ seen then (true, { s with accesses := 0 })
  else (false, { s with accesses := seen })

end Sampler

/-- A sample of a request of some kind. What a latency measures is not modelled. -/
inductive Sample where
  | latency (op : Operation)
  | size (op : Operation) (bytes : Nat)
  deriving DecidableEq, Repr

/-- The samplers of a state, as far as its tracking is enabled, and the samples taken, the latest
last. -/
structure Tracker where
  latency : Option Sampler
  size : Option Sampler
  samples : List Sample
  deriving DecidableEq, Repr

/-- The bytes that a request has moved, if it counts as one that moves data: a value that was
found, a value that was put, the entries that were listed. -/
def Request.movedBytes : (r : Request) → Except StateError r.Reply → Option Nat
  | .get a, .ok (some value) => some (a.length + value.length)
  | .put a value, .ok _ => some (a.length + value.length)
  | .entries _, .ok listed => some ((listed.map fun (k, v) => k.length + v.length).sum)
  | _, _ => none

namespace Tracker

/-- A tracker with the samplers that the settings ask for. -/
def of (latency size : SamplingConfig) : Tracker where
  latency := if latency.enabled then some (.of latency.interval) else none
  size := if size.enabled then some (.of size.interval) else none
  samples := []

/-- Whether a sample is accepted, and the tracker after it. -/
def take (accepts : Sample → Bool) (t : Tracker) (x : Sample) : Bool × Tracker :=
  if accepts x then (true, { t with samples := t.samples ++ [x] }) else (false, t)

/-- The tracker after one more request, and whether its sample, if it is picked, is accepted. -/
def countLatency (accepts : Sample → Bool) (t : Tracker) (op : Operation) : Bool × Tracker :=
  match t.latency with
  | none => (true, t)
  | some sampler =>
    let (picked, sampler) := sampler.tick
    let t := { t with latency := some sampler }
    if picked then t.take accepts (.latency op) else (true, t)

/-- The same after one more request that has moved data. -/
def countSize (accepts : Sample → Bool) (t : Tracker) (op : Operation) (bytes : Nat) :
    Bool × Tracker :=
  match t.size with
  | none => (true, t)
  | some sampler =>
    let (picked, sampler) := sampler.tick
    let t := { t with size := some sampler }
    if picked then t.take accepts (.size op bytes) else (true, t)

/-- The tracker after a request with its outcome, and whether all its samples are accepted. The
first one that is not is the last one looked at. -/
def observe (accepts : Sample → Bool) (t : Tracker) (r : Request)
    (outcome : Except StateError r.Reply) : Bool × Tracker :=
  match t.countLatency accepts r.operation with
  | (false, t) => (false, t)
  | (true, t) =>
    match r.movedBytes outcome with
    | none => (true, t)
    | some bytes => t.countSize accepts r.operation bytes

/-- The layer around a store; the state of the tracker stands beside that of the store. -/
def store {σ : Type} (accepts : Sample → Bool) (inner : Store σ) : Store (σ × Tracker) where
  perform r := .of fun (s, t) =>
    let (outcome, s) := (inner.perform r).perform s
    let (accepted, t) := t.observe accepts r outcome
    (if accepted then outcome else .error .historyTooLarge, s, t)

end Tracker

end KeyedState
