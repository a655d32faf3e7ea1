import KeyedState.Serializer

/-!
# Settings of a backend

What a backend is built from: its key groups, the format and the compression of
what it writes, and how often it takes samples of latencies and sizes.
-/

namespace KeyedState

/-- Settings for all states of a backend: whether streams of key groups are compressed, and in
which format keys and values are written when no serializer is given. -/
structure ExecutionConfig where
  compress : Bool
  format : SerializerFormat
  deriving DecidableEq, Repr

/-- No compression, binary format. -/
def ExecutionConfig.initial : ExecutionConfig := ⟨false, .binary⟩

/-- How one family of quantities is tracked: every `interval`-th access is sampled, and `history`
samples are kept for each state and operation. -/
structure SamplingConfig where
  enabled : Bool
  interval : UInt32
  history : UInt64
  deriving DecidableEq, Repr

namespace SamplingConfig

/-- Nothing is tracked. -/
def initial : SamplingConfig := ⟨false, 100, 128⟩

/-- Sampling at an interval of zero or keeping no samples is refused. -/
def validate (c : SamplingConfig) (family : Tracked) : Except StateError Unit :=
  if c.interval = 0 then .error (.zeroSampleInterval family)
  else if c.history = 0 then .error (.zeroHistorySize family)
  else .ok ()

end SamplingConfig

/-- Everything that a backend's builder takes from a file. -/
structure BackendConfig where
  groups : UInt32
  range : KeyGroupRange
  execution : ExecutionConfig
  latency : SamplingConfig
  size : SamplingConfig
  deriving DecidableEq, Repr

end KeyedState
