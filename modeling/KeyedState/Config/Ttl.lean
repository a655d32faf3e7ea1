import KeyedState.Numeric.Instances

/-!
# Time to live

How long an entry of a named state lives, what refreshes it, and whether an entry
that has expired but is still stored may be returned.
-/

namespace KeyedState

/-- A span of time in seconds and nanoseconds. -/
structure Span where
  seconds : UInt64
  nanoseconds : Nat
  nanoseconds_lt : nanoseconds < 10 ^ 9 := by decide
  deriving DecidableEq, Repr

namespace Span

/-- The longest span. -/
def longest : Span := ⟨0xFFFFFFFFFFFFFFFF, 999999999, by decide⟩

/-- Nanoseconds of a second or more carry into the seconds, which must not overflow. -/
def of? (seconds : UInt64) (nanoseconds : Nat) : Option Span :=
  let total := seconds.toNat + nanoseconds / 10 ^ 9
  if total < 2 ^ 64 then
    some ⟨UInt64.ofNat total, nanoseconds % 10 ^ 9, Nat.mod_lt _ (by decide)⟩
  else
    none

/-- A number of milliseconds. -/
def ofMillis (ms : UInt64) : Span :=
  ⟨ms / 1000, (ms % 1000).toNat * 10 ^ 6, by
    have : (ms % 1000).toNat < 1000 := by
      rw [UInt64.toNat_mod]; exact Nat.mod_lt _ (by decide)
    omega⟩

/-- The largest 64-bit word, at which spans and times are capped. -/
def cap : Nat := 2 ^ 64 - 1

/-- Whole milliseconds, capped at the largest word. -/
def millis (s : Span) : Nat := min cap (s.seconds.toNat * 1000 + s.nanoseconds / 10 ^ 6)

/-- Nanoseconds, capped at the largest word. -/
def nanos (s : Span) : Nat := min cap (s.seconds.toNat * 10 ^ 9 + s.nanoseconds)

end Span

/-- What refreshes the stamp of an entry; without any, entries do not expire at all. -/
inductive TtlUpdate where
  | disabled
  | onWrite
  | onReadAndWrite
  deriving DecidableEq, Repr

/-- Whether an expired entry that is still stored is returned. -/
inductive TtlVisibility where
  | returnExpired
  | neverReturnExpired
  deriving DecidableEq, Repr

/-- The expiry policy of one named state. -/
structure TtlConfig where
  ttl : Span
  update : TtlUpdate
  visibility : TtlVisibility
  deriving DecidableEq, Repr

namespace TtlConfig

/-- Entries do not expire. -/
def initial : TtlConfig := ⟨.longest, .disabled, .returnExpired⟩

/-- Entries expire. -/
def isEnabled (c : TtlConfig) : Bool := c.update != .disabled

end TtlConfig

end KeyedState
