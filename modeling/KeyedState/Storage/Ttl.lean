import KeyedState.Config.Ttl
import KeyedState.Storage.Store

/-!
# Expiry of entries

A layer that stores each value behind a stamp, the time of its last refresh, in
eight bytes with the high one first. An entry has expired once its stamp and its time
to live, added up and capped at the largest word, are not after the present.

The present is the reading of a clock, given to the layer with each request.
-/

namespace KeyedState.Ttl

variable {σ : Type}

/-- A value behind its stamp. -/
def stamped (time : UInt64) (value : Bytes) : Bytes := bigEndian 8 time.toNat ++ value

/-- The stamp and the value of what is stored. -/
def unstamp (stored : Bytes) : Except StateError (UInt64 × Bytes) :=
  match splitExactly 8 stored with
  | some (stamp, value) => .ok (UInt64.ofNat (ofBigEndian stamp), value)
  | none => .error (.serialization (.missingTimestamp stored.length))

/-- An entry with the given stamp has expired. -/
def hasExpired (c : TtlConfig) (stamp now : UInt64) : Bool :=
  min Span.cap (stamp.toNat + c.ttl.millis) ≤ now.toNat

/-- Reading refreshes the stamp. -/
def refreshesOnRead (c : TtlConfig) : Bool := c.update == .onReadAndWrite

/-- Expired entries are returned as long as they are stored. -/
def returnsExpired (c : TtlConfig) : Bool := c.visibility == .returnExpired

/-- What a read makes of the stored entry at an address: the value, if it may be returned, after
the entry was refreshed or removed as the policy says. -/
def deliver (c : TtlConfig) (now : UInt64) (inner : Store σ) (a : Address) (stored : Bytes) :
    Action σ (Option Bytes) := do
  let (stamp, value) ← Action.lift (unstamp stored)
  if hasExpired c stamp now then
    if returnsExpired c then
      return some value
    else
      let _ ← inner.remove a
      return none
  else
    if refreshesOnRead c then inner.put a (stamped now value)
    return some value

/-- The entries that may be returned, each one read in turn. -/
def deliverAll (c : TtlConfig) (now : UInt64) (inner : Store σ) (s : SlotAddress) :
    List (Bytes × Bytes) → Action σ (List (Bytes × Bytes))
  | [] => return []
  | (userKey, stored) :: rest => do
    let value ← deliver c now inner (s.entry userKey) stored
    let live ← deliverAll c now inner s rest
    return (value.map (userKey, ·)).toList ++ live

/-- The layer around a store. -/
def store (c : TtlConfig) (now : UInt64) (inner : Store σ) : Store σ where
  perform
    | .get a => do
      match ← inner.get a with
      | none => return none
      | some stored => deliver c now inner a stored
    | .put a value => inner.put a (stamped now value)
    | .remove a => do
      match ← inner.remove a with
      | none => return none
      | some stored => do
        let (stamp, value) ← Action.lift (unstamp stored)
        return if hasExpired c stamp now && !returnsExpired c then none else some value
    | .entries s => do deliverAll c now inner s (← inner.entries s)
    | .clear s => inner.clear s

end KeyedState.Ttl
