import KeyedState.KeyGroup.Murmur3
import KeyedState.KeyGroup.Range
import KeyedState.Schema.Hash
import Std.Data.ExtTreeMap

/-!
# Assignment of keys to key groups, and of key groups to operators

A job has a fixed number of key groups, its maximum parallelism. A key hashes into
one of them. Each of the parallel operators owns one contiguous range: the operator
of index `i` out of `p` owns the groups from `⌈i * m / p⌉` to `⌊((i + 1) * m - 1) / p⌋`
out of `m`, and `owner` finds the operator of a group by `⌊g * p / m⌋`.
-/

namespace KeyedState

/-- The hash of a key. -/
def Schema.hash (s : Schema) (key : s.Val) : UInt32 := Murmur3.hash 0 (s.hashBytes key)

namespace KeyGroup

/-- The lower bound of a default maximum parallelism. -/
def leastMaxParallelism : UInt32 := 128

/-- The upper bound of every parallelism. -/
def greatestParallelism : UInt32 := 32768

/-- The key group of a hash, out of `groups` ones, which must not be zero. -/
def assign (hash groups : UInt32) : KeyGroup := hash % groups

/-- The key group of a hash; there is none if there are no groups. -/
def assign? (hash groups : UInt32) : Option KeyGroup :=
  if groups = 0 then none else some (assign hash groups)

/-- The index of the operator that owns a group. The product is taken in 64 bits and the quotient
is cut to 32. -/
def owner (maxParallelism parallelism : UInt32) (g : KeyGroup) : UInt32 :=
  (g.toUInt64 * parallelism.toUInt64 / maxParallelism.toUInt64).toUInt32

/-- The index of the operator that owns a group; there is none if there are no groups. -/
def owner? (maxParallelism parallelism : UInt32) (g : KeyGroup) : Option UInt32 :=
  if maxParallelism = 0 then none else some (owner maxParallelism parallelism g)

/-- A parallelism is between 1 and 32768. -/
def checkParallelism (parallelism : UInt32) : Except KeyGroupError Unit :=
  if parallelism = 0 ∨ greatestParallelism < parallelism then
    .error (.invalidParallelism parallelism)
  else
    .ok ()

/-- The range of groups that an operator owns. -/
def ownedRange (maxParallelism parallelism index : UInt32) :
    Except KeyGroupError KeyGroupRange := do
  checkParallelism parallelism
  checkParallelism maxParallelism
  if maxParallelism < parallelism then
    throw (.parallelismExceedsMax maxParallelism parallelism)
  if parallelism ≤ index then
    throw (.operatorIndexOutOfBounds index parallelism)
  let m := maxParallelism.toUInt64
  let p := parallelism.toUInt64
  let i := index.toUInt64
  let first := (i * m + p - 1) / p
  let last := ((i + 1) * m - 1) / p
  KeyGroupRange.of first.toUInt32 last.toUInt32

/-- The sum of two words, or the greatest word if it is larger. -/
def saturatingAdd (a b : UInt32) : UInt32 :=
  if a + b < a then 0xFFFFFFFF else a + b

/-- The least power of two that is at least `n` and at least `p`, searched among `fuel` ones. -/
def powerOfTwoFrom (n : Nat) : Nat → Nat → Nat
  | 0, p => p
  | fuel + 1, p => if n ≤ p then p else powerOfTwoFrom n fuel (2 * p)

/-- The least power of two that is at least `n`, if it is a 32-bit word. -/
def nextPowerOfTwo? (n : UInt32) : Option UInt32 :=
  let p := powerOfTwoFrom n.toNat 32 1
  if p < 2 ^ 32 then some (UInt32.ofNat p) else none

/-- The maximum parallelism for an operator that does not set one: half as much again as its
parallelism, rounded up to a power of two and kept between 128 and 32768. -/
def defaultMaxParallelism (parallelism : UInt32) : UInt32 :=
  let scaled := saturatingAdd parallelism (parallelism / 2)
  let rounded := (nextPowerOfTwo? scaled).getD greatestParallelism
  if rounded < leastMaxParallelism then leastMaxParallelism
  else if greatestParallelism < rounded then greatestParallelism
  else rounded

/-- An owned range and the owners of its two bounds. -/
structure Ownership where
  range : KeyGroupRange
  firstOwner : UInt32
  lastOwner : UInt32
  deriving DecidableEq, Repr

/-- The ranges of the operators of the first `n` indices, with the owners of their bounds. -/
def ownerships (maxParallelism parallelism : UInt32) (n : Nat) :
    Except KeyGroupError (List Ownership) :=
  (List.range n).mapM fun index => do
    let range ← ownedRange maxParallelism parallelism (UInt32.ofNat index)
    return ⟨range, owner maxParallelism parallelism range.first,
      owner maxParallelism parallelism range.last⟩

/-- How many of the hashes fall into each group out of `groups`, which must not be zero. -/
def occupancy (groups : UInt32) (hashes : List UInt32) : Std.ExtTreeMap KeyGroup Nat :=
  hashes.foldl (fun counts hash => counts.alter (assign hash groups) fun n => some (n.getD 0 + 1)) ∅

end KeyGroup

end KeyedState
