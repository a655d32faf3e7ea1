/-!
# Key groups and their ranges

A key group is the unit in which keyed state is partitioned and moved. A range holds
the groups between two bounds, both included. A range whose end is below its start
is empty; `KeyGroupRange.empty` is the canonical one of the many empty ranges.

Main statements: `mem_toList`, iteration yields exactly the groups that the range
contains, and `firstGroups_eq_take`, a bounded iteration is the front of the whole.
-/

namespace KeyedState

/-- The number of a key group. -/
abbrev KeyGroup := UInt32

/-- The key groups from `first` to `last`, both included. -/
structure KeyGroupRange where
  first : KeyGroup
  last : KeyGroup
  deriving DecidableEq, Repr

/-- Why a range of key groups or a parallelism is refused. -/
inductive KeyGroupError where
  | invalidRange (first last : KeyGroup)
  | invalidParallelism (parallelism : UInt32)
  | parallelismExceedsMax (maxParallelism parallelism : UInt32)
  | operatorIndexOutOfBounds (index parallelism : UInt32)
  deriving DecidableEq, Repr

/-- What is reported for a refusal. -/
def KeyGroupError.message : KeyGroupError → String
  | .invalidRange first last =>
    s!"invalid key group range: start {first} is after end {last}"
  | .invalidParallelism parallelism =>
    s!"parallelism must be between 1 and 32768, got {parallelism}"
  | .parallelismExceedsMax maxParallelism parallelism =>
    s!"maximum parallelism {maxParallelism} must not be smaller than parallelism {parallelism}"
  | .operatorIndexOutOfBounds index parallelism =>
    s!"operator index {index} is out of bounds for parallelism {parallelism}"

namespace KeyGroupRange

/-- The canonical empty range. -/
def empty : KeyGroupRange := ⟨1, 0⟩

/-- A range whose start is not after its end. -/
def of (first last : KeyGroup) : Except KeyGroupError KeyGroupRange :=
  if last < first then .error (.invalidRange first last) else .ok ⟨first, last⟩

/-- There is no group between the bounds. -/
def isEmpty (r : KeyGroupRange) : Bool := r.last < r.first

/-- The group lies between the bounds. -/
def contains (r : KeyGroupRange) (g : KeyGroup) : Bool := r.first ≤ g && g ≤ r.last

/-- How many groups there are. -/
def size (r : KeyGroupRange) : Nat := r.last.toNat + 1 - r.first.toNat

/-- The number of groups as a 32-bit word; the one range of `2 ^ 32` groups counts one less. -/
def count (r : KeyGroupRange) : UInt32 :=
  if r.isEmpty then 0
  else
    let span := r.last - r.first
    if span + 1 < span then span else span + 1

/-- The groups that both ranges contain. -/
def intersection (r s : KeyGroupRange) : KeyGroupRange :=
  let first := if r.first < s.first then s.first else r.first
  let last := if s.last < r.last then s.last else r.last
  if first ≤ last then ⟨first, last⟩ else empty

/-- At most `n` groups from the start, in ascending order. -/
def firstGroups (r : KeyGroupRange) (n : Nat) : List KeyGroup :=
  (List.range' r.first.toNat (min n r.size)).map UInt32.ofNat

/-- All groups in ascending order. -/
def toList (r : KeyGroupRange) : List KeyGroup :=
  (List.range' r.first.toNat r.size).map UInt32.ofNat

/-- The range as text. -/
def text (r : KeyGroupRange) : String :=
  if r.isEmpty then "KeyGroupRange\x7bempty\x7d"
  else s!"KeyGroupRange\x7bstart={r.first}, end={r.last}\x7d"

/-- The first groups are the front of the list of all. -/
theorem firstGroups_eq_take (r : KeyGroupRange) (n : Nat) :
    r.firstGroups n = r.toList.take n := by
  rw [firstGroups, toList, ← List.map_take]
  congr 1
  apply List.ext_getElem <;> simp

/-- The list holds exactly the groups of the range. -/
theorem mem_toList {r : KeyGroupRange} {g : KeyGroup} : g ∈ r.toList ↔ r.contains g := by
  have := r.last.toNat_lt
  have := g.toNat_lt
  simp only [toList, List.mem_map, List.mem_range'_1, contains, Bool.and_eq_true,
    decide_eq_true_eq, UInt32.le_iff_toNat_le, size]
  constructor
  · rintro ⟨n, bounds, rfl⟩
    rw [UInt32.toNat_ofNat', Nat.mod_eq_of_lt (by omega)]
    omega
  · intro bounds
    exact ⟨g.toNat, by omega, UInt32.ofNat_toNat⟩

end KeyGroupRange

end KeyedState
