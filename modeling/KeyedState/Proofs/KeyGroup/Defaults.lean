import KeyedState.Proofs.KeyGroup.Partition
import Mathlib.Order.Bounds.Basic

/-!
# The default maximum parallelism

A job that does not set its maximum parallelism gets one from its parallelism: half as much again,
rounded up to a power of two and kept between 128 and 32768. The sum saturates and the power of two
may be no word, but both only happen far above the upper bound; and as the bounds are powers of two
themselves, it makes no difference whether they come before or after the rounding
(`LeastPowerOfTwo.clamped`). So the default is the least power of two that is not below 128 and not
below the sum, or 32768 (`toNat_defaultMaxParallelism`).

Main statement: `defaultMaxParallelism_is_usable`.
-/

namespace KeyedState.KeyGroup

/-! ## Powers of two -/

/-- The least power of two that is not below a number. -/
def LeastPowerOfTwo (n q : Nat) : Prop := IsLeast {q : Nat | q.isPowerOfTwo ∧ n ≤ q} q

namespace LeastPowerOfTwo

variable {n n' q q' : Nat}

/-- It is the first power of two, in the order of the exponents, that is not below the number. -/
theorem of_first {k : Nat} (reached : n ≤ 2 ^ k) (before : ∀ j < k, 2 ^ j < n) :
    LeastPowerOfTwo n (2 ^ k) := by
  refine ⟨⟨⟨k, rfl⟩, reached⟩, ?_⟩
  rintro q ⟨⟨j, rfl⟩, le⟩
  apply Nat.pow_le_pow_right (by decide)
  by_contra less
  exact absurd (before j (Nat.not_le.1 less)) (Nat.not_lt.2 le)

theorem le (rounded : LeastPowerOfTwo n q) : n ≤ q := rounded.1.2

/-- Rounding up goes past no power of two. -/
theorem le_two_pow_iff (rounded : LeastPowerOfTwo n q) (k : Nat) : q ≤ 2 ^ k ↔ n ≤ 2 ^ k :=
  ⟨Nat.le_trans rounded.le, fun le => rounded.2 ⟨⟨k, rfl⟩, le⟩⟩

theorem mono (rounded : LeastPowerOfTwo n q) (rounded' : LeastPowerOfTwo n' q') (le : n ≤ n') :
    q ≤ q' :=
  rounded.2 ⟨rounded'.1.1, Nat.le_trans le rounded'.le⟩

end LeastPowerOfTwo

/-- The search goes through the powers of two until one is not below the number. -/
theorem powerOfTwoFrom_two_pow {n steps k : Nat} (enough : n ≤ 2 ^ (k + steps))
    (before : ∀ j < k, 2 ^ j < n) : LeastPowerOfTwo n (powerOfTwoFrom n steps (2 ^ k)) := by
  induction steps generalizing k with
  | zero => exact .of_first enough before
  | succ steps ih =>
    rw [powerOfTwoFrom]
    split
    · next reached => exact .of_first reached before
    · next below =>
      rw [← Nat.pow_succ']
      apply ih
      · rwa [Nat.succ_add_eq_add_succ]
      · intro j hj
        rcases Nat.lt_succ_iff_lt_or_eq.1 hj with earlier | rfl
        · exact before j earlier
        · exact Nat.not_le.1 below

theorem powerOfTwoFrom_one {n steps : Nat} (enough : n ≤ 2 ^ steps) :
    LeastPowerOfTwo n (powerOfTwoFrom n steps 1) := by
  rw [← Nat.pow_zero 2]
  apply powerOfTwoFrom_two_pow
  · rwa [Nat.zero_add]
  · intro j negative
    exact absurd negative (Nat.not_lt_zero j)

theorem exists_leastPowerOfTwo (n : Nat) : ∃ q, LeastPowerOfTwo n q :=
  ⟨_, powerOfTwoFrom_one Nat.lt_two_pow_self.le⟩

/-- A word is rounded up unless the power of two is no word. -/
theorem nextPowerOfTwo?_eq {w : UInt32} {q : Nat} (rounded : LeastPowerOfTwo w.toNat q) :
    nextPowerOfTwo? w = if q < 2 ^ 32 then some (UInt32.ofNat q) else none := by
  have found := powerOfTwoFrom_one (Nat.le_of_lt w.toNat_lt)
  rw [nextPowerOfTwo?, IsLeast.unique found rounded]

/-- A power of two that is no word is above the upper bound, which stands in for it. -/
theorem min_getD_nextPowerOfTwo? {w : UInt32} {q : Nat} (rounded : LeastPowerOfTwo w.toNat q) :
    min ((nextPowerOfTwo? w).getD greatestParallelism).toNat 32768 = min q 32768 := by
  have greatest : greatestParallelism.toNat = 32768 := rfl
  rw [nextPowerOfTwo?_eq rounded]
  split
  · next word => rw [Option.getD_some, UInt32.toNat_ofNat_of_lt' word]
  · next large =>
    rw [Option.getD_none, greatest]
    omega

/-! ## Bounds -/

theorem toNat_saturatingAdd (a b : UInt32) :
    (saturatingAdd a b).toNat = min (a.toNat + b.toNat) (2 ^ 32 - 1) := by
  have := a.toNat_lt
  have := b.toNat_lt
  have sum : (a + b).toNat = (a.toNat + b.toNat) % 2 ^ 32 := UInt32.toNat_add a b
  rw [saturatingAdd]
  -- what is left of a sum that is no word is below either summand
  by_cases large : 2 ^ 32 ≤ a.toNat + b.toNat
  · rw [if_pos (by rw [UInt32.lt_iff_toNat_lt]; omega), Nat.min_eq_right (by omega)]
    rfl
  · rw [if_neg (by rw [UInt32.lt_iff_toNat_lt]; omega), sum]
    omega

theorem toNat_clamp (w : UInt32) :
    (if w < leastMaxParallelism then leastMaxParallelism
      else if greatestParallelism < w then greatestParallelism else w).toNat =
      max 128 (min w.toNat 32768) := by
  have least : leastMaxParallelism.toNat = 128 := rfl
  have greatest : greatestParallelism.toNat = 32768 := rfl
  simp only [UInt32.lt_iff_toNat_lt]
  split
  · omega
  · split
    · omega
    · omega

/-- A number that is rounded up and then kept within the bounds is as good as one that is first
raised to the lower bound and then rounded up, with no more than the upper bound in the end. The
cap on the number is far above the bounds. -/
theorem LeastPowerOfTwo.clamped {n r q : Nat} (capped : LeastPowerOfTwo (min n (2 ^ 32 - 1)) r)
    (rounded : LeastPowerOfTwo (max 128 n) q) :
    max 128 (min r 32768) = if q ≤ 32768 then q else 32768 := by
  have := capped.le
  have := rounded.le
  rcases Nat.lt_or_ge 128 n with more | few
  · rcases Nat.lt_or_ge 32768 n with many | some
    · rw [if_neg (by omega)]
      omega
    · -- between the bounds it is the same number that is rounded up
      rw [Nat.min_eq_left (by omega)] at capped
      rw [Nat.max_eq_right (by omega)] at rounded
      obtain rfl : r = q := IsLeast.unique capped rounded
      have limited : r ≤ 2 ^ 15 := (capped.le_two_pow_iff 15).2 some
      rw [if_pos limited]
      omega
  · have low : r ≤ 2 ^ 7 := (capped.le_two_pow_iff 7).2 (by omega)
    have low' : q ≤ 2 ^ 7 := (rounded.le_two_pow_iff 7).2 (by omega)
    rw [if_pos (by omega)]
    omega

/-! ## The default -/

/-- The default is the parallelism and half as much, but no less than the lower bound, rounded up
to a power of two, or else the upper bound. -/
theorem toNat_defaultMaxParallelism {p : UInt32} {q : Nat}
    (rounded : LeastPowerOfTwo (max 128 (p.toNat + p.toNat / 2)) q) :
    (defaultMaxParallelism p).toNat = if q ≤ 32768 then q else 32768 := by
  obtain ⟨r, capped⟩ := exists_leastPowerOfTwo (saturatingAdd p (p / 2)).toNat
  have scaled : (saturatingAdd p (p / 2)).toNat = min (p.toNat + p.toNat / 2) (2 ^ 32 - 1) := by
    rw [toNat_saturatingAdd, UInt32.toNat_div]
    rfl
  rw [defaultMaxParallelism, toNat_clamp, min_getD_nextPowerOfTwo? capped]
  rw [scaled] at capped
  exact capped.clamped rounded

/-- Small parallelisms have the lower bound for a default and large ones the upper bound. -/
example : [1, 85, 86, 100, 21846, 0xFFFFFFFF].map defaultMaxParallelism =
    [128, 128, 256, 256, 32768, 32768] := by decide

theorem defaultMaxParallelism_mono {p p' : UInt32} (le : p ≤ p') :
    defaultMaxParallelism p ≤ defaultMaxParallelism p' := by
  have le := UInt32.le_iff_toNat_le.1 le
  obtain ⟨q, rounded⟩ := exists_leastPowerOfTwo (max 128 (p.toNat + p.toNat / 2))
  obtain ⟨q', rounded'⟩ := exists_leastPowerOfTwo (max 128 (p'.toNat + p'.toNat / 2))
  have ordered : q ≤ q' := rounded.mono rounded' (by omega)
  rw [UInt32.le_iff_toNat_le, toNat_defaultMaxParallelism rounded,
    toNat_defaultMaxParallelism rounded']
  split
  · split
    · exact ordered
    · next inside _ => exact inside
  · rw [if_neg (by omega)]

/-- A parallelism that is accepted is accepted together with its default. -/
theorem sized_defaultMaxParallelism {p : UInt32} (positive : 1 ≤ p)
    (limited : p ≤ greatestParallelism) : Sized (defaultMaxParallelism p) p := by
  obtain ⟨q, rounded⟩ := exists_leastPowerOfTwo (max 128 (p.toNat + p.toNat / 2))
  have value := toNat_defaultMaxParallelism rounded
  have reached := rounded.le
  have limited : p.toNat ≤ 32768 := UInt32.le_iff_toNat_le.1 limited
  have greatest : greatestParallelism.toNat = 32768 := rfl
  constructor
  · exact positive
  · rw [UInt32.le_iff_toNat_le, value]
    split
    · omega
    · exact limited
  · rw [UInt32.le_iff_toNat_le, value, greatest]
    split
    · next inside => exact inside
    · exact Nat.le_refl _

/-- **The default maximum parallelism is always usable.** It is the least power of two that is
neither below 128 nor below the parallelism and half as much, or 32768 if that is less; it does not
fall when the parallelism rises; and for every parallelism that is accepted it is accepted too, is
not below it, and gives each of the operators a range of key groups. -/
theorem defaultMaxParallelism_is_usable :
    (∀ p : UInt32, ∃ q, LeastPowerOfTwo (max 128 (p.toNat + p.toNat / 2)) q ∧
      (defaultMaxParallelism p).toNat = if q ≤ 32768 then q else 32768) ∧
    (∀ p p', p ≤ p' → defaultMaxParallelism p ≤ defaultMaxParallelism p') ∧
    ∀ p, 1 ≤ p → p ≤ 32768 →
      p ≤ defaultMaxParallelism p ∧
      ∀ i < p, ∃ r, ownedRange (defaultMaxParallelism p) p i = .ok r := by
  refine ⟨fun p => ?_, fun p p' => defaultMaxParallelism_mono, fun p positive limited => ?_⟩
  · obtain ⟨q, rounded⟩ := exists_leastPowerOfTwo (max 128 (p.toNat + p.toNat / 2))
    exact ⟨q, rounded, toNat_defaultMaxParallelism rounded⟩
  · have sized := sized_defaultMaxParallelism positive limited
    refine ⟨sized.bounded, fun i hi => ?_⟩
    obtain ⟨r, owned, -⟩ := exists_ownedRange sized hi
    exact ⟨r, owned⟩

/-- The default doubles between 85 and 86 operators. Of 32767 operators, where half as much again is
past the upper bound, the last one has a range. -/
theorem defaultMaxParallelism_is_usable_upToBound :
    (85 : UInt32) ≤ 86 ∧ defaultMaxParallelism 85 ≤ defaultMaxParallelism 86 ∧
      (1 : UInt32) ≤ 32767 ∧ (32767 : UInt32) ≤ 32768 ∧ (32766 : UInt32) < 32767 ∧
      32767 ≤ defaultMaxParallelism 32767 ∧
      ∃ r, ownedRange (defaultMaxParallelism 32767) 32767 32766 = .ok r := by
  obtain ⟨-, rises, usable⟩ := defaultMaxParallelism_is_usable
  obtain ⟨bounded, owned⟩ := usable 32767 (by decide) (by decide)
  exact ⟨by decide, rises 85 86 (by decide), by decide, by decide, by decide, bounded,
    owned 32766 (by decide)⟩

end KeyedState.KeyGroup
