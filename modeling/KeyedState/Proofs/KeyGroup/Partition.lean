import KeyedState.KeyGroup.Assignment

/-!
# The operators partition the key groups

For a parallelism between one and the maximum, the range of every operator is found
(`KeyGroup.exists_ownedRange`), and it contains exactly the key groups whose owner the
operator is (`KeyGroup.contains_ownedRange_iff`): rounding up where ranges start and
rounding down where owners are computed are two sides of one division
(`floor_eq_iff`).
-/

namespace KeyedState.KeyGroup

/-- A quotient is `i` exactly between the ceiling for `i` and the last number before the ceiling
for `i + 1`. -/
theorem floor_eq_iff {m p : Nat} (hm : 0 < m) (hp : 0 < p) (i g : Nat) :
    g * p / m = i ↔ (i * m + p - 1) / p ≤ g ∧ g ≤ ((i + 1) * m - 1) / p := by
  have first : (i * m + p - 1) / p ≤ g ↔ i * m ≤ g * p := by
    rw [← Nat.lt_succ_iff, Nat.div_lt_iff_lt_mul hp, Nat.succ_mul]
    omega
  have last : g ≤ ((i + 1) * m - 1) / p ↔ g * p < (i + 1) * m := by
    have positive : 0 < (i + 1) * m := Nat.mul_pos i.succ_pos hm
    rw [Nat.le_div_iff_mul_le hp]
    omega
  rw [first, last, Nat.div_eq_iff hm]
  constructor
  · intro bounds
    rw [Nat.succ_mul]
    omega
  · intro bounds
    rw [Nat.succ_mul] at bounds
    omega

/-- The sizes for which operators have ranges: between one operator and as many as key groups. -/
structure Sized (m p : UInt32) : Prop where
  positive : 1 ≤ p
  bounded : p ≤ m
  limited : m ≤ greatestParallelism

namespace Sized

variable {m p : UInt32}

theorem toNat (sized : Sized m p) : 1 ≤ p.toNat ∧ p.toNat ≤ m.toNat ∧ m.toNat ≤ 32768 :=
  ⟨UInt32.le_iff_toNat_le.1 sized.positive, UInt32.le_iff_toNat_le.1 sized.bounded,
    UInt32.le_iff_toNat_le.1 sized.limited⟩

end Sized

/-- A product of two numbers of operators and key groups is a 64-bit word. -/
theorem mul_le_of_le {a b : Nat} (ha : a ≤ 32768) (hb : b ≤ 32768) : a * b ≤ 2 ^ 30 :=
  Nat.le_trans (Nat.mul_le_mul ha hb) (by decide)

/-- The owner of a key group is the floor of its share. -/
theorem toNat_owner {m p g : UInt32} (sized : Sized m p) (hg : g < m) :
    (owner m p g).toNat = g.toNat * p.toNat / m.toNat := by
  obtain ⟨hp, hpm, hm⟩ := sized.toNat
  have hg := UInt32.lt_iff_toNat_lt.1 hg
  have product : g.toNat * p.toNat ≤ 2 ^ 30 := mul_le_of_le (by omega) (by omega)
  have quotient : g.toNat * p.toNat / m.toNat ≤ g.toNat * p.toNat := Nat.div_le_self _ _
  simp only [owner, UInt64.toNat_toUInt32, UInt64.toNat_div, UInt64.toNat_mul,
    UInt32.toNat_toUInt64]
  rw [Nat.mod_eq_of_lt (a := g.toNat * p.toNat) (by omega), Nat.mod_eq_of_lt (by omega)]

/-- The owner of a key group is one of the operators. -/
theorem owner_lt {m p g : UInt32} (sized : Sized m p) (hg : g < m) : owner m p g < p := by
  obtain ⟨hp, hpm, hm⟩ := sized.toNat
  have hg' := UInt32.lt_iff_toNat_lt.1 hg
  rw [UInt32.lt_iff_toNat_lt, toNat_owner sized hg, Nat.div_lt_iff_lt_mul (by omega), Nat.mul_comm]
  exact Nat.mul_lt_mul_of_pos_left hg' (by omega)

section Bounds

variable {m p i : UInt32}

/-- The start of a range is computed without leaving a word. -/
theorem toNat_first (sized : Sized m p) (hi : i < p) :
    ((i.toUInt64 * m.toUInt64 + p.toUInt64 - 1) / p.toUInt64).toUInt32.toNat =
      (i.toNat * m.toNat + p.toNat - 1) / p.toNat := by
  obtain ⟨hp, hpm, hm⟩ := sized.toNat
  have hi := UInt32.lt_iff_toNat_lt.1 hi
  have product : i.toNat * m.toNat ≤ 2 ^ 30 := mul_le_of_le (by omega) hm
  have sum : (i.toUInt64 * m.toUInt64 + p.toUInt64).toNat = i.toNat * m.toNat + p.toNat := by
    simp only [UInt64.toNat_add, UInt64.toNat_mul, UInt32.toNat_toUInt64]
    rw [Nat.mod_eq_of_lt (a := i.toNat * m.toNat) (by omega), Nat.mod_eq_of_lt (by omega)]
  have positive : 1 ≤ i.toUInt64 * m.toUInt64 + p.toUInt64 := by
    rw [UInt64.le_iff_toNat_le, sum, UInt64.toNat_one]
    omega
  have quotient : (i.toNat * m.toNat + p.toNat - 1) / p.toNat ≤ i.toNat * m.toNat + p.toNat - 1 :=
    Nat.div_le_self _ _
  rw [UInt64.toNat_toUInt32, UInt64.toNat_div, UInt64.toNat_sub_of_le _ _ positive, sum,
    UInt64.toNat_one, UInt32.toNat_toUInt64, Nat.mod_eq_of_lt (by omega)]

/-- The end of a range is computed without leaving a word. -/
theorem toNat_last (sized : Sized m p) (hi : i < p) :
    (((i.toUInt64 + 1) * m.toUInt64 - 1) / p.toUInt64).toUInt32.toNat =
      ((i.toNat + 1) * m.toNat - 1) / p.toNat := by
  obtain ⟨hp, hpm, hm⟩ := sized.toNat
  have hi := UInt32.lt_iff_toNat_lt.1 hi
  have bound : (i.toNat + 1) * m.toNat ≤ 2 ^ 30 := mul_le_of_le (by omega) hm
  have product : ((i.toUInt64 + 1) * m.toUInt64).toNat = (i.toNat + 1) * m.toNat := by
    simp only [UInt64.toNat_mul, UInt64.toNat_add, UInt32.toNat_toUInt64, UInt64.toNat_one]
    rw [Nat.mod_eq_of_lt (a := i.toNat + 1) (by omega), Nat.mod_eq_of_lt (by omega)]
  have positive : 1 ≤ (i.toUInt64 + 1) * m.toUInt64 := by
    rw [UInt64.le_iff_toNat_le, product, UInt64.toNat_one]
    exact Nat.mul_pos i.toNat.succ_pos (by omega)
  have quotient : ((i.toNat + 1) * m.toNat - 1) / p.toNat ≤ (i.toNat + 1) * m.toNat - 1 :=
    Nat.div_le_self _ _
  rw [UInt64.toNat_toUInt32, UInt64.toNat_div, UInt64.toNat_sub_of_le _ _ positive, product,
    UInt64.toNat_one, UInt32.toNat_toUInt64, Nat.mod_eq_of_lt (by omega)]

/-- A parallelism within the limits is accepted. -/
theorem checkParallelism_eq_ok {n : UInt32} (positive : 1 ≤ n) (limited : n ≤ greatestParallelism) :
    checkParallelism n = .ok () := by
  rw [checkParallelism, if_neg]
  rintro (rfl | large)
  · exact absurd positive (by decide)
  · exact UInt32.not_lt.2 limited large

/-- An operator has a range, whose bounds are the ceiling for it and the last number before the
ceiling for the next one. -/
theorem exists_ownedRange (sized : Sized m p) (hi : i < p) :
    ∃ r, ownedRange m p i = .ok r ∧
      r.first.toNat = (i.toNat * m.toNat + p.toNat - 1) / p.toNat ∧
      r.last.toNat = ((i.toNat + 1) * m.toNat - 1) / p.toNat := by
  obtain ⟨hp, hpm, hm⟩ := sized.toNat
  -- with no more operators than key groups no range is empty
  have ordered : ¬ (((i.toUInt64 + 1) * m.toUInt64 - 1) / p.toUInt64).toUInt32 <
      ((i.toUInt64 * m.toUInt64 + p.toUInt64 - 1) / p.toUInt64).toUInt32 := by
    have next : (i.toNat + 1) * m.toNat = i.toNat * m.toNat + m.toNat := Nat.succ_mul _ _
    rw [UInt32.not_lt, UInt32.le_iff_toNat_le, toNat_first sized hi, toNat_last sized hi]
    exact Nat.div_le_div_right (by omega)
  refine ⟨⟨_, _⟩, ?_, toNat_first sized hi, toNat_last sized hi⟩
  have validP := checkParallelism_eq_ok sized.positive
    (UInt32.le_trans sized.bounded sized.limited)
  have validM := checkParallelism_eq_ok (UInt32.le_trans sized.positive sized.bounded) sized.limited
  rw [ownedRange, validP, validM]
  simp only [bind, Except.bind, if_neg (UInt32.not_lt.2 sized.bounded),
    if_neg (UInt32.not_le.2 hi)]
  exact if_neg ordered

end Bounds

/-- The range of an operator contains exactly the key groups that it owns. -/
theorem contains_ownedRange_iff {m p i : UInt32} (sized : Sized m p) (hi : i < p)
    {r : KeyGroupRange} (owned : ownedRange m p i = .ok r) (g : KeyGroup) :
    r.contains g = true ↔ g < m ∧ owner m p g = i := by
  obtain ⟨hp, hpm, hm⟩ := sized.toNat
  have hi' := UInt32.lt_iff_toNat_lt.1 hi
  obtain ⟨r', owned', first, last⟩ := exists_ownedRange sized hi
  obtain rfl : r' = r := Except.ok.inj (owned'.symm.trans owned)
  simp only [KeyGroupRange.contains, Bool.and_eq_true, decide_eq_true_eq, UInt32.le_iff_toNat_le,
    first, last, UInt32.lt_iff_toNat_lt]
  -- the bounds are those between which the share has the floor i
  rw [← floor_eq_iff (by omega) (by omega)]
  constructor
  · intro quotient
    have product : g.toNat * p.toNat < p.toNat * m.toNat :=
      (Nat.div_lt_iff_lt_mul (by omega)).1 (quotient ▸ hi')
    have hg : g.toNat < m.toNat := Nat.lt_of_mul_lt_mul_left (Nat.mul_comm _ _ ▸ product)
    refine ⟨hg, UInt32.toNat_inj.1 ?_⟩
    rw [toNat_owner sized (UInt32.lt_iff_toNat_lt.2 hg), quotient]
  · rintro ⟨hg, rfl⟩
    exact (toNat_owner sized (UInt32.lt_iff_toNat_lt.2 hg)).symm

end KeyedState.KeyGroup
