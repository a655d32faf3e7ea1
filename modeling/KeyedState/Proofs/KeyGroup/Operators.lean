import KeyedState.Proofs.KeyGroup.Partition
import KeyedState.Proofs.KeyGroup.Ranges
import Mathlib.Data.Nat.ModEq

/-!
# Operators side by side

The ranges of the operators of a job stand one behind the other: the first one starts at key
group 0, each one starts where the one before it ended (`ceil_succ`), the last one ends at the
last key group, and their sizes differ by one at most (`ceil_sub_ceil`). There are ranges for
exactly the sizes that are accepted (`ownedRange_eq_ok_iff`).

Owners and bounds are computed in 64-bit words and cut to 32 bits. With checked arithmetic, which
stops where a result is no word, they come out as they are (`ownerChecked_eq`,
`boundsChecked_eq`).

Main statement: `operators_partition_key_groups`.
-/

namespace KeyedState.KeyGroup

/-! ## Checked arithmetic -/

/-- The word of a number, if it is one. -/
def word64? (n : Nat) : Option UInt64 := if n < 2 ^ 64 then some (UInt64.ofNat n) else none

/-- The lower half of a word, if the upper half is zero. -/
def word32? (a : UInt64) : Option UInt32 := if a.toNat < 2 ^ 32 then some a.toUInt32 else none

/-- The difference of two words, if it is not below zero. -/
def subChecked (a b : UInt64) : Option UInt64 := if b ≤ a then some (a - b) else none

/-- The owner of a key group, unless a result on the way is no word. -/
def ownerChecked (maxParallelism parallelism : UInt32) (g : KeyGroup) : Option UInt32 := do
  let product ← word64? (g.toUInt64.toNat * parallelism.toUInt64.toNat)
  word32? (product / maxParallelism.toUInt64)

/-- The bounds of the range of an operator, unless a result on the way is no word. -/
def boundsChecked (maxParallelism parallelism index : UInt32) : Option (UInt32 × UInt32) := do
  let m := maxParallelism.toUInt64
  let p := parallelism.toUInt64
  let i := index.toUInt64
  let product ← word64? (i.toNat * m.toNat)
  let sum ← word64? (product.toNat + p.toNat)
  let before ← subChecked sum 1
  let first ← word32? (before / p)
  let next ← word64? (i.toNat + 1)
  let product ← word64? (next.toNat * m.toNat)
  let before ← subChecked product 1
  let last ← word32? (before / p)
  return (first, last)

theorem word64?_eq {n : Nat} {a : UInt64} (value : a.toNat = n) : word64? n = some a := by
  subst value
  rw [word64?, if_pos a.toNat_lt, UInt64.ofNat_toNat]

theorem word32?_eq {a : UInt64} (small : a.toNat < 2 ^ 32) : word32? a = some a.toUInt32 :=
  if_pos small

theorem subChecked_eq {a b : UInt64} (ordered : b.toNat ≤ a.toNat) :
    subChecked a b = some (a - b) :=
  if_pos (UInt64.le_iff_toNat_le.2 ordered)

section Words

variable {m p i g : UInt32}

/-- A product of two small words is a word. -/
theorem toNat_mul_of_le {a b : UInt64} (ha : a.toNat ≤ 32768) (hb : b.toNat ≤ 32768) :
    (a * b).toNat = a.toNat * b.toNat := by
  have bound := mul_le_of_le ha hb
  rw [UInt64.toNat_mul]
  exact Nat.mod_eq_of_lt (by omega)

/-- A sum of two words that are not large is a word. -/
theorem toNat_add_of_le {a b : UInt64} (ha : a.toNat ≤ 2 ^ 30) (hb : b.toNat ≤ 32768) :
    (a + b).toNat = a.toNat + b.toNat := by
  rw [UInt64.toNat_add]
  exact Nat.mod_eq_of_lt (by omega)

/-- A word that is not large stays so when it is divided. -/
theorem word32?_div {a b : UInt64} (ha : a.toNat ≤ 2 ^ 31) :
    word32? (a / b) = some (a / b).toUInt32 := by
  apply word32?_eq
  have quotient : a.toNat / b.toNat ≤ a.toNat := Nat.div_le_self _ _
  rw [UInt64.toNat_div]
  omega

/-- The owner of a key group is computed without leaving a word. -/
theorem ownerChecked_eq (sized : Sized m p) (hg : g < m) :
    ownerChecked m p g = some (owner m p g) := by
  obtain ⟨hp, hpm, hm⟩ := sized.toNat
  have hg := UInt32.lt_iff_toNat_lt.1 hg
  have small : g.toUInt64.toNat ≤ 32768 := by rw [UInt32.toNat_toUInt64]; omega
  have small' : p.toUInt64.toNat ≤ 32768 := by rw [UInt32.toNat_toUInt64]; omega
  have product := toNat_mul_of_le small small'
  have bound := mul_le_of_le small small'
  rw [ownerChecked, word64?_eq product]
  apply word32?_div
  rw [product]
  omega

/-- The bounds of the range of an operator are computed without leaving a word. -/
theorem boundsChecked_eq (sized : Sized m p) (hi : i < p) {r : KeyGroupRange}
    (owned : ownedRange m p i = .ok r) : boundsChecked m p i = some (r.first, r.last) := by
  obtain ⟨hp, hpm, hm⟩ := sized.toNat
  have hi' := UInt32.lt_iff_toNat_lt.1 hi
  have smallM : m.toUInt64.toNat ≤ 32768 := by rw [UInt32.toNat_toUInt64]; omega
  have smallP : p.toUInt64.toNat ≤ 32768 := by rw [UInt32.toNat_toUInt64]; omega
  have smallI : i.toUInt64.toNat ≤ 32768 := by rw [UInt32.toNat_toUInt64]; omega
  have bound := mul_le_of_le smallI smallM
  have product := toNat_mul_of_le smallI smallM
  have sum := toNat_add_of_le (product ▸ bound) smallP
  have next : (i.toUInt64 + 1).toNat = i.toUInt64.toNat + 1 :=
    toNat_add_of_le (by omega) (by decide)
  have smallNext : (i.toUInt64 + 1).toNat ≤ 32768 := by
    rw [next, UInt32.toNat_toUInt64]
    omega
  have product' := toNat_mul_of_le smallNext smallM
  have bound' := mul_le_of_le smallNext smallM
  -- neither of the differences is below zero
  have positive : (1 : UInt64).toNat ≤ (i.toUInt64 * m.toUInt64 + p.toUInt64).toNat := by
    rw [sum, UInt32.toNat_toUInt64 p, UInt64.toNat_one]
    omega
  have positive' : (1 : UInt64).toNat ≤ ((i.toUInt64 + 1) * m.toUInt64).toNat := by
    rw [product', next, UInt64.toNat_one]
    apply Nat.mul_pos (Nat.succ_pos _)
    rw [UInt32.toNat_toUInt64]
    omega
  have first : word32? ((i.toUInt64 * m.toUInt64 + p.toUInt64 - 1) / p.toUInt64) =
      some ((i.toUInt64 * m.toUInt64 + p.toUInt64 - 1) / p.toUInt64).toUInt32 := by
    apply word32?_div
    rw [UInt64.toNat_sub_of_le _ _ (UInt64.le_iff_toNat_le.2 positive)]
    omega
  have last : word32? (((i.toUInt64 + 1) * m.toUInt64 - 1) / p.toUInt64) =
      some (((i.toUInt64 + 1) * m.toUInt64 - 1) / p.toUInt64).toUInt32 := by
    apply word32?_div
    rw [UInt64.toNat_sub_of_le _ _ (UInt64.le_iff_toNat_le.2 positive')]
    omega
  have bounds : r.first = ((i.toUInt64 * m.toUInt64 + p.toUInt64 - 1) / p.toUInt64).toUInt32 ∧
      r.last = (((i.toUInt64 + 1) * m.toUInt64 - 1) / p.toUInt64).toUInt32 := by
    obtain ⟨r', owned', first', last'⟩ := exists_ownedRange sized hi
    obtain rfl : r' = r := Except.ok.inj (owned'.symm.trans owned)
    constructor
    · rw [← UInt32.toNat_inj, first', toNat_first sized hi]
    · rw [← UInt32.toNat_inj, last', toNat_last sized hi]
  rw [boundsChecked, bounds.1, bounds.2]
  simp only [word64?_eq product, word64?_eq sum, subChecked_eq positive, first, word64?_eq next,
    word64?_eq product', subChecked_eq positive', last, Option.bind_eq_bind, Option.bind_some,
    Option.pure_def]

end Words

/-! ## Which operators have a range -/

/-- A parallelism is accepted exactly within the limits. -/
theorem checkParallelism_eq_ok_iff {n : UInt32} :
    checkParallelism n = .ok () ↔ 1 ≤ n ∧ n ≤ greatestParallelism := by
  constructor
  · intro accepted
    rw [checkParallelism] at accepted
    split at accepted
    · cases accepted
    · next inside =>
        obtain ⟨nonzero, limited⟩ := not_or.1 inside
        refine ⟨?_, UInt32.not_lt.1 limited⟩
        rw [UInt32.le_iff_toNat_le, UInt32.toNat_one]
        exact Nat.pos_of_ne_zero fun zero => nonzero (UInt32.toNat_inj.1 zero)
  · rintro ⟨positive, limited⟩
    exact checkParallelism_eq_ok positive limited

/-- There is a range for exactly the operators of a size that is accepted. -/
theorem ownedRange_eq_ok_iff {m p i : UInt32} :
    (∃ r, ownedRange m p i = .ok r) ↔ Sized m p ∧ i < p := by
  constructor
  · rintro ⟨r, owned⟩
    rw [ownedRange] at owned
    -- each check that fails refuses the operator
    cases validP : checkParallelism p with
    | error e => simp [validP, bind, Except.bind] at owned
    | ok u =>
        cases validM : checkParallelism m with
        | error e => simp [validP, validM, bind, Except.bind] at owned
        | ok v =>
            simp only [validP, validM, bind, Except.bind] at owned
            split at owned
            · cases owned
            · next bounded =>
                split at owned
                · cases owned
                · next inside =>
                    obtain ⟨positive, -⟩ := checkParallelism_eq_ok_iff.1 validP
                    obtain ⟨-, limited⟩ := checkParallelism_eq_ok_iff.1 validM
                    exact ⟨⟨positive, UInt32.not_lt.1 bounded, limited⟩, UInt32.not_le.1 inside⟩
  · rintro ⟨sized, hi⟩
    obtain ⟨r, owned, -⟩ := exists_ownedRange sized hi
    exact ⟨r, owned⟩

/-! ## One range behind the other -/

/-- The ceiling of the share of an operator is where its range starts. -/
def ceil (m p i : Nat) : Nat := (i * m + p - 1) / p

/-- Behind the last number of a range comes the ceiling for the next operator. -/
theorem ceil_succ {m p : Nat} (hm : 0 < m) (hp : 0 < p) (i : Nat) :
    ((i + 1) * m - 1) / p + 1 = ceil m p (i + 1) := by
  have positive : 0 < (i + 1) * m := Nat.mul_pos i.succ_pos hm
  rw [ceil, ← Nat.add_div_right _ hp]
  congr 1
  omega

@[simp] theorem ceil_zero {m p : Nat} (hp : 0 < p) : ceil m p 0 = 0 := by
  rw [ceil, Nat.zero_mul, Nat.zero_add]
  exact Nat.div_eq_of_lt (by omega)

/-- The ceilings end at the number of key groups. -/
theorem ceil_self {m p : Nat} (hp : 0 < p) : ceil m p p = m := by
  rw [ceil, Nat.add_sub_assoc hp, Nat.mul_add_div hp, Nat.div_eq_of_lt (by omega), Nat.add_zero]

/-- Neighbouring ceilings are apart by the floor or by the ceiling of one share. -/
theorem ceil_sub_ceil {m p : Nat} (hp : 0 < p) (i : Nat) :
    ceil m p (i + 1) - ceil m p i = m / p ∨ ceil m p (i + 1) - ceil m p i = ceil m p 1 := by
  have next : ceil m p (i + 1) = ((i * m + p - 1) + m) / p := by
    rw [ceil, Nat.succ_mul]
    congr 1
    omega
  -- the step is the floor, and one more where the remainders carry
  rcases Nat.lt_or_ge ((i * m + p - 1) % p + m % p) p with kept | carried
  · left
    rw [next, Nat.add_div_eq_of_add_mod_lt kept]
    exact Nat.add_sub_cancel_left _ _
  · right
    have rest : (i * m + p - 1) % p < p := Nat.mod_lt _ hp
    have uneven : (p - 1) % p = p - 1 := Nat.mod_eq_of_lt (by omega)
    have carries : p ≤ m % p + (p - 1) % p := by omega
    have share : ceil m p 1 = m / p + 1 := by
      rw [ceil, Nat.one_mul, Nat.add_sub_assoc hp, Nat.add_div_eq_of_le_mod_add_mod carries hp,
        Nat.div_eq_of_lt (by omega : p - 1 < p)]
    rw [next, share, Nat.add_div_eq_of_le_mod_add_mod carried hp, Nat.add_assoc]
    exact Nat.add_sub_cancel_left _ _

/-- Ceilings ascend. -/
theorem ceil_le_ceil (m p : Nat) {i j : Nat} (ordered : i ≤ j) : ceil m p i ≤ ceil m p j := by
  have product := Nat.mul_le_mul_right m ordered
  apply Nat.div_le_div_right
  omega

/-- With no more operators than key groups each of them has one. -/
theorem ceil_lt_ceil {m p : Nat} (hp : 0 < p) (bounded : p ≤ m) (i : Nat) :
    ceil m p i < ceil m p (i + 1) := by
  have share : 0 < m / p := Nat.div_pos bounded hp
  have whole : m / p ≤ ceil m p 1 := by
    apply Nat.div_le_div_right
    omega
  rcases ceil_sub_ceil (m := m) hp i with step | step
  · omega
  · omega

/-! ## The partition -/

section Ranges

variable {m p i : UInt32} {r : KeyGroupRange}

/-- The range of an operator reaches from its ceiling to the one of the next operator. -/
theorem bounds_of_ownedRange (sized : Sized m p) (hi : i < p) (owned : ownedRange m p i = .ok r) :
    r.first.toNat = ceil m.toNat p.toNat i.toNat ∧
      r.last.toNat + 1 = ceil m.toNat p.toNat (i.toNat + 1) := by
  obtain ⟨hp, hpm, hm⟩ := sized.toNat
  obtain ⟨r', owned', first, last⟩ := exists_ownedRange sized hi
  obtain rfl : r' = r := Except.ok.inj (owned'.symm.trans owned)
  refine ⟨first, ?_⟩
  rw [last]
  exact ceil_succ (by omega) hp i.toNat

/-- The range of an operator has as many key groups as there are between its two ceilings. -/
theorem count_of_ownedRange (sized : Sized m p) (hi : i < p) (owned : ownedRange m p i = .ok r) :
    r.isEmpty = false ∧
      r.count.toNat = ceil m.toNat p.toNat (i.toNat + 1) - ceil m.toNat p.toNat i.toNat := by
  obtain ⟨hp, hpm, hm⟩ := sized.toNat
  obtain ⟨first, last⟩ := bounds_of_ownedRange sized hi owned
  have step := ceil_lt_ceil hp hpm i.toNat
  have limit : ceil m.toNat p.toNat (i.toNat + 1) ≤ m.toNat := by
    have below := ceil_le_ceil m.toNat p.toNat (UInt32.lt_iff_toNat_lt.1 hi)
    rwa [ceil_self hp] at below
  have ordered : r.first ≤ r.last := by
    rw [UInt32.le_iff_toNat_le]
    omega
  refine ⟨KeyGroupRange.isEmpty_eq_false_iff.2 ordered, ?_⟩
  rw [KeyGroupRange.toNat_count, KeyGroupRange.size, last, first]
  omega

end Ranges

/-- There are ranges for exactly the operators of the sizes that are accepted. The ranges of such a
size stand one behind the other, from key group 0 to the last one; each has as many key groups as
the floor or the ceiling of a share, and contains exactly those that its operator owns. No result
on the way to a bound or to an owner leaves its word. -/
theorem operators_partition_key_groups (m p : UInt32) :
    (∀ i, (∃ r, ownedRange m p i = .ok r) ↔ 1 ≤ p ∧ p ≤ m ∧ m ≤ 32768 ∧ i < p) ∧
    (1 ≤ p ∧ p ≤ m ∧ m ≤ 32768 →
      (∀ r, ownedRange m p 0 = .ok r → r.first = 0) ∧
      (∀ i r r', ownedRange m p i = .ok r → ownedRange m p (i + 1) = .ok r' →
        r'.first.toNat = r.last.toNat + 1) ∧
      (∀ r, ownedRange m p (p - 1) = .ok r → r.last.toNat + 1 = m.toNat) ∧
      (∀ i r, ownedRange m p i = .ok r →
        r.isEmpty = false ∧
        (r.count.toNat = m.toNat / p.toNat ∨ r.count.toNat = (m.toNat + p.toNat - 1) / p.toNat) ∧
        (∀ g < m, r.contains g = true ↔ owner m p g = i) ∧
        boundsChecked m p i = some (r.first, r.last)) ∧
      ∀ g < m, ownerChecked m p g = some (owner m p g)) := by
  constructor
  · intro i
    rw [ownedRange_eq_ok_iff]
    constructor
    · rintro ⟨sized, hi⟩
      exact ⟨sized.positive, sized.bounded, sized.limited, hi⟩
    · rintro ⟨positive, bounded, limited, hi⟩
      exact ⟨⟨positive, bounded, limited⟩, hi⟩
  · rintro ⟨positive, bounded, limited⟩
    have sized : Sized m p := ⟨positive, bounded, limited⟩
    obtain ⟨hp, hpm, hm⟩ := sized.toNat
    have inside : ∀ {i r}, ownedRange m p i = .ok r → i < p := fun {i r} owned =>
      (ownedRange_eq_ok_iff.1 ⟨r, owned⟩).2
    refine ⟨?_, ?_, ?_, ?_, ?_⟩
    · intro r owned
      obtain ⟨first, -⟩ := bounds_of_ownedRange sized (inside owned) owned
      rw [← UInt32.toNat_inj, first]
      exact ceil_zero hp
    · intro i r r' owned owned'
      obtain ⟨-, last⟩ := bounds_of_ownedRange sized (inside owned) owned
      obtain ⟨first, -⟩ := bounds_of_ownedRange sized (inside owned') owned'
      have small := UInt32.lt_iff_toNat_lt.1 (inside owned)
      have next : (i + 1).toNat = i.toNat + 1 := by
        rw [UInt32.toNat_add, UInt32.toNat_one]
        exact Nat.mod_eq_of_lt (by omega)
      rw [first, last, next]
    · intro r owned
      obtain ⟨-, last⟩ := bounds_of_ownedRange sized (inside owned) owned
      have before : (p - 1).toNat + 1 = p.toNat := by
        rw [UInt32.toNat_sub_of_le _ _ positive, UInt32.toNat_one]
        omega
      rw [last, before, ceil_self hp]
    · intro i r owned
      have hi := inside owned
      obtain ⟨filled, count⟩ := count_of_ownedRange sized hi owned
      refine ⟨filled, ?_, ?_, boundsChecked_eq sized hi owned⟩
      · rw [count]
        have step := ceil_sub_ceil (m := m.toNat) hp i.toNat
        rwa [ceil.eq_1 m.toNat p.toNat 1, Nat.one_mul] at step
      · intro g hg
        rw [contains_ownedRange_iff sized hi owned]
        exact and_iff_right hg
    · intro g hg
      exact ownerChecked_eq sized hg

/-- Ten key groups for four operators: two ranges of three and two of two key groups. -/
theorem operators_partition_key_groups_tenByFour :
    (1 : UInt32) ≤ 4 ∧ (4 : UInt32) ≤ 10 ∧ (10 : UInt32) ≤ 32768 ∧
      ownedRange 10 4 1 = .ok ⟨3, 4⟩ ∧ boundsChecked 10 4 1 = some (3, 4) ∧
      ∀ g < (10 : UInt32), (KeyGroupRange.mk 3 4).contains g = true ↔ owner 10 4 g = 1 := by
  have sizes : (1 : UInt32) ≤ 4 ∧ (4 : UInt32) ≤ 10 ∧ (10 : UInt32) ≤ 32768 := by decide
  have owned : ownedRange 10 4 1 = .ok ⟨3, 4⟩ := by decide
  obtain ⟨-, -, -, each, -⟩ := (operators_partition_key_groups 10 4).2 sizes
  obtain ⟨-, -, contains, checked⟩ := each 1 _ owned
  exact ⟨sizes.1, sizes.2.1, sizes.2.2, owned, checked, contains⟩

end KeyedState.KeyGroup
