import KeyedState.Numeric.Instances

/-!
# Byte strings

Keys, namespaces and stored values are byte strings. A word of a fixed width is
written as base-256 digits, low digit first (`littleEndian`) or high digit first
(`bigEndian`).

Main statements: `ofLittleEndian_littleEndian` and `ofBigEndian_bigEndian`, the
digits of a number that fits the width read back as the number, and
`littleEndian_ofLittleEndian`, every byte string is the digits of its number.
-/

namespace KeyedState

/-- A byte string. Its `compare` is the lexicographic order of the bytes. -/
abbrev Bytes := List UInt8

/-- The `width` low digits of `n` in base 256, low digit first. -/
def littleEndian : Nat → Nat → Bytes
  | 0, _ => []
  | width + 1, n => UInt8.ofNat n :: littleEndian width (n / 256)

/-- The number with the given base-256 digits, low digit first. -/
def ofLittleEndian : Bytes → Nat
  | [] => 0
  | b :: rest => b.toNat + 256 * ofLittleEndian rest

/-- The `width` low digits of `n` in base 256, high digit first. -/
def bigEndian (width n : Nat) : Bytes := (littleEndian width n).reverse

/-- The number with the given base-256 digits, high digit first. -/
def ofBigEndian (b : Bytes) : Nat := ofLittleEndian b.reverse

/-- The first `n` bytes and the rest, if there are that many. -/
def splitExactly (n : Nat) (b : Bytes) : Option (Bytes × Bytes) :=
  let taken := b.take n
  if taken.length = n then some (taken, b.drop n) else none

/-- The width is the number of bytes. -/
@[simp] theorem length_littleEndian (width n : Nat) :
    (littleEndian width n).length = width := by
  induction width generalizing n with
  | zero => rfl
  | succ width ih => simp [littleEndian, ih]

/-- The order of the digits does not change their number. -/
@[simp] theorem length_bigEndian (width n : Nat) : (bigEndian width n).length = width := by
  simp [bigEndian]

/-- A number below the power of 256 of the width reads back. -/
theorem ofLittleEndian_littleEndian {width n : Nat} (h : n < 256 ^ width) :
    ofLittleEndian (littleEndian width n) = n := by
  induction width generalizing n with
  | zero => simp_all [littleEndian, ofLittleEndian]
  | succ width ih =>
    have high : n / 256 < 256 ^ width := by
      rw [Nat.div_lt_iff_lt_mul (by decide)]
      simpa [Nat.pow_succ] using h
    have low : (UInt8.ofNat n).toNat = n % 256 := rfl
    rw [littleEndian, ofLittleEndian, ih high, low]
    omega

/-- The same with the high digit first. -/
theorem ofBigEndian_bigEndian {width n : Nat} (h : n < 256 ^ width) :
    ofBigEndian (bigEndian width n) = n := by
  simp [ofBigEndian, bigEndian, ofLittleEndian_littleEndian h]

/-- Bytes are the digits of their number. -/
theorem littleEndian_ofLittleEndian (bytes : Bytes) :
    littleEndian bytes.length (ofLittleEndian bytes) = bytes := by
  induction bytes with
  | nil => rfl
  | cons first rest ih =>
    have small := first.toNat_lt
    have low : UInt8.ofNat (first.toNat + 256 * ofLittleEndian rest) = first := by
      apply UInt8.toNat_inj.1
      simp only [UInt8.toNat_ofNat']
      omega
    have high : (first.toNat + 256 * ofLittleEndian rest) / 256 = ofLittleEndian rest := by
      omega
    rw [List.length_cons, ofLittleEndian, littleEndian, low, high, ih]

/-- Every byte string is below the power of 256 of its length. -/
theorem ofLittleEndian_lt (b : Bytes) : ofLittleEndian b < 256 ^ b.length := by
  induction b with
  | nil => decide
  | cons x rest ih =>
    have := x.toNat_lt
    simp only [ofLittleEndian, List.length_cons, Nat.pow_succ]
    omega

/-- A byte string in front of any other is split off by its length. -/
theorem splitExactly_append (front rest : Bytes) :
    splitExactly front.length (front ++ rest) = some (front, rest) := by
  simp [splitExactly]

/-- What is split off is the given number of bytes, and nothing is lost. -/
theorem splitExactly_eq_some {n : Nat} {b front rest : Bytes}
    (h : splitExactly n b = some (front, rest)) : b = front ++ rest ∧ front.length = n := by
  simp only [splitExactly] at h
  split at h
  · next len =>
    simp only [Option.some.injEq, Prod.mk.injEq] at h
    obtain ⟨rfl, rfl⟩ := h
    exact ⟨(List.take_append_drop n b).symm, len⟩
  · cases h

end KeyedState
