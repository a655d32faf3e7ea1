import KeyedState.Numeric.Instances

/-!
# Double-precision numbers

A double-precision number is held by its 64 bits: a sign, an eleven-bit exponent
field and a fraction of 52 bits. A finite number is `significand * 2 ^ exponent`
up to its sign. Arithmetic on magnitudes goes through exact quotients and one
rounding, to the nearest number and to the even one of two that are equally near
(`roundQuotient`).

Main statement: `bits_roundQuotient_le`, a rounded quotient is a finite number or
infinity, never a NaN.
-/

namespace KeyedState

/-- A double-precision number, by its bits. -/
structure Binary64 where
  bits : UInt64
  deriving DecidableEq, Repr, Inhabited

namespace Binary64

/-- The sign bit. -/
def isNegative (x : Binary64) : Bool := 2 ^ 63 ≤ x.bits.toNat

/-- The eleven bits below the sign. -/
def exponentField (x : Binary64) : Nat := x.bits.toNat / 2 ^ 52 % 2 ^ 11

/-- The low 52 bits. -/
def fraction (x : Binary64) : Nat := x.bits.toNat % 2 ^ 52

/-- Infinities and NaNs have an exponent field of ones. -/
def isFinite (x : Binary64) : Bool := x.exponentField < 2047

/-- The integer that the exponent scales; it has 53 bits unless the number is subnormal. -/
def significand (x : Binary64) : Nat :=
  if x.exponentField = 0 then x.fraction else 2 ^ 52 + x.fraction

/-- The power of two that scales the significand. -/
def exponent (x : Binary64) : Int :=
  if x.exponentField = 0 then -1074 else (x.exponentField : Int) - 1075

/-- The number of the other sign. -/
def neg (x : Binary64) : Binary64 := ⟨x.bits ^^^ 0x8000000000000000⟩

/-- The bits of positive infinity, above those of every positive finite number. -/
def infinityBits : Nat := 2047 * 2 ^ 52

/-- The magnitude of a finite number as a quotient of natural numbers. -/
def toQuotient (x : Binary64) : Nat × Nat :=
  (x.significand * 2 ^ x.exponent.toNat, 2 ^ (-x.exponent).toNat)

/-- The quotient `num / (den * 2 ^ e)` rounded down, with its remainder and its divisor. -/
def scaledQuotient (num den : Nat) (e : Int) : Nat × Nat × Nat :=
  let n := num * 2 ^ (-e).toNat
  let d := den * 2 ^ e.toNat
  (n / d, n % d, d)

/-- The integer nearest to `num / (den * 2 ^ e)`, the even one of two. -/
def nearestScaled (num den : Nat) (e : Int) : Nat :=
  let (q, r, d) := scaledQuotient num den e
  if 2 * r > d ∨ (2 * r = d ∧ q % 2 = 1) then q + 1 else q

/-- The exponent at which `num / den` has a significand of 53 bits, or the least exponent. -/
def exponentOfQuotient (num den : Nat) : Int :=
  let guess : Int := (num.log2 : Int) - (den.log2 : Int) - 52
  max (-1074) (if (scaledQuotient num den guess).1 < 2 ^ 52 then guess - 1 else guess)

/-- The number nearest to `num / den`, the even one of two; infinity beyond the largest.
The exponent field and the fraction are adjacent, so a significand that rounds up to 54 bits
carries into the exponent by itself. -/
def roundQuotient (num den : Nat) : Binary64 :=
  if num = 0 then ⟨0⟩
  else
    let e := exponentOfQuotient num den
    ⟨UInt64.ofNat (min infinityBits ((e + 1074).toNat * 2 ^ 52 + nearestScaled num den e))⟩

/-- The number nearest to a natural number. -/
def ofNat (n : Nat) : Binary64 := roundQuotient n 1

/-- The rounded product of two magnitudes. -/
def mulMagnitude (x y : Binary64) : Binary64 :=
  let (a, b) := x.toQuotient
  let (c, d) := y.toQuotient
  roundQuotient (a * c) (b * d)

/-- The rounded quotient of two magnitudes. -/
def divMagnitude (x y : Binary64) : Binary64 :=
  let (a, b) := x.toQuotient
  let (c, d) := y.toQuotient
  roundQuotient (a * d) (b * c)

/-- Rounding gives no sign and nothing beyond infinity. -/
theorem bits_roundQuotient_le (num den : Nat) :
    (roundQuotient num den).bits.toNat ≤ infinityBits := by
  unfold roundQuotient
  split
  · exact Nat.zero_le _
  · have small : infinityBits < 2 ^ 64 := by decide
    have least := Nat.min_le_left infinityBits
      ((exponentOfQuotient num den + 1074).toNat * 2 ^ 52 +
        nearestScaled num den (exponentOfQuotient num den))
    rw [UInt64.toNat_ofNat', Nat.mod_eq_of_lt (Nat.lt_of_le_of_lt least small)]
    exact least

/-- Half, one and a third, and the even neighbour of a tie. -/
example : roundQuotient 1 2 = ⟨0x3FE0000000000000⟩ ∧ ofNat 1 = ⟨0x3FF0000000000000⟩ ∧
    roundQuotient 1 3 = ⟨0x3FD5555555555555⟩ ∧
    ofNat (2 ^ 53 + 1) = ofNat (2 ^ 53) := by decide +kernel

end Binary64

end KeyedState
