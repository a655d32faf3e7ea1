import KeyedState.Numeric.Binary64

/-!
# The shortest decimal that reads back

Every finite positive number is the nearest one to all reals of an interval: from
halfway to its lower neighbour to halfway to its upper one, ends included when the
significand is even. `shortest` finds the decimal with the fewest digits in that
interval, and of two with as few the one nearer to the number. It tries the grids
`10 ^ k` from coarse to fine and on each the two neighbours of the number.

Main statement: `readsBack_ofGrid`, a decimal that a grid yields lies in the
interval.
-/

namespace KeyedState

/-- The number `digits * 10 ^ exponent`. -/
structure Decimal where
  digits : Nat
  exponent : Int
  deriving DecidableEq, Repr, Inhabited

namespace Decimal

/-- `a * 10 ^ k ≤ b * 2 ^ j`, decided on natural numbers. -/
def leBinary (a : Nat) (k : Int) (b : Nat) (j : Int) : Bool :=
  a * 10 ^ k.toNat * 2 ^ (-j).toNat ≤ b * 2 ^ j.toNat * 10 ^ (-k).toNat

/-- `a * 10 ^ k < b * 2 ^ j`, decided on natural numbers. -/
def ltBinary (a : Nat) (k : Int) (b : Nat) (j : Int) : Bool :=
  a * 10 ^ k.toNat * 2 ^ (-j).toNat < b * 2 ^ j.toNat * 10 ^ (-k).toNat

/-- Below a power of two the next number is half as far away as above it. -/
def narrowBelow (x : Binary64) : Bool := x.fraction == 0 && decide (1 < x.exponentField)

/-- The decimal lies in the interval of the reals to which `x` is nearest. The ends are
counted in quarters of the distance to the upper neighbour. -/
def readsBack (x : Binary64) (d : Decimal) : Bool :=
  let m := 4 * x.significand
  let low := if narrowBelow x then m - 1 else m - 2
  let high := m + 2
  let e := x.exponent - 2
  if x.significand % 2 = 0 then
    !ltBinary d.digits d.exponent low e && leBinary d.digits d.exponent high e
  else
    !leBinary d.digits d.exponent low e && ltBinary d.digits d.exponent high e

/-- The largest multiple of `10 ^ k` that is not above the magnitude of `x`, over `10 ^ k`. -/
def floorOnGrid (x : Binary64) (k : Int) : Nat :=
  x.significand * 2 ^ x.exponent.toNat * 10 ^ (-k).toNat /
    (2 ^ (-x.exponent).toNat * 10 ^ k.toNat)

/-- Of the neighbours `c` and `c + 1` on the grid, whether the upper one is nearer to `x`; at the
same distance the even one is taken. -/
def upperIsNearer (x : Binary64) (c : Nat) (k : Int) : Bool :=
  ltBinary (2 * c + 1) k (2 * x.significand) x.exponent ||
    (leBinary (2 * c + 1) k (2 * x.significand) x.exponent && c % 2 == 1)

/-- The decimal of the grid `10 ^ k` that reads back as `x`, if there is one. -/
def ofGrid (x : Binary64) (k : Int) : Option Decimal :=
  let c := floorOnGrid x k
  let lower : Decimal := ⟨c, k⟩
  let upper : Decimal := ⟨c + 1, k⟩
  match readsBack x lower, readsBack x upper with
  | true, true => some (if upperIsNearer x c k then upper else lower)
  | true, false => some lower
  | false, true => some upper
  | false, false => none

/-- The first of `fuel` grids, from `10 ^ k` to finer ones, that holds a decimal. -/
def search (x : Binary64) : Nat → Int → Decimal
  | 0, k => ⟨floorOnGrid x k, k⟩
  | fuel + 1, k =>
    match ofGrid x k with
    | some d => d
    | none => search x fuel (k - 1)

/-- A power of ten above the magnitude of `x`: a factor of two is 0.30103 of a factor of ten. -/
def gridAbove (x : Binary64) : Int :=
  ((x.significand.log2 : Int) + x.exponent + 1) * 30103 / 100000 + 1

/-- The shortest decimal that reads back as the magnitude of `x`, for `x` finite and not zero;
seventeen digits always do. -/
def shortest (x : Binary64) : Decimal := search x 20 (gridAbove x)

/-- A point that a grid offers reads back. -/
theorem readsBack_ofGrid {x : Binary64} {k : Int} {d : Decimal} (h : ofGrid x k = some d) :
    readsBack x d = true := by
  simp only [ofGrid] at h
  split at h
  · next lower upper =>
    simp only [Option.some.injEq] at h
    subst h
    split
    · exact upper
    · exact lower
  · next lower _ => simp only [Option.some.injEq] at h; subst h; exact lower
  · next _ upper => simp only [Option.some.injEq] at h; subst h; exact upper
  · cases h

/-- One tenth, the smallest and the largest number, and a power of two. -/
example : shortest ⟨0x3FB999999999999A⟩ = ⟨1, -1⟩ ∧ shortest ⟨1⟩ = ⟨5, -324⟩ ∧
    shortest ⟨0x7FEFFFFFFFFFFFFF⟩ = ⟨17976931348623157, 292⟩ ∧
    shortest ⟨0x4330000000000000⟩ = ⟨4503599627370496, 0⟩ := by decide +kernel

end Decimal

end KeyedState
