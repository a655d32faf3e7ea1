import KeyedState.Json.Basic

/-!
# Reading doubles

The double that a number literal denotes. The digits are taken into a 64-bit word
as long as they fit; further digits before the point only raise the exponent, and
further ones after it are dropped. The word is then rounded to a double and
multiplied or divided by a power of ten, with one rounding each. The result can be
a neighbour of the nearest double, which is the rule of this format.
-/

namespace KeyedState.Json.Number

/-- The digits taken into a 64-bit word, and how many were left out. -/
def takeWhole : Nat → List Char → Nat × Nat
  | word, [] => (word, 0)
  | word, c :: rest =>
    let next := 10 * word + (c.toNat - 48)
    if next < 2 ^ 64 then takeWhole next rest else (word, rest.length + 1)

/-- The digits after the point taken into the word, and how many those are. -/
def takeFraction : Nat → List Char → Nat × Nat
  | word, [] => (word, 0)
  | word, c :: rest =>
    let next := 10 * word + (c.toNat - 48)
    if next < 2 ^ 64 then
      let (word, count) := takeFraction next rest
      (word, count + 1)
    else (word, 0)

/-- The double nearest to a power of ten that is in range. -/
def powerOfTen (k : Nat) : Binary64 := Binary64.ofNat (10 ^ k)

/-- `x * 10 ^ e`, rounded at each step; there is none beyond the largest double. -/
def scale (x : Binary64) (e : Int) : Option Binary64 :=
  if 0 ≤ e then
    if x.significand = 0 then some x
    else if 308 < e then none
    else
      let y := Binary64.mulMagnitude x (powerOfTen e.toNat)
      if y.isFinite then some y else none
  else if -308 ≤ e then some (Binary64.divMagnitude x (powerOfTen (-e).toNat))
  else if x.significand = 0 then some x
  else scale (Binary64.divMagnitude x (powerOfTen 308)) (e + 308)
termination_by (-e).toNat
decreasing_by omega

/-- The double that a literal denotes. -/
def toBinary64? (n : Number) : Option Binary64 :=
  let (word, dropped) := takeWhole 0 n.integer
  let (word, taken) := takeFraction word n.fraction
  let e := (dropped : Int) - (taken : Int) + n.exponent.getD 0
  (scale (Binary64.ofNat word) e).map fun x => if n.negative then x.neg else x

end KeyedState.Json.Number
