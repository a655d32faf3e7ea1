import KeyedState.Bytes

/-!
# Hexadecimal text

Bytes written as two digits of base 16 each, the high one first, in lower case. Upper
case is read too.

Main statement: `ofDigits?_digits`, what was written reads back.
-/

namespace KeyedState.Hex

/-- A digit of base 16, in lower case. -/
def digit (n : Nat) : Char :=
  if n < 10 then Char.ofNat (48 + n) else Char.ofNat (87 + n)

/-- The value of a digit of either case. -/
def value? (c : Char) : Option Nat :=
  if '0' ≤ c ∧ c ≤ '9' then some (c.toNat - 48)
  else if 'A' ≤ c ∧ c ≤ 'F' then some (c.toNat - 55)
  else if 'a' ≤ c ∧ c ≤ 'f' then some (c.toNat - 87)
  else none

/-- The digits of bytes. -/
def digits (b : Bytes) : List Char :=
  b.flatMap fun x => [digit (x.toNat / 16), digit (x.toNat % 16)]

/-- The bytes of pairs of digits. -/
def ofDigits? : List Char → Option Bytes
  | [] => some []
  | [_] => none
  | high :: low :: rest => do
    let x := UInt8.ofNat (16 * (← value? high) + (← value? low))
    return x :: (← ofDigits? rest)

/-- The digits as text. -/
def text (b : Bytes) : String := String.ofList (digits b)

/-- The bytes of a text. -/
def ofText? (s : String) : Option Bytes := ofDigits? s.toList

/-- Each of the sixteen digits reads back as its own value. -/
theorem value?_digit {n : Nat} (h : n < 16) : value? (digit n) = some n := by
  revert n
  decide

/-- What was written reads back. -/
theorem ofDigits?_digits (b : Bytes) : ofDigits? (digits b) = some b := by
  induction b with
  | nil => rfl
  | cons x rest ih =>
    have bound := x.toNat_lt
    have high : value? (digit (x.toNat / 16)) = some (x.toNat / 16) := value?_digit (by omega)
    have low : value? (digit (x.toNat % 16)) = some (x.toNat % 16) := value?_digit (by omega)
    have whole : UInt8.ofNat (16 * (x.toNat / 16) + x.toNat % 16) = x := by
      rw [Nat.div_add_mod, UInt8.ofNat_toNat]
    simp only [digits, List.flatMap_cons, List.cons_append, List.nil_append, ofDigits?, high, low,
      Option.bind_eq_bind, Option.bind_some, whole] at ih ⊢
    rw [ih]
    rfl

end KeyedState.Hex
