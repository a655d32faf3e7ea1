import KeyedState.Numeric.Shortest

/-!
# JSON values

A JSON value as the tree of its text. Numbers keep their digits, because a reader
of integers accepts an integer literal only and a reader of doubles works on the
digits. Strings that are well formed as literals but do not spell Unicode text
(a lone surrogate, bytes that are not UTF-8) are kept as `none`: they may stand
where a value is skipped and nowhere else.

`Number.ofInt` and `Number.ofBinary64?` are the literals that are written.
-/

namespace KeyedState

namespace Json

/-- A number literal: its sign, the digits before and after the point, and its exponent. -/
structure Number where
  negative : Bool
  integer : List Char
  fraction : List Char
  exponent : Option Int
  deriving DecidableEq, Repr

end Json

/-- A JSON value. The members of an object keep their order, and their names may repeat. -/
inductive Json where
  | null
  | bool (b : Bool)
  | number (n : Json.Number)
  | string (s : Option String)
  | array (items : List Json)
  | object (members : List (Option String × Json))
  deriving Repr, Inhabited

namespace Json

/-- A string value. -/
def str (s : String) : Json := .string (some s)

/-- An object with the given members. -/
def obj (members : List (String × Json)) : Json :=
  .object (members.map fun (name, value) => (some name, value))

namespace Number

/-- An integer literal has neither fraction nor exponent. -/
def isInteger (n : Number) : Bool := n.fraction.isEmpty && n.exponent.isNone

/-- The value of a run of decimal digits. -/
def digitsValue (digits : List Char) : Nat :=
  digits.foldl (fun value c => 10 * value + (c.toNat - 48)) 0

/-- The decimal digits of a natural number. -/
def natDigits (n : Nat) : List Char := Nat.toDigits 10 n

/-- The literal of a natural number. -/
def ofNat (n : Nat) : Number := ⟨false, natDigits n, [], none⟩

/-- The literal of an integer. -/
def ofInt (i : Int) : Number := ⟨decide (i < 0), natDigits i.natAbs, [], none⟩

/-- The integer that an integer literal denotes. -/
def toInt? (n : Number) : Option Int :=
  if n.isInteger then
    let magnitude : Int := digitsValue n.integer
    some (if n.negative then -magnitude else magnitude)
  else
    none

/-- The literal `-0` denotes a floating zero, so it is not an integer of at most 64 bits. -/
def isNegativeZero (n : Number) : Bool := n.negative && digitsValue n.integer == 0

/-- The layout of doubles. A decimal whose point falls inside or just after its first sixteen
digits, or at most four zeros before them, is positional, and an integral one ends in `.0`; all
others have one digit before the point and an exponent. -/
def layout (negative : Bool) (d : Decimal) : Number :=
  let digits := natDigits d.digits
  let count : Int := digits.length
  let point := count + d.exponent
  if 0 ≤ d.exponent ∧ point ≤ 16 then
    ⟨negative, digits ++ List.replicate d.exponent.toNat '0', ['0'], none⟩
  else if 0 < point ∧ point ≤ 16 then
    ⟨negative, digits.take point.toNat, digits.drop point.toNat, none⟩
  else if -5 < point ∧ point ≤ 0 then
    ⟨negative, ['0'], List.replicate (-point).toNat '0' ++ digits, none⟩
  else
    ⟨negative, digits.take 1, digits.drop 1, some (point - 1)⟩

/-- The shortest literal of a finite double; there is none for an infinity or a NaN. -/
def ofBinary64? (x : Binary64) : Option Number :=
  if !x.isFinite then none
  else if x.significand = 0 then some ⟨x.isNegative, ['0'], ['0'], none⟩
  else some (layout x.isNegative (Decimal.shortest x))

/-- The text of a literal. An exponent always has a sign. -/
def text (n : Number) : List Char :=
  (if n.negative then ['-'] else []) ++ n.integer ++
    (if n.fraction.isEmpty then [] else '.' :: n.fraction) ++
    (match n.exponent with
      | none => []
      | some e => 'e' :: (if e < 0 then '-' else '+') :: natDigits e.natAbs)

end Number

end Json

end KeyedState
