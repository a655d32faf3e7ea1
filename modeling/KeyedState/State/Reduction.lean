import KeyedState.Schema.Basic

/-!
# Reductions by name

How an aggregate takes in a new value. Sums and differences of integers wrap; texts
are compared by their characters, which is the order of their bytes.
-/

namespace KeyedState

/-- The reductions that have a name. The difference takes the new value away from the aggregate. -/
inductive Reduction where
  | sum
  | difference
  | largest
  | concatenation
  | first
  | last
  deriving DecidableEq, Repr

/-- The reduction of a name. -/
def Reduction.ofText? : String → Option Reduction
  | "sum" => some sum
  | "sub" => some difference
  | "max" => some largest
  | "concat" => some concatenation
  | "first" => some first
  | "last" => some last
  | _ => none

/-- The function of a reduction on the values of a schema, if there is one. -/
def Reduction.function? : Reduction → (s : Schema) → Option (s.Val → s.Val → s.Val)
  | sum, .signed _ => some fun a b => a + b
  | difference, .signed _ => some fun a b => a - b
  | largest, .signed _ => some fun a b => if a.slt b then b else a
  | largest, .string => some fun a b => if a < b then b else a
  | concatenation, .string => some fun a b => a ++ b
  | first, _ => some fun a _ => a
  | last, _ => some fun _ b => b
  | _, _ => none

end KeyedState
