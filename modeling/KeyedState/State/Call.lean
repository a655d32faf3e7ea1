import KeyedState.Error
import KeyedState.Schema.Basic

/-!
# Types of named states and calls on them

A named state holds a value, a list, a map or an aggregate. Its type says which, and
of what schemas; the calls that it answers and the replies to them follow from the
type.
-/

namespace KeyedState

/-- What a named state holds: a value, a list of elements, a map, or an aggregate of values. -/
inductive StateType where
  | value (v : Schema)
  | list (v : Schema)
  | map (k v : Schema)
  | reducing (v : Schema)
  deriving DecidableEq, Repr

/-- The kind of a type. -/
def StateType.kind : StateType → StateKind
  | value _ => .value
  | list _ => .list
  | map _ _ => .map
  | reducing _ => .reducing

/-- Calls on a value. -/
inductive ValueCall (V : Type) where
  | get
  | set (value : V)
  | clear

/-- Calls on a list. -/
inductive ListCall (V : Type) where
  | get
  | add (value : V)
  | addAll (values : List V)
  | update (values : List V)
  | clear

/-- Calls on a map. -/
inductive MapCall (K V : Type) where
  | get (key : K)
  | put (key : K) (value : V)
  | remove (key : K)
  | contains (key : K)
  | keys
  | values
  | entries
  | clear
  | isEmpty

/-- Calls on an aggregate. -/
inductive ReducingCall (V : Type) where
  | get
  | add (value : V)
  | clear

/-- The reply to a call on a value. -/
abbrev ValueCall.Reply {V : Type} : ValueCall V → Type
  | get => Option V
  | set _ => Unit
  | clear => Unit

/-- The reply to a call on a list. -/
abbrev ListCall.Reply {V : Type} : ListCall V → Type
  | get => List V
  | add _ => Unit
  | addAll _ => Unit
  | update _ => Unit
  | clear => Unit

/-- The reply to a call on a map. -/
abbrev MapCall.Reply {K V : Type} : MapCall K V → Type
  | get _ => Option V
  | put _ _ => Unit
  | remove _ => Option V
  | contains _ => Bool
  | keys => List K
  | values => List V
  | entries => List (K × V)
  | clear => Unit
  | isEmpty => Bool

/-- The reply to a call on an aggregate. -/
abbrev ReducingCall.Reply {V : Type} : ReducingCall V → Type
  | get => Option V
  | add _ => Unit
  | clear => Unit

namespace StateType

/-- The calls on a state of a type. -/
abbrev Call : StateType → Type
  | value v => ValueCall v.Val
  | list v => ListCall v.Val
  | map k v => MapCall k.Val v.Val
  | reducing v => ReducingCall v.Val

/-- The reply to a call. -/
abbrev Reply : (t : StateType) → t.Call → Type
  | value _, c => c.Reply
  | list _, c => c.Reply
  | map _ _, c => c.Reply
  | reducing _, c => c.Reply

end StateType

end KeyedState
