import KeyedState.Backend.Iteration

/-!
# Procedures

A procedure carries out the same actions for every key of an iteration and reports
what each of them gave. It may stop at the first refusal, and may fail for some keys
after its actions. A fault always stops it.
-/

namespace KeyedState

/-- Carries out actions in turn. The first refusal ends them if refusals stop or it is a fault; then
it is the last one listed, and is given again. -/
def Action.inTurn {σ β : Type} (stops : Bool) :
    List (Action σ β) → StateM σ (List (Except StateError β) × Option StateError)
  | [] => return ([], none)
  | action :: rest => do
    match ← action.run with
    | .ok value => do
      let (given, refusal) ← inTurn stops rest
      return (.ok value :: given, refusal)
    | .error e => do
      if stops || e.isFault then return ([.error e], some e)
      let (given, refusal) ← inTurn stops rest
      return (.error e :: given, refusal)

/-- One call of a procedure: the key that it is for, the key that is current in the end, and what
its actions gave. -/
structure Visit (keys : Schema) (β : Type) where
  key : keys.Val
  current : Option keys.Val
  given : List (Except StateError β)

/-- A procedure for the iteration over the keys of a state. `failure` is the reason for which it
fails for a key, if it does. -/
structure Procedure (keys : Schema) (β : Type) where
  actions : StateId → List (Action (Backend keys) β)
  stops : Bool
  failure : keys.Val → Option String

/-- The function that an iteration calls. -/
def Procedure.function {keys : Schema} {β : Type} (p : Procedure keys β) :
    KeyFunction keys (Visit keys β) := fun key id => do
  let (given, refusal) ← Action.inTurn p.stops (p.actions id)
  let b ← get
  let outcome :=
    match refusal, p.failure key with
    | some e, _ => .error (if e.isFault then .abandoned e else .refused e)
    | none, some reason => .error (.failed reason)
    | none, none => .ok ()
  return (⟨key, b.context.key, given⟩, outcome)

end KeyedState
