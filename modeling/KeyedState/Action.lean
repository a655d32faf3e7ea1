import KeyedState.Error

/-!
# Actions

An action works on a state and may be refused with a cause; what it did to the state
before the refusal stays done. `Part` names a part of a larger state, and
`Action.within` runs an action on it.
-/

namespace KeyedState

/-- A computation on a state that may be refused. -/
abbrev Action (σ α : Type) := ExceptT StateError (StateM σ) α

/-- A part of a state and how it is replaced. -/
structure Part (σ τ : Type) where
  get : σ → τ
  set : σ → τ → σ

namespace Action

variable {σ τ α : Type}

/-- The outcome of the action and the state after it. -/
def perform (a : Action σ α) (s : σ) : Except StateError α × σ := a.run.run s

/-- The action with the given outcomes and effects. -/
def of (f : σ → Except StateError α × σ) : Action σ α := ExceptT.mk f

/-- An action without effects. -/
def lift (outcome : Except StateError α) : Action σ α := of fun s => (outcome, s)

/-- The action on a part of a state. -/
def within (p : Part σ τ) (a : Action τ α) : Action σ α :=
  of fun s =>
    let (outcome, part) := a.perform (p.get s)
    (outcome, p.set s part)

end Action

end KeyedState
