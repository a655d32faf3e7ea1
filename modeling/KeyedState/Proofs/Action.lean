import KeyedState.Action

/-!
# Laws of actions

How each construction of an action is performed (`Action.perform_bind`,
`Action.perform_within`), and a logic for invariants: `Action.Keeps I a Q` says that `a` keeps
`I`, whether or not it is refused, and that its value has `Q` if it is not. There is one
rule for each construction; `Keeps.bind` hands what is known of the first value to the
second action.

`Action.Yields I a before x after` is about outcomes: on a state that shows `before`, `a` is not
refused, gives `x`, and leaves a state that shows `after`. What a state shows is up to `I`.

An action that first only looks (`Action.Looks`) and then does what is never refused
(`Action.Succeeds`) is done as a whole or not at all (`Action.AllOrNothing.bind`).
-/

namespace KeyedState.Action

variable {σ τ α β : Type}

/-! ## How actions are performed -/

@[simp] theorem perform_pure (a : α) (s : σ) : (pure a : Action σ α).perform s = (.ok a, s) := rfl

@[simp] theorem perform_of (f : σ → Except StateError α × σ) (s : σ) :
    (Action.of f).perform s = f s := rfl

@[simp] theorem perform_lift (outcome : Except StateError α) (s : σ) :
    (Action.lift outcome).perform s = (outcome, s) := rfl

@[simp] theorem perform_get (s : σ) : (get : Action σ σ).perform s = (.ok s, s) := rfl

@[simp] theorem perform_set (s' s : σ) : (set s' : Action σ PUnit).perform s = (.ok ⟨⟩, s') := rfl

@[simp] theorem perform_modify (f : σ → σ) (s : σ) :
    (modify f : Action σ PUnit).perform s = (.ok ⟨⟩, f s) := rfl

@[simp] theorem perform_throw (e : StateError) (s : σ) :
    (throw e : Action σ α).perform s = (.error e, s) := rfl

/-- The second action is performed where the first one ended, unless that was refused. -/
theorem perform_bind (a : Action σ α) (f : α → Action σ β) (s : σ) :
    (a >>= f).perform s =
      match a.perform s with
      | (.ok x, s) => (f x).perform s
      | (.error e, s) => (.error e, s) := by
  show (ExceptT.bindCont f (a.perform s).1).run (a.perform s).2 = _
  obtain ⟨outcome, s⟩ := a.perform s
  cases outcome <;> rfl

/-- An action behind one that succeeds. -/
theorem perform_bind_ok {a : Action σ α} {s s' : σ} {x : α} (h : a.perform s = (.ok x, s'))
    (f : α → Action σ β) : (a >>= f).perform s = (f x).perform s' := by
  rw [perform_bind, h]

/-- Changes one after the other. -/
theorem perform_forM_modify (f : β → σ → σ) (l : List β) (s : σ) :
    (l.forM fun x => (modify (f x) : Action σ PUnit)).perform s =
      (.ok PUnit.unit, l.foldl (fun s x => f x s) s) := by
  induction l generalizing s with
  | nil => rfl
  | cons x rest ih => exact ih (f x s)

/-- An action behind one that is refused. -/
theorem perform_bind_error {a : Action σ α} {s s' : σ} {e : StateError}
    (h : a.perform s = (.error e, s')) (f : α → Action σ β) :
    (a >>= f).perform s = (.error e, s') := by
  rw [perform_bind, h]

/-- Two actions in turn are refused if the first one is, or else if the second one is. -/
theorem perform_bind_eq_error {a : Action σ α} {f : α → Action σ β} {s s' : σ} {e : StateError} :
    (a >>= f).perform s = (.error e, s') ↔
      a.perform s = (.error e, s') ∨
        ∃ x between, a.perform s = (.ok x, between) ∧ (f x).perform between = (.error e, s') := by
  rw [perform_bind]
  rcases a.perform s with ⟨e' | x, between⟩
  · simp
  · constructor
    · exact fun refused => .inr ⟨x, between, rfl, refused⟩
    · rintro (⟨⟨⟩⟩ | ⟨_, _, ⟨⟩, refused⟩)
      exact refused

/-- An action on a part changes nothing but the part. -/
@[simp] theorem perform_within (p : Part σ τ) (a : Action τ α) (s : σ) :
    (a.within p).perform s = ((a.perform (p.get s)).1, p.set s (a.perform (p.get s)).2) := rfl

/-! ## Invariants of actions -/

/-- The action keeps `I`, whatever its outcome is; its value, if there is one, has `Q`. -/
def Keeps (I : σ → Prop) (a : Action σ α) (Q : α → Prop) : Prop :=
  ∀ s, I s → I (a.perform s).2 ∧ ∀ x, (a.perform s).1 = .ok x → Q x

namespace Keeps

variable {I : σ → Prop} {a : Action σ α} {Q : α → Prop}

theorem weaken (keeps : Keeps I a Q) {Q' : α → Prop} (weaker : ∀ x, Q x → Q' x) : Keeps I a Q' :=
  fun s hs => ⟨(keeps s hs).1, fun x hx => weaker x ((keeps s hs).2 x hx)⟩

theorem pure {x : α} (hx : Q x) : Keeps I (Pure.pure x) Q :=
  fun _ hs => ⟨hs, fun _ same => Except.ok.inj same ▸ hx⟩

theorem lift {outcome : Except StateError α} (h : ∀ x, outcome = .ok x → Q x) :
    Keeps I (Action.lift outcome) Q :=
  fun _ hs => ⟨hs, h⟩

theorem throw (e : StateError) : Keeps I (MonadExcept.throw e : Action σ α) Q :=
  fun _ hs => ⟨hs, fun _ same => by cases same⟩

/-- What is known of the first value is known where the second action starts. -/
theorem bind {f : α → Action σ β} {R : β → Prop} (first : Keeps I a Q)
    (second : ∀ x, Q x → Keeps I (f x) R) : Keeps I (a >>= f) R := by
  intro s hs
  obtain ⟨kept, value⟩ := first s hs
  rw [perform_bind]
  rcases h : a.perform s with ⟨_ | x, s'⟩
  · rw [h] at kept
    exact ⟨kept, fun _ same => by cases same⟩
  · rw [h] at kept value
    exact second x (value x rfl) s' kept

/-- A state that is looked at satisfies the invariant. -/
theorem get : Keeps I (MonadState.get : Action σ σ) I :=
  fun _ hs => ⟨hs, fun _ same => Except.ok.inj same ▸ hs⟩

theorem set {s : σ} (hs : I s) : Keeps I (MonadStateOf.set s : Action σ PUnit) fun _ => True :=
  fun _ _ => ⟨hs, fun _ _ => trivial⟩

theorem modified {f : σ → σ} (hf : ∀ s, I s → I (f s)) :
    Keeps I (modify f : Action σ PUnit) fun _ => True :=
  fun s hs => ⟨hf s hs, fun _ _ => trivial⟩

/-- An action on a part keeps an invariant of the whole, if it keeps one of the part that is the
share of the part in it. -/
theorem within {p : Part σ τ} {a : Action τ α} {J : τ → Prop} (keeps : Keeps J a Q)
    (share : ∀ s, I s → J (p.get s)) (back : ∀ s, I s → ∀ part, J part → I (p.set s part)) :
    Keeps I (a.within p) Q := by
  intro s hs
  obtain ⟨kept, value⟩ := keeps (p.get s) (share s hs)
  exact ⟨back s hs _ kept, value⟩

end Keeps

/-! ## Outcomes of actions -/

/-- On every state that shows `before`, the action gives `x` and leaves a state that shows `after`,
where `I` says what a state shows. -/
def Yields {A : Type} (I : σ → A → Prop) (a : Action σ α) (before : A) (x : α) (after : A) : Prop :=
  ∀ s, I s before → ∃ s', a.perform s = (.ok x, s') ∧ I s' after

namespace Yields

variable {A : Type} {I : σ → A → Prop} {before after : A}

theorem pure (x : α) : Yields I (Pure.pure x) before x before :=
  fun s hs => ⟨s, rfl, hs⟩

theorem lift {outcome : Except StateError α} {x : α} (h : outcome = .ok x) :
    Yields I (Action.lift outcome) before x before :=
  fun s hs => ⟨s, by rw [perform_lift, h], hs⟩

/-- The second action starts with what the first one leaves. -/
theorem bind {a : Action σ α} {f : α → Action σ β} {x : α} {y : β} {between : A}
    (first : Yields I a before x between) (second : Yields I (f x) between y after) :
    Yields I (a >>= f) before y after := by
  intro s hs
  obtain ⟨s', performed, hs'⟩ := first s hs
  rw [perform_bind_ok performed]
  exact second s' hs'

end Yields

/-! ## Actions that are done as a whole or not at all -/

/-- The action changes nothing, whatever its outcome is. -/
def Looks (a : Action σ α) : Prop := ∀ s, (a.perform s).2 = s

/-- The action is never refused. -/
def Succeeds (a : Action σ α) : Prop := ∀ s, ∃ x, (a.perform s).1 = .ok x

/-- If the action is refused, it has changed nothing. -/
def AllOrNothing (a : Action σ α) : Prop :=
  ∀ s e s', a.perform s = (.error e, s') → s' = s

namespace Looks

variable {a : Action σ α}

theorem lift (outcome : Except StateError α) : Looks (Action.lift outcome : Action σ α) :=
  fun _ => rfl

theorem throw (e : StateError) : Looks (MonadExcept.throw e : Action σ α) := fun _ => rfl

theorem pure (x : α) : Looks (Pure.pure x : Action σ α) := fun _ => rfl

theorem get : Looks (MonadState.get : Action σ σ) := fun _ => rfl

theorem bind {f : α → Action σ β} (first : Looks a) (second : ∀ x, Looks (f x)) :
    Looks (a >>= f) := by
  intro s
  have same := first s
  rw [perform_bind]
  rcases h : a.perform s with ⟨_ | x, s'⟩
  · rw [h] at same
    exact same
  · rw [h] at same
    exact (second x s').trans same

/-- Looking at one thing after the other. -/
theorem forM {f : β → Action σ PUnit} (each : ∀ x, Looks (f x)) (l : List β) :
    Looks (l.forM f) := by
  induction l with
  | nil => exact pure PUnit.unit
  | cons x rest ih => exact (each x).bind fun _ => ih

end Looks

namespace Succeeds

variable {a : Action σ α}

theorem pure (x : α) : Succeeds (Pure.pure x : Action σ α) := fun _ => ⟨x, rfl⟩

theorem get : Succeeds (MonadState.get : Action σ σ) := fun s => ⟨s, rfl⟩

theorem modify (f : σ → σ) : Succeeds (modify f : Action σ PUnit) := fun _ => ⟨⟨⟩, rfl⟩

theorem bind {f : α → Action σ β} (first : Succeeds a) (second : ∀ x, Succeeds (f x)) :
    Succeeds (a >>= f) := by
  intro s
  obtain ⟨x, hx⟩ := first s
  have performed : a.perform s = (.ok x, (a.perform s).2) := Prod.ext hx rfl
  rw [perform_bind_ok performed]
  exact second x _

/-- Doing one thing after the other. -/
theorem forM {f : β → Action σ PUnit} (each : ∀ x, Succeeds (f x)) (l : List β) :
    Succeeds (l.forM f) := by
  induction l with
  | nil => exact pure PUnit.unit
  | cons x rest ih => exact (each x).bind fun _ => ih

end Succeeds

namespace AllOrNothing

variable {a : Action σ α}

theorem of_succeeds (h : Succeeds a) : AllOrNothing a := by
  intro s e s' refused
  obtain ⟨x, hx⟩ := h s
  rw [refused] at hx
  cases hx

theorem of_looks (h : Looks a) : AllOrNothing a := by
  intro s e s' refused
  have same := h s
  rw [refused] at same
  exact same

/-- What only looks may come first. -/
theorem bind {f : α → Action σ β} (first : Looks a) (second : ∀ x, AllOrNothing (f x)) :
    AllOrNothing (a >>= f) := by
  intro s e s' refused
  have same := first s
  rw [perform_bind] at refused
  rcases h : a.perform s with ⟨_ | x, between⟩
  · rw [h] at refused same
    cases refused
    exact same
  · rw [h] at refused same
    obtain rfl : between = s := same
    exact second x between e s' refused

/-- What is never refused may come last. -/
theorem bind_succeeds {f : α → Action σ β} (first : AllOrNothing a)
    (second : ∀ x, Succeeds (f x)) : AllOrNothing (a >>= f) := by
  intro s e s' refused
  rw [perform_bind] at refused
  rcases h : a.perform s with ⟨_ | x, between⟩
  · rw [h] at refused
    cases refused
    exact first s e s' h
  · rw [h] at refused
    obtain ⟨y, hy⟩ := second x between
    rw [show (f x).perform between = (.error e, s') from refused] at hy
    cases hy

/-- An action on a part that is put back as it was has changed nothing. -/
theorem within {p : Part σ τ} {a : Action τ α} (h : AllOrNothing a)
    (back : ∀ s, p.set s (p.get s) = s) : AllOrNothing (a.within p) := by
  intro s e s' refused
  rw [perform_within, Prod.mk.injEq] at refused
  obtain ⟨outcome, rfl⟩ := refused
  have same : (a.perform (p.get s)).2 = p.get s := h (p.get s) e _ (Prod.ext outcome rfl)
  rw [same, back]

end AllOrNothing

end KeyedState.Action
