import KeyedState.Proofs.State.Presence
import KeyedState.Proofs.Storage.Expiry

/-!
# The slot's own value, with and without expiry

A value, a list and an aggregate are stored as the own value of a slot. What the bytes there mean
depends on the setting of the state: with expiry they are a stamp and a payload, without it they are
the payload (`TtlConfig.reading`). What is put in is written in that form (`TtlConfig.written`), and
a read may leave something else than it has found (`TtlConfig.left`).

Calls that look at the own value and answer (`NamedState.perform_read`), that look at it and replace
it (`NamedState.perform_rewrite`) and that only replace it (`NamedState.perform_write`) are answered
from these bytes, whatever they are, and leave what the setting says. `StateSpec.Reads` and
`StateSpec.Rewrites` say which calls of the types are such.
-/

namespace KeyedState

variable {keys : Schema}

/-! ## Stored bytes -/

namespace TtlConfig

variable (c : TtlConfig) (now : UInt64)

/-- What is stored of a payload that is put in. -/
def written (payload : Bytes) : Bytes := if c.isEnabled then Ttl.stamped now payload else payload

/-- What is read of stored bytes behind a stamp. -/
def delivered (bytes : Bytes) : Except StateError (Option Bytes) :=
  match Ttl.unstamp bytes with
  | .error e => .error e
  | .ok (stamp, payload) =>
    .ok (if Ttl.hasExpired c stamp now && !Ttl.returnsExpired c then none else some payload)

/-- What reading bytes behind a stamp leaves stored. -/
def leftBehind (bytes : Bytes) : Option Bytes :=
  match Ttl.unstamp bytes with
  | .error _ => some bytes
  | .ok (stamp, payload) =>
    if Ttl.hasExpired c stamp now then if Ttl.returnsExpired c then some bytes else none
    else some (if Ttl.refreshesOnRead c then Ttl.stamped now payload else bytes)

/-- What is read where the given bytes are stored, if any are. -/
def reading (stored : Option Bytes) : Except StateError (Option Bytes) :=
  if c.isEnabled then stored.elim (.ok none) (c.delivered now) else .ok stored

/-- What reading leaves stored. -/
def left (stored : Option Bytes) : Option Bytes :=
  if c.isEnabled then stored.bind (c.leftBehind now) else stored

/-- Where nothing is stored nothing is left. -/
@[simp] theorem left_none : c.left now none = none := by
  rw [left]
  split <;> rfl

/-- The layer of expiry around a table, if there is one. -/
abbrev layered : Store Table :=
  if c.isEnabled then Ttl.store c now Table.store else Table.store

/-- An entry is read as it shows. -/
theorem delivered_stored (e : Ttl.Entry) : c.delivered now e.stored = .ok (e.visible c now) := by
  rw [delivered, Ttl.Entry.stored, Ttl.unstamp_stamped]
  rfl

/-- Of an entry is left what a read leaves. -/
theorem leftBehind_stored (e : Ttl.Entry) :
    c.leftBehind now e.stored = (e.afterRead c now).map Ttl.Entry.stored := by
  simp only [leftBehind, Ttl.Entry.stored, Ttl.unstamp_stamped, Ttl.Entry.afterRead]
  split
  · split <;> rfl
  · split <;> rfl

/-- Reading what is stored at an address behind a stamp. -/
theorem perform_deliver {t : Table} {a : Address} {bytes : Bytes} (stored : t.get a = some bytes) :
    ∃ t', (Ttl.deliver c now Table.store a bytes).perform t = (c.delivered now bytes, t') ∧
      t'.get a = c.leftBehind now bytes := by
  rw [Ttl.deliver, delivered, leftBehind]
  cases Ttl.unstamp bytes with
  | error e => exact ⟨t, rfl, stored⟩
  | ok x =>
    obtain ⟨stamp, payload⟩ := x
    rw [Action.perform_bind_ok (Action.perform_lift _ _)]
    dsimp only
    cases expired : Ttl.hasExpired c stamp now with
    | true =>
      cases returned : Ttl.returnsExpired c with
      | true => exact ⟨t, rfl, stored⟩
      | false => exact ⟨t.remove a, rfl, by rw [Table.get_remove, if_pos rfl]; rfl⟩
    | false =>
      cases refreshed : Ttl.refreshesOnRead c with
      | true =>
        exact ⟨t.put a (Ttl.stamped now payload), rfl, by rw [Table.get_put, if_pos rfl]; rfl⟩
      | false => exact ⟨t, rfl, stored⟩

/-- A table behind the layer, if there is one, is read at an address. -/
theorem perform_get (t : Table) (a : Address) :
    ∃ t', ((c.layered now).get a).perform t = (c.reading now (t.get a), t') ∧
      t'.get a = c.left now (t.get a) := by
  rw [layered, reading, left]
  split
  · cases stored : t.get a with
    | none => exact ⟨t, Ttl.perform_get_of_none stored now, stored⟩
    | some bytes =>
      rw [Ttl.perform_get_of_some stored]
      exact c.perform_deliver now stored
  · exact ⟨t, rfl, rfl⟩

/-- What is put in is written. -/
theorem perform_put (t : Table) (a : Address) (payload : Bytes) :
    ((c.layered now).put a payload).perform t = (.ok (), t.put a (c.written now payload)) := by
  rw [layered, written]
  split <;> rfl

end TtlConfig

/-! ## Samples -/

/-- The outcome is the expected one. Where `F` holds it may also be the fault of a sample that could
not be recorded. -/
def Meets {α : Type} (outcome expected : Except StateError α) (F : Prop) : Prop :=
  outcome = expected ∨ F ∧ outcome = .error .historyTooLarge

/-- Whether or not samples are accepted, a request is carried out, and the same families are tracked
after it. -/
theorem Tracker.perform_store {σ : Type} (accepts : Sample → Bool) (inner : Store σ) (r : Request)
    (s : σ) (t : Tracker) :
    ∃ outcome t', ((store accepts inner).perform r).perform (s, t) =
        (outcome, ((inner.perform r).perform s).2, t') ∧ t.Alike t' ∧
      Meets outcome ((inner.perform r).perform s).1 (¬ t.Admits accepts) := by
  have alike := alike_observe accepts t r ((inner.perform r).perform s).1
  by_cases admits : t.Admits accepts
  · obtain ⟨t', performed, alike'⟩ := perform_of_admits inner admits r s
    exact ⟨_, t', performed, alike', .inl rfl⟩
  · rw [store, Action.perform_of]
    dsimp only
    refine ⟨_, _, rfl, alike, ?_⟩
    split
    · exact .inl rfl
    · exact .inr ⟨admits, rfl⟩

namespace NamedState

variable {s : NamedState} {conditions : Conditions} {found w w' : Workspace keys}
  {a : SlotAddress} {stored : Option Bytes}

/-! ## Requests of a workspace -/

/-- In the workspace a slot has the given own value; the current key, apart from what is remembered
of it, and the families that are tracked are those that a call has found. -/
structure Owns (found : Workspace keys) (a : SlotAddress) (w : Workspace keys)
    (stored : Option Bytes) : Prop where
  context : w.context.forget = found.context.forget
  coherent : w.context.Coherent
  tracker : found.tracker.Alike w.tracker
  stored : w.table.get a.whole = stored

namespace Owns

theorem start (coherent : found.context.Coherent) (a : SlotAddress) :
    Owns found a found (found.table.get a.whole) :=
  ⟨rfl, coherent, fun _ => rfl, rfl⟩

/-- A request is carried out on the table, through expiry if there is any. -/
theorem perform_request (owns : Owns found a w stored) {s : NamedState} {conditions : Conditions}
    {r : Request}
    {reply : Except StateError r.Reply} {t : Table}
    (inner : ((s.ttl.layered conditions.now).perform r).perform w.table = (reply, t)) :
    ∃ outcome w', ((s.workspaceStore conditions).perform r).perform w = (outcome, w') ∧
      Owns found a w' (t.get a.whole) ∧
      Meets outcome reply (¬ found.tracker.Admits conditions.accepts) := by
  obtain ⟨outcome, tracker, performed, alike, meets⟩ := Tracker.perform_store conditions.accepts
    (s.ttl.layered conditions.now) r w.table w.tracker
  rw [inner] at performed meets
  refine ⟨outcome, { w with table := t, tracker }, ?_,
    ⟨owns.context, owns.coherent, fun family => (alike family).trans (owns.tracker family), rfl⟩,
    meets.imp_right fun fault => ⟨mt (Tracker.Admits.alike · owns.tracker) fault.1, fault.2⟩⟩
  show (((s.store conditions).perform r).within NamedState.stored).perform w = _
  rw [Action.perform_within]
  simp only [NamedState.stored, store, performed]

/-- The own value is read. -/
theorem perform_get (owns : Owns found a w stored) (s : NamedState) (conditions : Conditions) :
    ∃ outcome w', ((s.workspaceStore conditions).get a.whole).perform w = (outcome, w') ∧
      Owns found a w' (s.ttl.left conditions.now stored) ∧
      Meets outcome (s.ttl.reading conditions.now stored)
        (¬ found.tracker.Admits conditions.accepts) := by
  obtain ⟨t, inner, after⟩ := s.ttl.perform_get conditions.now w.table a.whole
  rw [owns.stored] at inner after
  exact after ▸ owns.perform_request inner

/-- The own value is replaced. -/
theorem perform_put (owns : Owns found a w stored) (s : NamedState) (conditions : Conditions)
    (payload : Bytes) :
    ∃ outcome w', ((s.workspaceStore conditions).put a.whole payload).perform w = (outcome, w') ∧
      Owns found a w' (some (s.ttl.written conditions.now payload)) ∧
      Meets outcome (.ok ()) (¬ found.tracker.Admits conditions.accepts) := by
  have after : (w.table.put a.whole (s.ttl.written conditions.now payload)).get a.whole =
      some (s.ttl.written conditions.now payload) := by
    rw [Table.get_put, if_pos rfl]
  exact after ▸ owns.perform_request (s.ttl.perform_put conditions.now w.table a.whole payload)

end Owns

/-! ## Calls -/

/-- Calls on the state go to a slot. -/
structure Addresses (s : NamedState) (c : KeyContext keys) (a : SlotAddress) : Prop where
  group : c.group = some a.group
  key : c.serialize = .ok a.key
  ns : s.ns = some a.ns

/-- A call on a state that is written as specified is carried out as the specification says. -/
theorem callAs_eq {spec : StateSpec Id} (typed : s.spec = spec) (conditions : Conditions)
    (c : spec.type.Call) :
    (s.callAs conditions spec.type c : Action (Workspace keys) (spec.type.Reply c)) =
      spec.call (s.workspaceStore conditions) s.scope c := by
  obtain ⟨name, spec', namespaces, ns, ttl, tracker, place⟩ := s
  cases typed
  exact dif_pos rfl

section Calls

variable (addresses : s.Addresses found.context a) (owns : Owns found a w stored)
include addresses owns

/-- The slot is found. -/
theorem perform_scope_owns :
    ∃ w', s.scope.perform w = (.ok a, w') ∧ Owns found a w' stored := by
  have group := (KeyContext.group_eq_of_forget owns.context).trans addresses.group
  have written := (KeyContext.serialize_eq_of_forget owns.context).trans addresses.key
  exact ⟨_, perform_scope owns.coherent group written addresses.ns, owns.context, .remember written,
    owns.tracker, owns.stored⟩

/-- A call that reads the own value and makes an answer of it. -/
theorem perform_read {α : Type} (f : Option Bytes → Except StateError α) :
    ∃ outcome w', (s.scope >>= fun slot => (s.workspaceStore conditions).get slot.whole >>= fun x =>
        Action.lift (f x)).perform w = (outcome, w') ∧
      Owns found a w' (s.ttl.left conditions.now stored) ∧
      Meets outcome (s.ttl.reading conditions.now stored >>= f)
        (¬ found.tracker.Admits conditions.accepts) := by
  obtain ⟨w₁, located, owns₁⟩ := perform_scope_owns addresses owns
  obtain ⟨answer, w₂, got, owns₂, meets⟩ := owns₁.perform_get s conditions
  rw [Action.perform_bind_ok located]
  cases answer with
  | error e =>
    refine ⟨.error e, w₂, Action.perform_bind_error got _, owns₂, ?_⟩
    rcases meets with same | fault
    · exact .inl (by rw [← same]; rfl)
    · exact .inr ⟨fault.1, by cases fault.2; rfl⟩
  | ok x =>
    refine ⟨f x, w₂, Action.perform_bind_ok got _, owns₂, ?_⟩
    rcases meets with same | fault
    · exact .inl (by rw [← same]; rfl)
    · cases fault.2

/-- A call that makes a new own value of the old one, if it succeeds. -/
theorem perform_rewrite (f : Option Bytes → Except StateError Bytes)
    (done : (s.scope >>= fun slot => (s.workspaceStore conditions).get slot.whole >>= fun x =>
        Action.lift (f x) >>= fun payload =>
          (s.workspaceStore conditions).put slot.whole payload).perform w = (.ok (), w')) :
    ∃ payload, s.ttl.reading conditions.now stored >>= f = .ok payload ∧
      Owns found a w' (some (s.ttl.written conditions.now payload)) := by
  obtain ⟨w₁, located, owns₁⟩ := perform_scope_owns addresses owns
  obtain ⟨answer, w₂, got, owns₂, meets⟩ := owns₁.perform_get s conditions
  rw [Action.perform_bind_ok located] at done
  cases answer with
  | error e =>
    rw [Action.perform_bind_error got] at done
    cases done
  | ok x =>
    obtain same : Except.ok x = s.ttl.reading conditions.now stored :=
      meets.resolve_right fun fault => nomatch fault.2
    rw [Action.perform_bind_ok got] at done
    rw [← same]
    show ∃ payload, f x = .ok payload ∧ _
    cases made : f x with
    | error e =>
      rw [made, Action.perform_bind_error (Action.perform_lift _ _)] at done
      cases done
    | ok payload =>
      obtain ⟨outcome, w₃, put, owns₃, -⟩ := owns₂.perform_put s conditions payload
      rw [made, Action.perform_bind_ok (Action.perform_lift _ _), put] at done
      cases done
      exact ⟨payload, rfl, owns₃⟩

/-- A call that replaces the own value, whatever it is, if it succeeds. -/
theorem perform_write (made : Except StateError Bytes)
    (done : (s.scope >>= fun slot => Action.lift made >>= fun payload =>
        (s.workspaceStore conditions).put slot.whole payload).perform w = (.ok (), w')) :
    ∃ payload, made = .ok payload ∧
      Owns found a w' (some (s.ttl.written conditions.now payload)) := by
  obtain ⟨w₁, located, owns₁⟩ := perform_scope_owns addresses owns
  rw [Action.perform_bind_ok located] at done
  cases made with
  | error e =>
    rw [Action.perform_bind_error (Action.perform_lift _ _)] at done
    cases done
  | ok payload =>
    obtain ⟨outcome, w₂, put, owns₂, -⟩ := owns₁.perform_put s conditions payload
    rw [Action.perform_bind_ok (Action.perform_lift _ _), put] at done
    cases done
    exact ⟨payload, rfl, owns₂⟩

end Calls

end NamedState

/-! ## Calls by what they do -/

theorem Action.lift_bind {σ α β : Type} (outcome : Except StateError α)
    (f : α → Except StateError β) :
    (Action.lift outcome >>= fun x => Action.lift (f x) : Action σ β) =
      Action.lift (outcome >>= f) := by
  cases outcome <;> rfl

/-- A call looks at the own value, and is answered with what the function makes of it. -/
def StateSpec.Reads (spec : StateSpec Id) (c : spec.type.Call)
    (f : Option Bytes → Except StateError (spec.type.Reply c)) : Prop :=
  ∀ {σ : Type} (store : Store σ) (scope : Action σ SlotAddress), spec.call store scope c =
    scope >>= fun slot => store.get slot.whole >>= fun found => Action.lift (f found)

/-- A call looks at the own value and replaces it by what the function makes of it, if it
succeeds. -/
def StateSpec.Rewrites (spec : StateSpec Id) (c : spec.type.Call)
    (f : Option Bytes → Except StateError Bytes) : Prop :=
  ∀ {σ : Type} (store : Store σ) (scope : Action σ SlotAddress) {w w' : σ} {reply},
    (spec.call store scope c).perform w = (.ok reply, w') →
      (scope >>= fun slot => store.get slot.whole >>= fun found => Action.lift (f found) >>=
        fun payload => store.put slot.whole payload).perform w = (.ok (), w')

namespace StateSpec

variable {v : Schema} (serializer : Serializer v.Val)

theorem reads_value : Reads (.value v serializer) .get (decodeFound serializer) := fun _ _ => rfl

theorem reads_list : Reads (.list v serializer) .get fun found =>
    ListCall.loaded found >>= fun elements => elements.mapM serializer.deserialize := by
  intro σ store scope
  show (scope >>= fun slot => ListCall.load store slot >>= fun elements =>
    Action.lift (elements.mapM serializer.deserialize)) = _
  congr 1
  funext slot
  rw [ListCall.load_eq, bind_assoc]
  congr 1
  funext found
  exact Action.lift_bind _ _

theorem reads_reducing (reduce : v.Val → v.Val → v.Val) :
    Reads (.reducing v serializer reduce) .get (decodeFound serializer) := fun _ _ => rfl

end StateSpec

end KeyedState
