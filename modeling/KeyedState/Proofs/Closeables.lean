import KeyedState.Closeables
import KeyedState.Proofs.Action
import Mathlib.Data.List.Induction
import Mathlib.Data.List.Nodup

/-!
# Closing resources over whole runs

A registry of resources is called in any order: resources are registered, registrations are
withdrawn, and the registry is closed, more than once or never (`CloseableCall`). Every call is
answered, and closes what it closes, as the history of calls and answers says alone
(`Answer.Due`), for which a registration stands from its number until it is withdrawn or closed
(`History.standing`). Closing goes through the standing registrations one by one and passes over
failures (`CloseableRegistry.perform_close`).

Main statement: `closeables_follow_history`.
-/

namespace KeyedState

/-! ## Closing in turn -/

namespace CloseableRegistry

/-- Closes a resource. It counts as closed if that fails, too. -/
def closeResource (x : Resource) : Action CloseableRegistry Unit :=
  .of fun r => (match x.failure with | none => .ok () | some e => .error e,
    { r with closed := r.closed ++ [x] })

/-- Closes resources one after the other, whether or not some of them fail, and reports the first
failure there was. -/
def closeInTurn : List Resource → Option StateError → Action CloseableRegistry Unit
  | [], none => return ()
  | [], some e => throw e
  | x :: rest, first => .of fun r =>
    match (closeResource x).perform r with
    | (.ok (), r) => (closeInTurn rest first).perform r
    | (.error e, r) => (closeInTurn rest (first.or (some e))).perform r

/-- The first failure is the one of the first resource that has one. -/
theorem firstFailure_eq (order : List Resource) :
    firstFailure order = match order.findSome? Resource.failure with
      | none => .ok ()
      | some e => .error e := by
  induction order with
  | nil => rfl
  | cons x rest ih =>
    rw [firstFailure, List.findSome?_cons]
    cases x.failure with
    | none => exact ih
    | some e => rfl

/-- Closing in turn closes all resources, and reports the first failure, an earlier one if there
was one. -/
theorem perform_closeInTurn (order : List Resource) (first : Option StateError)
    (r : CloseableRegistry) :
    (closeInTurn order first).perform r =
      (match first.or (order.findSome? Resource.failure) with
        | none => .ok ()
        | some e => .error e,
        { r with closed := r.closed ++ order }) := by
  induction order generalizing first r with
  | nil =>
    rw [List.append_nil]
    cases first <;> rfl
  | cons x rest ih =>
    rw [closeInTurn, Action.perform_of, closeResource, Action.perform_of, List.findSome?_cons]
    cases x.failure with
    | none =>
      dsimp only
      rw [ih, List.append_assoc]
      rfl
    | some e =>
      dsimp only
      rw [ih, List.append_assoc]
      cases first <;> rfl

/-- A registry is closed by closing its resources in turn, the latest first. -/
theorem perform_close (r : CloseableRegistry) :
    close.perform r =
      if r.isClosed then (.ok (), r)
      else (closeInTurn (r.resources.map Prod.snd).reverse none).perform
        { r with isClosed := true, resources := [] } := by
  rw [close, Action.perform_of, perform_closeInTurn, Option.none_or, ← firstFailure_eq]

end CloseableRegistry

/-! ## Calls and their history -/

/-- A call on a registry of resources. -/
inductive CloseableCall where
  | register (resource : Resource)
  | unregister (id : Nat)
  | close
  deriving DecidableEq

namespace CloseableCall

/-- What a call gives, if it is not refused. -/
abbrev Reply : CloseableCall → Type
  | register _ => Nat
  | unregister _ => Bool
  | close => Unit

/-- Carries out a call. -/
def perform : (c : CloseableCall) → Action CloseableRegistry c.Reply
  | register resource => CloseableRegistry.register resource
  | unregister id => .of fun r => (.ok (r.unregister id).1, (r.unregister id).2)
  | close => CloseableRegistry.close

/-- The resource that is to be registered. -/
def resource? : CloseableCall → Option Resource
  | register resource => some resource
  | _ => none

/-- A call with its outcome. -/
structure Answer where
  call : CloseableCall
  outcome : Except StateError call.Reply

/-- The registration that was made, with its number. -/
def Answer.registration? : Answer → Option (Nat × Resource)
  | ⟨register resource, .ok id⟩ => some (id, resource)
  | _ => none

/-- The number that was withdrawn. -/
def Answer.withdrawn? : Answer → Option Nat
  | ⟨unregister id, .ok true⟩ => some id
  | _ => none

/-- Calls with their outcomes, the oldest first. -/
abbrev History := List Answer

namespace History

variable (past : History)

/-- The registrations that were made, with their numbers, the oldest first. -/
def registrations : List (Nat × Resource) := past.filterMap Answer.registration?

/-- The registry was closed. -/
def Closed : Prop := ∃ a ∈ past, a.call = close

instance : Decidable past.Closed := inferInstanceAs (Decidable (∃ a ∈ past, a.call = close))

/-- The numbers that were withdrawn. -/
def withdrawn : List Nat := past.filterMap Answer.withdrawn?

/-- The registrations that were made and not withdrawn. -/
def kept : List (Nat × Resource) := past.registrations.filter fun x => x.1 ∉ past.withdrawn

/-- The registrations that stand. -/
def standing : List (Nat × Resource) := if past.Closed then [] else past.kept

end History

/-- A call is due the given outcome after a history, and closes the given resources. -/
def Due (past : History) : (c : CloseableCall) → Except StateError c.Reply → List Resource → Prop
  | register resource, outcome, closed =>
    if past.Closed then outcome = .error .registryClosed ∧ closed = [resource]
    else closed = [] ∧ ∃ id, outcome = .ok id ∧ id ∉ past.registrations.map Prod.fst
  | unregister id, outcome, closed =>
    outcome = .ok (decide (id ∈ past.standing.map Prod.fst)) ∧ closed = []
  | close, outcome, closed =>
    closed = (past.standing.map Prod.snd).reverse ∧
      outcome = match closed.findSome? Resource.failure with
        | none => .ok ()
        | some e => .error e

/-- The registry after a run of calls on one that was just made, and the history of the run. -/
def run (calls : List CloseableCall) : CloseableRegistry × History :=
  calls.foldl
    (fun x c => ((c.perform.perform x.1).2, x.2 ++ [⟨c, (c.perform.perform x.1).1⟩]))
    (.empty, [])

theorem run_append (calls : List CloseableCall) (c : CloseableCall) :
    run (calls ++ [c]) = ((c.perform.perform (run calls).1).2,
      (run calls).2 ++ [⟨c, (c.perform.perform (run calls).1).1⟩]) := by
  rw [run, List.foldl_append]
  rfl

/-! ## One more call -/

namespace History

variable {past : History} {a : Answer}

theorem registrations_append (past : History) (a : Answer) :
    (past ++ [a] : History).registrations = past.registrations ++ a.registration?.toList := by
  rw [registrations, List.filterMap_append]
  cases h : a.registration? <;> simp [h, registrations]

theorem withdrawn_append (past : History) (a : Answer) :
    (past ++ [a] : History).withdrawn = past.withdrawn ++ a.withdrawn?.toList := by
  rw [withdrawn, List.filterMap_append]
  cases h : a.withdrawn? <;> simp [h, withdrawn]

theorem closed_append : (past ++ [a] : History).Closed ↔ past.Closed ∨ a.call = close := by
  simp only [Closed, List.mem_append, List.mem_singleton, or_and_right, exists_or, exists_eq_left]

theorem standing_of_closed (closed : past.Closed) : past.standing = [] := if_pos closed

theorem standing_of_open (still : ¬ past.Closed) : past.standing = past.kept := if_neg still

/-- A call that makes and withdraws no registration keeps them. -/
theorem kept_append (unmade : a.registration? = none) (unwithdrawn : a.withdrawn? = none) :
    (past ++ [a] : History).kept = past.kept := by
  rw [kept, registrations_append, withdrawn_append, unmade, unwithdrawn]
  simp only [Option.toList_none, List.append_nil]
  rfl

/-- A registration that is made is kept, if its number was not withdrawn. -/
theorem kept_append_registration {id : Nat} {resource : Resource} (fresh : id ∉ past.withdrawn) :
    (past ++ [⟨register resource, .ok id⟩] : History).kept = past.kept ++ [(id, resource)] := by
  rw [kept, registrations_append, withdrawn_append]
  simp [Answer.registration?, Answer.withdrawn?, kept, fresh]

/-- A registration that is withdrawn is not kept. -/
theorem kept_append_withdrawal (id : Nat) :
    (past ++ [⟨unregister id, .ok true⟩] : History).kept = past.kept.filter fun x => x.1 ≠ id := by
  rw [kept, registrations_append, withdrawn_append]
  simp only [Answer.registration?, Answer.withdrawn?, Option.toList_none, Option.toList_some,
    List.append_nil, List.mem_append, List.mem_singleton, kept, List.filter_filter]
  refine List.filter_congr fun x _ => ?_
  simp [and_comm]

end History

/-- Of entries with different numbers, erasing the first one of a number leaves all of the other
ones. -/
theorem eraseP_eq_filter {l : List (Nat × Resource)} (nodup : (l.map Prod.fst).Nodup) (id : Nat) :
    l.eraseP (fun x => x.1 == id) = l.filter fun x => x.1 ≠ id := by
  induction l with
  | nil => rfl
  | cons x rest ih =>
    rw [List.map_cons, List.nodup_cons] at nodup
    by_cases same : x.1 = id
    · subst same
      have others : rest.filter (fun y => y.1 ≠ x.1) = rest := by
        refine List.filter_eq_self.2 fun y member => decide_eq_true fun equal => ?_
        exact nodup.1 (equal ▸ List.mem_map_of_mem member)
      simp only [List.eraseP_cons, beq_self_eq_true, cond_true, List.filter_cons, ne_eq,
        not_true_eq_false, decide_false, Bool.false_eq_true, if_false]
      exact others.symm
    · simp only [List.eraseP_cons, beq_eq_false_iff_ne.2 same, cond_false, List.filter_cons, ne_eq,
        same, not_false_eq_true, decide_true, if_true, ih nodup.2]

/-- A registry has what stands after a history, and numbers that were not given yet. -/
structure Tracks (r : CloseableRegistry) (past : History) : Prop where
  isClosed : r.isClosed = true ↔ past.Closed
  resources : r.resources = past.standing
  given : ∀ x ∈ past.registrations, x.1 < r.nextId
  withdrawn : ∀ id ∈ past.withdrawn, id < r.nextId
  nodup : (past.registrations.map Prod.fst).Nodup

namespace Tracks

variable {r : CloseableRegistry} {past : History}

theorem empty : Tracks .empty [] where
  isClosed := by simp [CloseableRegistry.empty, History.Closed]
  resources := rfl
  given := fun _ member => nomatch member
  withdrawn := fun _ member => nomatch member
  nodup := List.nodup_nil

theorem nodup_standing (tracks : Tracks r past) : (past.standing.map Prod.fst).Nodup := by
  rw [History.standing]
  split
  · exact List.nodup_nil
  · exact tracks.nodup.sublist (List.filter_sublist.map _)

end Tracks

/-- A call on a registry is answered and closes what it is due after a history, and the registry it
leaves has what stands after the longer history. -/
def Proceeds (r : CloseableRegistry) (past : History) (c : CloseableCall) : Prop :=
  ∃ closed, (c.perform.perform r).2.closed = r.closed ++ closed ∧
    Due past c (c.perform.perform r).1 closed ∧
    Tracks (c.perform.perform r).2 (past ++ [⟨c, (c.perform.perform r).1⟩])

namespace Tracks

variable {r : CloseableRegistry} {past : History}

/-- After a call that makes no registration the numbers are the ones that were given. -/
theorem unmade (tracks : Tracks r past) {r' : CloseableRegistry} {a : Answer}
    (next : r'.nextId = r.nextId) (unmade : a.registration? = none)
    (withdrawn : ∀ id, a.withdrawn? = some id → id < r.nextId)
    (isClosed : r'.isClosed = true ↔ (past ++ [a] : History).Closed)
    (resources : r'.resources = (past ++ [a] : History).standing) : Tracks r' (past ++ [a]) := by
  have same : (past ++ [a] : History).registrations = past.registrations := by
    rw [History.registrations_append, unmade, Option.toList_none, List.append_nil]
  refine ⟨isClosed, resources, ?_, ?_, ?_⟩
  · rw [same, next]
    exact tracks.given
  · rw [History.withdrawn_append, next]
    intro id member
    rcases List.mem_append.1 member with old | new
    · exact tracks.withdrawn id old
    · exact withdrawn id (Option.mem_toList.1 new)
  · rw [same]
    exact tracks.nodup

/-- A registration gets a number that was not given yet. -/
theorem register_open (tracks : Tracks r past) (still : ¬ past.Closed) (resource : Resource) :
    Proceeds r past (.register resource) := by
  have performed : (CloseableCall.register resource).perform.perform r =
      (.ok r.nextId, { r with
        nextId := r.nextId + 1, resources := r.resources ++ [(r.nextId, resource)] }) := by
    show (CloseableRegistry.register resource).perform r = _
    rw [CloseableRegistry.register, Action.perform_of, if_neg (mt tracks.isClosed.1 still)]
  have fresh : r.nextId ∉ past.registrations.map Prod.fst := by
    intro member
    obtain ⟨x, member, same⟩ := List.mem_map.1 member
    exact absurd (tracks.given x member) (same ▸ Nat.lt_irrefl _)
  have open_after : ¬ History.Closed (past ++ [⟨.register resource, .ok r.nextId⟩]) := by
    rw [History.closed_append]
    exact not_or.2 ⟨still, CloseableCall.noConfusion⟩
  refine ⟨[], ?_, ?_, ?_⟩ <;> rw [performed]
  · rw [List.append_nil]
  · rw [Due, if_neg still]
    exact ⟨rfl, _, rfl, fresh⟩
  · refine ⟨iff_of_false (mt tracks.isClosed.1 still) open_after, ?_, ?_, ?_, ?_⟩
    · rw [tracks.resources, History.standing_of_open still, History.standing_of_open open_after,
        History.kept_append_registration fun member =>
          absurd (tracks.withdrawn _ member) (Nat.lt_irrefl _)]
    · rw [History.registrations_append]
      intro x member
      rcases List.mem_append.1 member with old | new
      · exact Nat.lt_succ_of_lt (tracks.given x old)
      · obtain rfl : x = (r.nextId, resource) := by simpa [Answer.registration?] using new
        exact Nat.lt_succ_self _
    · rw [History.withdrawn_append]
      intro id member
      rcases List.mem_append.1 member with old | new
      · exact Nat.lt_succ_of_lt (tracks.withdrawn id old)
      · simp [Answer.withdrawn?] at new
    · rw [History.registrations_append, List.map_append, List.nodup_append]
      refine ⟨tracks.nodup, by simp [Answer.registration?], ?_⟩
      rintro id member _ new rfl
      obtain rfl : id = r.nextId := by simpa [Answer.registration?] using new
      exact fresh member

/-- A resource that comes after the registry was closed is closed at once and refused. -/
theorem register_late (tracks : Tracks r past) (closed : past.Closed) (resource : Resource) :
    Proceeds r past (.register resource) := by
  have performed : (CloseableCall.register resource).perform.perform r =
      (.error .registryClosed, { r with closed := r.closed ++ [resource] }) := by
    show (CloseableRegistry.register resource).perform r = _
    rw [CloseableRegistry.register, Action.perform_of, if_pos (tracks.isClosed.2 closed)]
  have closed_after : History.Closed (past ++ [⟨.register resource, .error .registryClosed⟩]) :=
    History.closed_append.2 (.inl closed)
  refine ⟨[resource], ?_, ?_, ?_⟩ <;> rw [performed]
  · rw [Due, if_pos closed]
    exact ⟨rfl, rfl⟩
  · refine tracks.unmade rfl rfl nofun (iff_of_true (tracks.isClosed.2 closed) closed_after) ?_
    rw [tracks.resources, History.standing_of_closed closed,
      History.standing_of_closed closed_after]

/-- What stands may be withdrawn, and nothing else. -/
theorem unregister (tracks : Tracks r past) (id : Nat) : Proceeds r past (.unregister id) := by
  have found : (r.resources.any fun x => x.1 == id) =
      decide (id ∈ past.standing.map Prod.fst) := by
    rw [tracks.resources, Bool.eq_iff_iff, List.any_eq_true, decide_eq_true_iff, List.mem_map]
    simp only [beq_iff_eq]
  have performed : (CloseableCall.unregister id).perform.perform r =
      (.ok (decide (id ∈ past.standing.map Prod.fst)),
        { r with resources := past.standing.filter fun x => x.1 ≠ id }) := by
    show (Except.ok (r.unregister id).1, (r.unregister id).2) = _
    rw [CloseableRegistry.unregister, found, tracks.resources,
      eraseP_eq_filter tracks.nodup_standing]
  refine ⟨[], ?_, ?_, ?_⟩ <;> rw [performed]
  · rw [List.append_nil]
  · exact ⟨rfl, rfl⟩
  · have closed : History.Closed
        (past ++ [⟨.unregister id, .ok (decide (id ∈ past.standing.map Prod.fst))⟩]) ↔
          past.Closed := by
      rw [History.closed_append]
      exact or_iff_left CloseableCall.noConfusion
    by_cases stands : id ∈ past.standing.map Prod.fst
    · -- only an open registry has registrations that stand
      have still : ¬ past.Closed := by
        intro closed
        rw [History.standing_of_closed closed] at stands
        cases stands
      obtain ⟨x, member, rfl⟩ := List.mem_map.1 stands
      rw [decide_eq_true stands] at closed ⊢
      refine tracks.unmade rfl rfl (fun id withdrawn => ?_) (tracks.isClosed.trans closed.symm) ?_
      · obtain rfl : x.1 = id := Option.some.inj withdrawn
        rw [History.standing_of_open still] at member
        exact tracks.given x (List.mem_of_mem_filter member)
      · rw [History.standing_of_open still, History.standing_of_open (mt closed.1 still),
          History.kept_append_withdrawal]
    · have untouched : (past.standing.filter fun x => x.1 ≠ id) = past.standing := by
        refine List.filter_eq_self.2 fun x member => decide_eq_true fun same => ?_
        exact stands (same ▸ List.mem_map_of_mem member)
      rw [decide_eq_false stands] at closed ⊢
      refine tracks.unmade rfl rfl nofun (tracks.isClosed.trans closed.symm) ?_
      rw [untouched, History.standing, History.standing, History.kept_append rfl rfl]
      simp only [closed]

/-- What was closed is not closed again. -/
theorem perform_close_again (tracks : Tracks r past) (closed : past.Closed) :
    CloseableRegistry.close.perform r = (.ok (), r) := by
  rw [CloseableRegistry.perform_close, if_pos (tracks.isClosed.2 closed)]

/-- Closing closes what stands, in turn; when it was done before, nothing does. -/
theorem close (tracks : Tracks r past) : Proceeds r past .close := by
  have closed_after : ∀ outcome, History.Closed (past ++ [⟨.close, outcome⟩]) :=
    fun outcome => History.closed_append.2 (.inr rfl)
  by_cases closed : past.Closed
  · have none_stands := History.standing_of_closed closed
    have performed : CloseableCall.close.perform.perform r = (.ok (), r) :=
      tracks.perform_close_again closed
    refine ⟨[], ?_, ?_, ?_⟩ <;> rw [performed]
    · rw [List.append_nil]
    · rw [Due, none_stands]
      exact ⟨rfl, rfl⟩
    · refine tracks.unmade rfl rfl nofun
        (iff_of_true (tracks.isClosed.2 closed) (closed_after _)) ?_
      rw [tracks.resources, none_stands, History.standing_of_closed (closed_after _)]
  · have performed : CloseableCall.close.perform.perform r =
        (match (past.standing.map Prod.snd).reverse.findSome? Resource.failure with
          | none => .ok ()
          | some e => .error e,
          { r with
            isClosed := true
            resources := []
            closed := r.closed ++ (past.standing.map Prod.snd).reverse }) := by
      show CloseableRegistry.close.perform r = _
      rw [CloseableRegistry.perform_close, if_neg (mt tracks.isClosed.1 closed),
        CloseableRegistry.perform_closeInTurn, Option.none_or, tracks.resources]
    refine ⟨_, ?_, ⟨rfl, ?_⟩, ?_⟩ <;> rw [performed]
    exact tracks.unmade rfl rfl nofun (iff_of_true rfl (closed_after _))
      (History.standing_of_closed (closed_after _)).symm

/-- Every call proceeds as the history says. -/
theorem proceeds (tracks : Tracks r past) (c : CloseableCall) : Proceeds r past c := by
  cases c with
  | register resource =>
    by_cases closed : past.Closed
    · exact tracks.register_late closed resource
    · exact tracks.register_open closed resource
  | unregister id => exact tracks.unregister id
  | close => exact tracks.close

end Tracks

/-! ## Runs -/

/-- What stands after any calls is what the registry has. -/
theorem tracks_run (calls : List CloseableCall) : Tracks (run calls).1 (run calls).2 := by
  induction calls using List.reverseRecOn with
  | nil => exact .empty
  | append_singleton calls c ih =>
    rw [run_append]
    obtain ⟨-, -, -, tracks⟩ := ih.proceeds c
    exact tracks

/-- The registry was closed if there was a call to close it. -/
theorem closed_run (calls : List CloseableCall) : (run calls).2.Closed ↔ .close ∈ calls := by
  induction calls using List.reverseRecOn with
  | nil => simp [run, History.Closed]
  | append_singleton calls c ih =>
    rw [run_append, History.closed_append, ih, List.mem_append, List.mem_singleton, eq_comm]

/-- Nothing is closed before the registry is. -/
theorem closed_run_of_open {calls : List CloseableCall} (still : .close ∉ calls) :
    (run calls).1.closed = [] := by
  induction calls using List.reverseRecOn with
  | nil => rfl
  | append_singleton calls c ih =>
    rw [List.mem_append, List.mem_singleton, not_or] at still
    obtain ⟨closed, appended, due, -⟩ := (tracks_run calls).proceeds c
    rw [run_append, appended, ih still.1, List.nil_append]
    cases c with
    | register resource =>
      rw [Due, if_neg (mt (closed_run calls).1 still.1)] at due
      exact due.1
    | unregister id => exact due.2
    | close => exact absurd rfl still.2

/-- The first call that closes the registry closes what was kept until then, and after it only what
comes too late is closed. -/
theorem closed_run_of_close {before : List CloseableCall} (still : .close ∉ before)
    (later : List CloseableCall) :
    (run (before ++ .close :: later)).1.closed =
      ((run before).2.kept.map Prod.snd).reverse ++ later.filterMap resource? := by
  induction later using List.reverseRecOn with
  | nil =>
    obtain ⟨closed, appended, due, -⟩ := (tracks_run before).proceeds .close
    rw [run_append, appended, closed_run_of_open still, List.nil_append, List.filterMap_nil,
      List.append_nil, due.1, History.standing_of_open (mt (closed_run before).1 still)]
  | append_singleton later c ih =>
    have closed : (run (before ++ .close :: later)).2.Closed := (closed_run _).2 (by simp)
    obtain ⟨closed', appended, due, -⟩ := (tracks_run (before ++ .close :: later)).proceeds c
    rw [← List.cons_append, ← List.append_assoc, run_append, appended, ih, List.append_assoc,
      List.filterMap_append]
    congr 2
    cases c with
    | register resource =>
      rw [Due, if_pos closed] at due
      exact due.2
    | unregister id => exact due.2
    | close =>
      rw [Due, History.standing_of_closed closed] at due
      exact due.1

/-- **What a registry does is told by its history alone.** No number is given twice. After any calls
it has the registrations that stand, and one more call is answered and closes what it is due.
Closing it once more does nothing. All that is ever closed is what was kept when the registry was
closed first, each registration once and the latest first, and then what came too late, in turn. -/
theorem closeables_follow_history (calls : List CloseableCall) :
    ((run calls).2.registrations.map Prod.fst).Nodup ∧
      (run calls).1.resources = (run calls).2.standing ∧
      (∀ c : CloseableCall, ∃ closed,
        (c.perform.perform (run calls).1).2.closed = (run calls).1.closed ++ closed ∧
          Due (run calls).2 c (c.perform.perform (run calls).1).1 closed) ∧
      (.close ∈ calls → CloseableRegistry.close.perform (run calls).1 = (.ok (), (run calls).1)) ∧
      (.close ∉ calls → (run calls).1.closed = []) ∧
      ∀ before later, calls = before ++ .close :: later → .close ∉ before →
        (run calls).1.closed =
          ((run before).2.kept.map Prod.snd).reverse ++ later.filterMap resource? := by
  have tracks := tracks_run calls
  refine ⟨tracks.nodup, tracks.resources, fun c => ?_, fun closed => ?_, closed_run_of_open, ?_⟩
  · obtain ⟨closed, appended, due, -⟩ := tracks.proceeds c
    exact ⟨closed, appended, due⟩
  · exact tracks.perform_close_again ((closed_run calls).2 closed)
  · rintro before later rfl still
    exact closed_run_of_close still later

/-- A registration is withdrawn, a failure is passed over, and a resource comes too late. -/
example :
    (run [.register (.of "a" false), .register (.of "b" true), .register (.of "c" false),
      .unregister 0, .register (.of "d" true), .close, .register (.of "e" false)]).1.closed.map
        Resource.id = ["d", "c", "b", "e"] := by
  decide

end CloseableCall

end KeyedState
