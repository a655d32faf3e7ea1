import KeyedState.Proofs.Backend.Work
import KeyedState.Proofs.State.Refusals

/-!
# Tables after refused calls

A call on a state over a heap that is refused leaves every table as it was, whatever is stored and
whatever the serializers refuse. There is one exception, and it is exact: a removal from a map that
finds its entry and cannot decode it is refused as well, and the entry is gone
(`refused_calls_change_only_lost_entries`). The other operations that decode or serialize do so
before they change anything.
-/

namespace KeyedState

open Std (ExtTreeMap)

variable {keys : Schema}

/-- Putting a table back that is there already changes nothing. -/
theorem HeapStorage.insert_getElem? {h : HeapStorage} {name : String} {t : Table}
    (found : h.tables[name]? = some t) : h.tables.insert name t = h.tables := by
  ext1 name'
  rw [ExtTreeMap.getElem?_insert]
  split
  · next same =>
      obtain rfl : name = name' := Std.LawfulEqCmp.compare_eq_iff_eq.1 same
      exact found.symm
  · rfl

/-- The entry at an address is lost with a call of some type on a state of the backend. -/
def Backend.Loses (b : Backend keys) (s : NamedState) (type : StateType) (c : type.Call)
    (a : Address) : Prop :=
  s.Loses ⟨b.context, b.tableOf s, s.tracker⟩ type c a

/-- **A call that is refused changes no table, unless it loses an entry**, and then just this entry
is gone. -/
theorem refused_calls_change_only_lost_entries {b b' : Backend keys} {h : HeapStorage}
    (held : b.storage = .heap h) {id : StateId} {s : NamedState}
    (found : b.states[id]? = some s) (shared : s.place = .shared) {table : Table}
    (opened : h.tables[s.name]? = some table) (plain : s.ttl.isEnabled = false)
    {type : StateType} {c : type.Call} {e : StateError}
    (refused : (Backend.call id type c).perform b = (.error e, b'))
    (returned : e.isFault = false) :
    (b'.storage = b.storage ↔ ∀ a, ¬ b.Loses s type c a) ∧
      ∀ a, b.Loses s type c a →
        b'.storage = .heap ⟨h.tables.insert s.name (table.remove a)⟩ := by
  have table_eq : b.tableOf s = table := by
    rw [Backend.tableOf_eq held shared, opened]
    rfl
  rcases worked : (s.callAs (b.conditions s) type c).perform
    ⟨b.context, b.tableOf s, s.tracker⟩ with ⟨outcome, w⟩
  have performed : (Backend.call id type c).perform b = (outcome, b.afterWork id s w) := by
    rw [Backend.call, Action.perform_bind_ok (Action.perform_get b)]
    exact Backend.perform_onState found shared _ worked
  obtain ⟨rfl, rfl⟩ := Prod.mk.inj (performed.symm.trans refused)
  have after : (b.afterWork id s w).storage = .heap ⟨h.tables.insert s.name w.table⟩ := by
    show b.storage.setTable s.name w.table = _
    rw [held]
    rfl
  rw [after]
  rcases NamedState.table_of_refused plain worked returned with ⟨kept, safe⟩ | ⟨a, lost, taken⟩
  · refine ⟨iff_of_true ?_ safe, fun a lost => absurd lost (safe a)⟩
    rw [kept, table_eq, HeapStorage.insert_getElem? opened, held]
  · replace taken : w.table = table.remove a := taken.trans (congrArg (·.remove a) table_eq)
    obtain ⟨there, unique⟩ := lost.isSome_get_unique
    replace there : ((b.tableOf s).get a).isSome = true := there
    refine ⟨iff_of_false (fun same => ?_) fun safe => safe a lost, fun a' lost' => ?_⟩
    · -- the entry was there, and is not any more
      have tables := congrArg HeapStorage.tables (Storage.heap.inj (same.trans held))
      have back : some w.table = some table := by
        rw [← opened, ← tables]
        exact ExtTreeMap.getElem?_insert_self.symm
      rw [table_eq, ← Option.some.inj back, taken, Table.get_remove, if_pos rfl] at there
      cases there
    · rw [taken, unique a' lost']

/-- Puts a price in that its serializer writes and does not read. -/
def Step.priceOnce : List (Step .string) :=
  [.getPartitioned ⟨"prices", .initial, none,
      .map .string .i64 (some (.binary .string)) (some (.selective .i64))⟩
      ⟨.string, .binary .string⟩ "here",
    .setKey "k", .call 0 (.map .string .i64) (.put "u" (66 : BitVec 64))]

/-- The removal of the price is refused, and the price is gone. -/
theorem refused_calls_change_only_lost_entries_priceOnce :
    let b := Step.run Step.priceOnce (.plain 4 ⟨0, 3⟩)
    ∃ s b', b.states[0]? = some s ∧
      (Backend.call 0 (.map .string .i64) (.remove "u")).perform b =
        (.error (.serialization .refusedRead), b') ∧
      (∃ a, b.Loses s (.map .string .i64) (.remove "u") a) ∧
      (b.storage.table? "prices").map Table.size = some 1 ∧
      (b'.storage.table? "prices").map Table.size = some 0 := by
  intro b
  have follows : Backend.Follows False (.plain 4 ⟨0, 3⟩) b :=
    ((Backend.Works.done _).run Step.priceOnce).follows (.of_unnamed rfl)
  have numbered : b.names.states["prices"]? = some 0 := by decide +kernel
  obtain ⟨s, found, named, shared⟩ := follows.named "prices" 0 numbered
  obtain ⟨h, held⟩ := follows.heap.2 ⟨.empty, rfl⟩
  have plain : (b.states[0]?).map (fun s => s.ttl.isEnabled) = some false := by decide +kernel
  rw [found] at plain
  have stored : (b.storage.table? "prices").map Table.size = some 1 := by decide +kernel
  obtain ⟨table, opened, -⟩ := Option.map_eq_some_iff.1 stored
  rw [held] at opened
  have answer : ((Backend.call 0 (.map .string .i64) (.remove "u")).perform b).1 =
      .error (.serialization .refusedRead) := by
    decide +kernel
  rcases refused : (Backend.call 0 (.map .string .i64) (.remove "u")).perform b with ⟨outcome, b'⟩
  rw [refused] at answer
  obtain rfl : outcome = .error (.serialization .refusedRead) := answer
  have emptied : (((Backend.call 0 (.map .string .i64) (.remove "u")).perform b).2.storage.table?
      "prices").map Table.size = some 0 := by
    decide +kernel
  rw [refused] at emptied
  obtain ⟨kept_iff, -⟩ := refused_calls_change_only_lost_entries held found (shared ⟨.empty, rfl⟩)
    (named ▸ opened) (Option.some.inj plain) refused rfl
  refine ⟨s, b', found, rfl, ?_, stored, emptied⟩
  by_contra safe
  push Not at safe
  rw [kept_iff.2 safe, stored] at emptied
  cases emptied

end KeyedState
