import KeyedState.Proofs.Backend.Catalogue

/-!
# Lookups from outside

A lookup finds a state by its query name, and goes to the table with a key and a namespace that are
serialized already. A handle goes there with the current key and its current namespace, and reads
values. For a backend that is the only user of its registry, whatever it does
(`Backend.Serving`), both agree: registered are just the states that were opened since the last time
that the backend was disposed of and can be queried, and a lookup is answered with what the handle
reads when the key, its group and the namespace are the current ones
(`queries_agree_with_handles`).

Lookups and reads are sampled accesses. As a probe does, they end in the fault that
`Backend.Trackable` excludes, instead of an answer, if the history that a sample goes into cannot be
set up.
-/

namespace KeyedState

open Std (ExtTreeMap)

variable {keys : Schema}

/-- An operation goes by the catalogue: names are opened with their descriptors, and what is put in
a state that can be queried is selected. -/
def Step.Fits (c : Catalogue) (b : Backend keys) : Step keys → Prop
  | create d _ => c.Describes b.execution.format d
  | getPartitioned d _ _ => c.Describes b.execution.format d
  | call id type x => ∀ s, b.states[id]? = some s → (c.queryable s.name).isSome = true →
    type.Puts x → type.Within c.used x
  | _ => True

namespace Backend

/-- A backend over tables that goes by the catalogue and is the only user of its query registry, as
it is at some time; its named states are those from a certain number on. A key group is restored
from what one of these backends wrote, in any order of its tables and slots, or is refused. -/
inductive Serving (c : Catalogue) : Nat → Backend keys → Prop where
  | built {b : Backend keys} : b.storage = .heap .empty → b.queries = some (.serving .empty) →
      b.names = .empty → b.states = [] → Serving c 0 b
  | step {since : Nat} {b : Backend keys} {s : Step keys} :
      Serving c since b → s.Fits c b → Serving c since (s.perform.perform b).2
  | queried {since : Nat} {b : Backend keys} (query : String) (slot : SlotAddress) :
      Serving c since b → Serving c since ((lookup query slot).perform b).2
  | restored {since since' : Nat} {b source : Backend keys} {h : HeapStorage} {g : KeyGroup}
      {s : KeyGroupSnapshot} {stream rest : Bytes} (g' : KeyGroup) :
      Serving c since b → Serving c since' source → source.storage = .heap h → h.FitsMemory →
      (h.snapshot g).Reorders s →
      (b.compression.decode stream).bytes = KeyGroupSnapshot.codec.encode s ++ rest →
      Serving c since ((readKeyGroup g' stream).perform b).2
  | unrestored {since : Nat} {b b' : Backend keys} {e : StateError} (g : KeyGroup)
      (stream : Bytes) : Serving c since b →
      (readKeyGroup g stream).perform b = (.error e, b') → Serving c since b'
  | disposed {since : Nat} {b : Backend keys} :
      Serving c since b → Serving c b.states.length b.dispose
  | aside {since : Nat} {b : Backend keys} (listeners : List ListenerId)
      (closeables : CloseableRegistry) (events : List (Event keys)) :
      Serving c since b → Serving c since { b with listeners, closeables, events }

variable {c : Catalogue} {since : Nat} {b : Backend keys}

/-! ## What such backends keep -/

namespace Matches

theorem of_new (storage : b.storage = .heap .empty) (queries : b.queries = some (.serving .empty))
    (names : b.names = .empty) (states : b.states = []) : b.Matches c 0 where
  within := Nat.zero_le _
  storage := ⟨_, storage, HeapStorage.matches_empty c⟩
  states s member := by
    rw [states] at member
    cases member
  named name id := by
    rw [names, states]
    simp [StateNames.empty]
  published := ⟨.empty, queries, fun query registration => by
    rw [names]
    simp [StateNames.empty, QueryRegistry.empty]⟩
  room _ s member := by
    rw [states] at member
    cases member

/-- An operation keeps the catalogue, if it goes by it. -/
theorem step (fits : b.Matches c since) (readsBack : c.ReadsBack) {s : Step keys}
    (proper : s.Fits c b) : (s.perform.perform b).2.Matches c since := by
  cases s with
  | setKey | setKeyAndGroup | setGroup | setClock =>
      exact ⟨fits.within, fits.storage, fits.states, fits.named, fits.published, fits.room⟩
  | create d namespaces =>
      rw [Step.perform, Step.perform_beside]
      exact fits.getOrCreate proper
  | getPartitioned d namespaces ns =>
      rw [Step.perform, Step.perform_beside]
      exact fits.getPartitioned proper ns
  | setNamespace id schema ns => exact fits.setNamespace id schema ns
  | call id type x => exact fits.call readsBack id proper

end Matches

/-- **Backends that go by the catalogue keep it, however they came to be.** -/
theorem Serving.matches (serving : b.Serving c since) (readsBack : c.ReadsBack) :
    b.Matches c since := by
  induction serving with
  | built storage queries names states => exact .of_new storage queries names states
  | step _ proper ih => exact ih.step readsBack proper
  | queried query slot _ ih => exact ih.lookup query slot
  | restored g' _ _ held memory order decoded ih source_ih =>
      obtain ⟨h, held', heap⟩ := source_ih.storage
      cases Storage.heap.inj (held'.symm.trans held)
      exact ih.readKeyGroup heap memory order decoded g'
  | unrestored g stream _ refused ih =>
      exact readKeyGroup_allOrNothing g stream _ _ _ refused ▸ ih
  | disposed _ ih => exact ih.dispose
  | aside _ _ _ _ ih =>
      exact ⟨ih.within, ih.storage, ih.states, ih.named, ih.published, ih.room⟩

/-! ## Lookups and reads -/

/-- A query name is registered. -/
def Registered (b : Backend keys) (query : String) : Prop :=
  ∃ r, b.queries = some (.serving r) ∧ r.isRegistered query = true

/-- Reads all that a handle finds when a key, its group and a namespace are the current ones. -/
def readAt (id : StateId) (type : StateType) (key : keys.Val) (g : KeyGroup) (schema : Schema)
    (ns : schema.Val) : Action (Backend keys) (type.Reply type.read) := do
  modify fun b => b.setKeyAndGroup key g
  setNamespace id schema ns
  call id type type.read

/-- Lookups under a query name agree with a handle. In a key group of another backend they are
refused; in one of its own a key and a namespace that can be written are answered with what the
handle reads there, as it is written. -/
structure Answers (b : Backend keys) (query : String) (id : StateId) (s : NamedState) : Prop where
  foreign : ∀ slot, b.range.contains slot.group = false →
    ∃ e, (lookup query slot).perform b = (.error e, b) ∧ e.category = .invalidArgument
  own : ∀ (key : keys.Val) (g : KeyGroup) (ns : s.namespaces.schema.Val) (k n : Bytes),
    b.range.contains g = true → (b.context.setKeyAndGroup key g).serialize = .ok k →
      s.namespaces.serializer.serialize ns = .ok n →
        ∃ x answer, s.spec.Encodes x answer ∧
          Returns ((lookup query ⟨g, k, n⟩).perform b).1 answer (¬ b.Trackable) ∧
          Returns ((readAt id s.type key g s.namespaces.schema ns).perform b).1 x (¬ b.Trackable)

/-- A lookup under a name that is registered. -/
theorem perform_lookup {r : QueryRegistry StateId} (serving : b.queries = some (.serving r))
    {query : String} {id : StateId} (registered : r.registrations[query]? = some ⟨b.range, id⟩)
    (slot : SlotAddress) :
    (lookup query slot).perform b =
      if b.range.contains slot.group then (Backend.serialized id slot).perform b
      else (.error (.unservedKeyGroup slot.group query b.range), b) := by
  rw [lookup, Action.perform_bind_ok (Action.perform_get b), serving]
  dsimp only
  rw [QueryRegistry.find, registered]
  dsimp only
  split
  · exact Action.perform_bind_ok (Action.perform_lift _ _) _
  · exact Action.perform_bind_error (Action.perform_lift _ _) _

/-- What a handle reads once the key and the namespace are the current ones. -/
theorem perform_readAt {id : StateId} {s : NamedState} (found : b.states[id]? = some s)
    (shared : s.place = .shared) {key : keys.Val} {g : KeyGroup} {ns : s.namespaces.schema.Val}
    {n : Bytes} (written : s.namespaces.serializer.serialize ns = .ok n) :
    ((readAt id s.type key g s.namespaces.schema ns).perform b).1 =
      ((NamedState.callAs { s with ns := some n } (b.conditions s) s.type s.type.read).perform
        ⟨b.context.setKeyAndGroup key g, b.tableOf s, s.tracker⟩).1 := by
  have replaced : (b.states.set id { s with ns := some n })[id]? = some { s with ns := some n } :=
    List.getElem?_set_self (List.getElem?_eq_some_iff.1 found).1
  have named : (Backend.setNamespace id s.namespaces.schema ns).perform (b.setKeyAndGroup key g) =
      (.ok (), { b.setKeyAndGroup key g with
        states := b.states.set id { s with ns := some n } }) := by
    rw [perform_setNamespace (b := b.setKeyAndGroup key g) found,
      NamedState.setNamespace_same written]
    rfl
  rw [readAt, Action.perform_bind_ok (Action.perform_modify _ _), Action.perform_bind_ok named,
    Backend.call, Action.perform_bind_ok (Action.perform_get _),
    perform_onState (b := { b.setKeyAndGroup key g with
      states := b.states.set id { s with ns := some n } }) replaced shared _ rfl]
  rfl

namespace Matches

/-- Registered is what was opened and can be queried. -/
theorem registered_iff (fits : b.Matches c since) (query : String) :
    b.Registered query ↔ ∃ (id : StateId) (s : NamedState),
      since ≤ id ∧ b.states[id]? = some s ∧ c.queryable s.name = some query := by
  obtain ⟨r, serving, published⟩ := fits.published
  constructor
  · rintro ⟨r', serving', known⟩
    cases serving.symm.trans serving'
    rw [QueryRegistry.isRegistered, ExtTreeMap.contains_eq_isSome_getElem?] at known
    obtain ⟨registration, found⟩ := Option.isSome_iff_exists.1 known
    obtain ⟨-, name, numbered, carries⟩ := (published query registration).1 found
    obtain ⟨later, s, held, rfl⟩ := (fits.named name registration.state).1 numbered
    exact ⟨registration.state, s, later, held, carries⟩
  · rintro ⟨id, s, later, found, carries⟩
    have numbered := (fits.named s.name id).2 ⟨later, s, found, rfl⟩
    have known := (published query ⟨b.range, id⟩).2 ⟨rfl, s.name, numbered, carries⟩
    refine ⟨r, serving, ?_⟩
    rw [QueryRegistry.isRegistered, ExtTreeMap.contains_eq_isSome_getElem?, known]
    rfl

/-- Lookups under the query name of a named state agree with its handle. -/
theorem answers (fits : b.Matches c since) (readsBack : c.ReadsBack)
    (memory : b.storage.FitsMemory) {query : String} {id : StateId} {s : NamedState}
    (later : since ≤ id) (found : b.states[id]? = some s)
    (carries : c.queryable s.name = some query) : b.Answers query id s := by
  obtain ⟨r, serving, published⟩ := fits.published
  obtain ⟨h, held, -⟩ := fits.storage
  -- the query name stands for this state
  have numbered := (fits.named s.name id).2 ⟨later, s, found, rfl⟩
  have registered := (published query ⟨b.range, id⟩).2 ⟨rfl, s.name, numbered, carries⟩
  have queryable : (c.queryable s.name).isSome = true := by rw [carries]; rfl
  have matching := fits.states s (List.mem_of_getElem? found)
  have faultless : ¬ s.tracker.Admits (b.conditions s).accepts → ¬ b.Trackable :=
    fun refused trackable =>
      refused (fits.room trackable s (List.mem_of_getElem? found)).conditions
  refine ⟨fun slot foreign => ?_, fun key g ns k n own written_key written_ns => ?_⟩
  · refine ⟨_, (perform_lookup serving registered slot).trans (if_neg ?_), rfl⟩
    rw [foreign]
    exact Bool.false_ne_true
  · have legal : ∀ userKey value, ((b.tableOf s).slot ⟨g, k, n⟩).get userKey = some value →
        s.spec.Retains c.used userKey value := fun userKey value there =>
      matching.spec ▸ (fits.tableOf matching).legal ⟨⟨g, k, n⟩, userKey⟩ value there queryable
    have room : ((b.tableOf s).slot ⟨g, k, n⟩).FitsMemory := by
      rw [held] at memory
      rw [slot_tableOf held matching.shared, held_eq held]
      exact (HeapStorage.FitsMemory.contents memory s.name g).slot k n
    have readsBack' : s.spec.ReadsBack c.used := matching.spec ▸ readsBack s.name queryable
    -- the lookup and the handle go to the same slot of the same table
    obtain ⟨x, read, encodes⟩ := NamedState.exists_read (s := { s with ns := some n })
      ⟨b.context.setKeyAndGroup key g, b.tableOf s, s.tracker⟩ readsBack'
      (matching.plain queryable) (by rintro _ ⟨⟩) rfl written_key rfl legal room (b.conditions s)
    refine ⟨x, _, encodes, ?_, ?_⟩
    · rw [perform_lookup serving registered, if_pos own, Backend.serialized,
        Action.perform_bind_ok (Action.perform_get b), perform_onState found matching.shared _ rfl]
      exact (NamedState.serialized_returns (matching.plain queryable) _ _ _).weaken faultless
    · rw [perform_readAt found matching.shared written_ns]
      exact read.weaken faultless

end Matches

end Backend

/-- **Lookups agree with handles.** Whatever a backend that goes by the catalogue has been used for,
a query name is registered exactly if a state that carries it was opened since the backend was
disposed of, and lookups under the query name of such a state are answered with what its handle
reads. -/
theorem queries_agree_with_handles {c : Catalogue} (readsBack : c.ReadsBack) {since : Nat}
    {b : Backend keys} (serving : b.Serving c since) (memory : b.storage.FitsMemory) :
    (∀ query, b.Registered query ↔ ∃ (id : StateId) (s : NamedState),
      since ≤ id ∧ b.states[id]? = some s ∧ c.queryable s.name = some query) ∧
    ∀ (query : String) (id : StateId) (s : NamedState), since ≤ id → b.states[id]? = some s →
      c.queryable s.name = some query → b.Answers query id s := by
  have fits := serving.matches readsBack
  exact ⟨fits.registered_iff, fun _ _ _ later found carries =>
    fits.answers readsBack memory later found carries⟩

/-- Prices, which can be queried as quotes. -/
def Catalogue.quotes : Catalogue where
  spec _ := .map .string .i64 (.binary .string) (.binary .i64)
  queryable name := if name = "prices" then some "quotes" else none
  used := Schema.Storable

/-- A plain backend with a query registry of its own. -/
def Backend.plainWithQueries (groups : UInt32) (range : KeyGroupRange) : Backend .string :=
  { plain groups range with queries := some (.serving .empty) }

/-- Quotes one price. -/
def Step.quoteOnce : List (Step .string) :=
  [.getPartitioned ⟨"prices", .initial, some "quotes", .map .string .i64 none none⟩
      ⟨.unit, .binary .unit⟩ (),
    .setKey "k", .call 0 (.map .string .i64) (.put "u" (7 : BitVec 64))]

/-- The price is looked up as what the handle reads is written; in a key group that is not served
the lookup is refused. -/
theorem queries_agree_with_handles_quoteOnce :
    let b := Step.run Step.quoteOnce (.plainWithQueries 4 ⟨0, 3⟩)
    let k : Bytes := [1, 0, 0, 0, 0, 0, 0, 0, 107]
    let answer : Bytes := [1, 0, 0, 0, 0, 0, 0, 0] ++
      [9, 0, 0, 0, 0, 0, 0, 0] ++ [1, 0, 0, 0, 0, 0, 0, 0, 117] ++
      [8, 0, 0, 0, 0, 0, 0, 0] ++ [7, 0, 0, 0, 0, 0, 0, 0]
    b.Registered "quotes" ∧ ∃ s ns x, b.states[0]? = some s ∧ s.spec.Encodes x (some answer) ∧
      ((Backend.lookup "quotes" ⟨1, k, []⟩).perform b).1 = .ok (some answer) ∧
      ((Backend.readAt 0 s.type "k" 1 s.namespaces.schema ns).perform b).1 = .ok x ∧
      ∃ e, (Backend.lookup "quotes" ⟨4, k, []⟩).perform b = (.error e, b) ∧
        e.category = .invalidArgument := by
  intro b k answer
  have readsBack : Catalogue.quotes.ReadsBack := fun _ _ =>
    ⟨(Serializer.faithful_binary .string).roundTrips, (Serializer.faithful_binary .i64).roundTrips⟩
  have key : Schema.Storable .string "u" := by
    constructor
    · show _ < _
      decide
    · decide
  have value : Schema.Storable .i64 (7 : BitVec 64) := ⟨trivial, by decide⟩
  have new : (Backend.plainWithQueries 4 ⟨0, 3⟩).Serving .quotes 0 := .built rfl rfl rfl rfl
  have opened := new.step (s := .getPartitioned
    ⟨"prices", .initial, some "quotes", .map .string .i64 none none⟩ ⟨.unit, .binary .unit⟩ ())
    ⟨rfl, rfl⟩
  have selected := opened.step (s := .setKey "k") trivial
  have serving : b.Serving .quotes 0 :=
    selected.step (s := .call 0 (.map .string .i64) (.put "u" (7 : BitVec 64)))
      fun _ _ _ _ => ⟨key, value⟩
  have memory : b.storage.FitsMemory := by decide +kernel
  obtain ⟨registered, answers⟩ := queries_agree_with_handles readsBack serving memory
  -- the state has the name that was opened, and the namespace that is written as nothing
  have standing : (b.states[0]?).map (fun s =>
      (s.name, (s.setNamespace .unit ()).map NamedState.ns)) = some ("prices", .ok (some [])) := by
    decide +kernel
  obtain ⟨s, found, facts⟩ := Option.map_eq_some_iff.1 standing
  obtain ⟨name, current⟩ := Prod.mk.inj facts
  have carries : Catalogue.quotes.queryable s.name = some "quotes" := by rw [name]; rfl
  have answered := answers "quotes" 0 s (Nat.zero_le 0) found carries
  cases named : s.setNamespace .unit () with
  | error e => rw [named] at current; cases current
  | ok s₁ =>
      rw [named] at current
      obtain ⟨same, n, written, rfl⟩ := NamedState.exists_of_setNamespace named
      obtain rfl : n = [] := Option.some.inj (Except.ok.inj current)
      obtain ⟨x, answer', encodes, looked, read⟩ :=
        answered.own "k" 1 (same ▸ ()) k [] (by decide +kernel) (by decide +kernel) written
      have trackable : b.Trackable := by rintro m ⟨⟩
      have looked := looked.resolve_right fun faulted => faulted.1 trackable
      have price : ((Backend.lookup "quotes" ⟨1, k, []⟩).perform b).1 = .ok (some answer) := by
        decide +kernel
      obtain rfl := Except.ok.inj (looked.symm.trans price)
      exact ⟨(registered "quotes").2 ⟨0, s, Nat.zero_le 0, found, carries⟩, s, same ▸ (), x, found,
        encodes, looked, read.resolve_right fun faulted => faulted.1 trackable,
        answered.foreign ⟨4, k, []⟩ (by decide +kernel)⟩

end KeyedState
