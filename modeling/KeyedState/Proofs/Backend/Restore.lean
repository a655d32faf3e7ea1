import KeyedState.Backend.Lifecycle
import KeyedState.Proofs.Action
import KeyedState.Proofs.Backend.Runs
import KeyedState.Proofs.Storage.Contents

/-!
# Restoring a key group as a whole or not at all

A key group is restored from a reader that may fail (`Reader`), on the tables themselves
and one table after the other (`HeapStorage.readInPlace`). What was done to the tables
before a refusal would stay done. But everything that may be refused comes first: the
stream is decoded, the key group is compared, and the kinds of all tables are checked
before the first table is touched. So a refused restore changes nothing
(`HeapStorage.readInPlace_allOrNothing`), and the steps on the tables amount to what a
restore does as a whole (`HeapStorage.perform_readInPlace`).

Main statement: `refused_restore_changes_nothing`.
-/

namespace KeyedState

open Std (ExtTreeMap)

/-! ## Readers -/

/-- What a reader gives when it is asked for bytes. -/
inductive Delivery where
  /-- Some bytes; none at the end. -/
  | bytes (b : Bytes)
  /-- Nothing this time; the reader is asked again. -/
  | interrupted
  | fault

/-- What a reader gives, one time after the other. Then it is at its end. -/
abbrev Reader := List Delivery

namespace Reader

/-- The bytes that come before the first fault and the first end. -/
def delivered : Reader → Bytes
  | [] => []
  | .fault :: _ => []
  | .interrupted :: rest => delivered rest
  | .bytes b :: rest => if b = [] then [] else b ++ delivered rest

end Reader

/-! ## Restoring on the tables themselves -/

namespace HeapStorage

/-- A table of a stream is accepted if there is none of its name with another kind. -/
def checkKind (t : TableSnapshot) : Action HeapStorage PUnit := do
  let h ← get
  match h.tables[t.name]? with
  | none => pure ()
  | some table =>
    if table.kind = t.kind then pure () else throw (.restoredAs t.name table.kind t.kind)

/-- Empties a key group of the table of one name. -/
def clearTable (g : KeyGroup) (name : String) : Action HeapStorage PUnit :=
  modify fun h => ⟨h.tables.modify name fun table => table.clearGroup g⟩

/-- Restores a key group in steps: the checks, then each table is emptied, then each table of the
snapshot is restored. -/
def restoreInPlace (s : KeyGroupSnapshot) : Action HeapStorage PUnit := do
  s.tables.forM checkKind
  (← get).tables.keys.forM (clearTable s.group)
  s.tables.forM fun t => modify fun h => h.restoreTable s.group t

/-- Reads a key group from the front of a stream into the tables; the rest of the stream is
left. -/
def readInPlace (g : KeyGroup) (stream : Bytes) : Action HeapStorage Bytes := do
  let (snapshot, rest) ←
    Action.lift (Serializer.orMalformed (KeyGroupSnapshot.codec.decode stream))
  if snapshot.group = g then
    restoreInPlace snapshot
    return rest
  else
    throw (.serialization (.wrongKeyGroup snapshot.group g))

/-- A check changes nothing. -/
theorem looks_checkKind (t : TableSnapshot) : Action.Looks (checkKind t) := by
  apply Action.Looks.get.bind
  intro h
  cases h.tables[t.name]? with
  | none => exact .pure PUnit.unit
  | some table =>
    by_cases same : table.kind = t.kind
    · simpa only [if_pos same] using Action.Looks.pure PUnit.unit
    · simpa only [if_neg same] using Action.Looks.throw _

/-- **A refused restore has changed nothing.** The checks of all tables come before the first
change of a table, and no change is refused. -/
theorem restoreInPlace_allOrNothing (s : KeyGroupSnapshot) :
    Action.AllOrNothing (restoreInPlace s) := by
  apply Action.AllOrNothing.bind (.forM looks_checkKind s.tables)
  intro _
  -- from here on nothing is refused
  apply Action.AllOrNothing.of_succeeds
  apply Action.Succeeds.get.bind
  intro h
  apply (Action.Succeeds.forM (fun name => .modify _) h.tables.keys).bind
  intro _
  exact .forM (fun t => .modify _) s.tables

/-- The stream is decoded and its key group is compared before anything is restored. -/
theorem readInPlace_allOrNothing (g : KeyGroup) (stream : Bytes) :
    Action.AllOrNothing (readInPlace g stream) := by
  apply Action.AllOrNothing.bind (.lift _)
  rintro ⟨s, rest⟩
  by_cases same : s.group = g
  · simp only [if_pos same]
    exact (restoreInPlace_allOrNothing s).bind_succeeds fun _ => .pure rest
  · simp only [if_neg same]
    exact .of_looks (.throw _)

/-! ### The steps amount to the whole -/

/-- The checks, one table after the other. -/
theorem perform_checkKinds (h : HeapStorage) (tables : List TableSnapshot) :
    (tables.forM checkKind).perform h = (h.checkKinds tables, h) := by
  induction tables with
  | nil => rfl
  | cons t rest ih =>
    show (checkKind t >>= fun _ => rest.forM checkKind).perform h = _
    rw [HeapStorage.checkKinds]
    cases found : h.tables[t.name]? with
    | none =>
      have accepted : (checkKind t).perform h = (.ok PUnit.unit, h) := by
        rw [checkKind, Action.perform_bind_ok (Action.perform_get h)]
        simp only [found, Action.perform_pure]
      rw [Action.perform_bind_ok accepted, ih]
    | some table =>
      by_cases same : table.kind = t.kind
      · have accepted : (checkKind t).perform h = (.ok PUnit.unit, h) := by
          rw [checkKind, Action.perform_bind_ok (Action.perform_get h)]
          simp only [found, if_pos same, Action.perform_pure]
        rw [Action.perform_bind_ok accepted, ih]
        simp only [if_pos same]
      · have refused : (checkKind t).perform h =
            (.error (.restoredAs t.name table.kind t.kind), h) := by
          rw [checkKind, Action.perform_bind_ok (Action.perform_get h)]
          simp only [found, if_neg same, Action.perform_throw]
        rw [Action.perform_bind_error refused]
        simp only [if_neg same]

/-- The tables after some of them were emptied in turn. -/
theorem getElem?_foldl_clear (g : KeyGroup) (names : List String) (h : HeapStorage)
    (name : String) :
    (names.foldl (fun (h : HeapStorage) name =>
        (⟨h.tables.modify name fun table => table.clearGroup g⟩ : HeapStorage)) h).tables[name]? =
      if name ∈ names then h.tables[name]?.map (·.clearGroup g) else h.tables[name]? := by
  induction names generalizing h with
  | nil => simp
  | cons first rest ih =>
    rw [List.foldl_cons, ih, ExtTreeMap.getElem?_modify]
    -- emptying a table twice is emptying it once
    have twice : ∀ t : Table, (t.clearGroup g).clearGroup g = t.clearGroup g := by
      intro t
      rw [Table.clearGroup, Table.clearGroup]
      congr 1
      apply ExtTreeMap.ext_getElem?
      intro g'
      simp only [ExtTreeMap.getElem?_erase]
      split <;> rfl
    by_cases same : first = name
    · subst same
      cases h.tables[first]? <;> simp [twice]
    · simp [same, Ne.symm same]

/-- Emptying all tables in turn empties the key group everywhere. -/
theorem foldl_clear_eq (h : HeapStorage) (g : KeyGroup) :
    h.tables.keys.foldl (fun (h : HeapStorage) name =>
        (⟨h.tables.modify name fun table => table.clearGroup g⟩ : HeapStorage)) h =
      h.clearGroup g := by
  have same := getElem?_foldl_clear g h.tables.keys h
  generalize h.tables.keys.foldl _ h = after at same
  obtain ⟨tables⟩ := after
  rw [clearGroup]
  congr 1
  apply ExtTreeMap.ext_getElem?
  intro name
  rw [same name, ExtTreeMap.getElem?_map]
  by_cases there : name ∈ h.tables.keys
  · rw [if_pos there]
  · rw [if_neg there]
    rw [ExtTreeMap.mem_keys] at there
    simp [ExtTreeMap.getElem?_eq_none there]

/-- **The steps amount to the restore as a whole.** -/
theorem perform_restoreInPlace (h : HeapStorage) (s : KeyGroupSnapshot) :
    (restoreInPlace s).perform h =
      match h.checkKinds s.tables with
      | .ok _ => (.ok PUnit.unit, h.restore s)
      | .error e => (.error e, h) := by
  have checks := perform_checkKinds h s.tables
  cases kinds : h.checkKinds s.tables with
  | error e =>
    rw [kinds] at checks
    exact Action.perform_bind_error checks _
  | ok u =>
    rw [kinds] at checks
    have emptied : (h.tables.keys.forM (clearTable s.group)).perform h =
        (.ok PUnit.unit, h.clearGroup s.group) := by
      rw [← foldl_clear_eq]
      exact Action.perform_forM_modify _ h.tables.keys h
    rw [restoreInPlace, Action.perform_bind_ok checks,
      Action.perform_bind_ok (Action.perform_get h), Action.perform_bind_ok emptied]
    exact Action.perform_forM_modify _ s.tables _

/-- A storage reads a stream that can be decoded. -/
theorem read_decoded (h : HeapStorage) (g : KeyGroup) {stream rest : Bytes} {s : KeyGroupSnapshot}
    (decoded : KeyGroupSnapshot.codec.decode stream = some (s, rest)) :
    h.read g stream =
      if s.group = g then (h.checkKinds s.tables).map fun _ => (h.restore s, rest)
      else .error (.serialization (.wrongKeyGroup s.group g)) := by
  rw [HeapStorage.read, decoded]
  by_cases same : s.group = g
  · rw [if_pos same]
    cases kinds : h.checkKinds s.tables <;>
      simp [Serializer.orMalformed, same, kinds, bind, Except.bind, Except.map, pure, Except.pure]
  · rw [if_neg same]
    simp [Serializer.orMalformed, same, bind, Except.bind, throw, throwThe, MonadExceptOf.throw]

/-- Reading into the tables in steps is reading a storage as a whole. -/
theorem perform_readInPlace (h : HeapStorage) (g : KeyGroup) (stream : Bytes) :
    (readInPlace g stream).perform h =
      match h.read g stream with
      | .ok (after, rest) => (.ok rest, after)
      | .error e => (.error e, h) := by
  cases decoded : KeyGroupSnapshot.codec.decode stream with
  | none =>
    simp only [readInPlace, HeapStorage.read, decoded, Serializer.orMalformed]
    rfl
  | some found =>
    obtain ⟨s, rest⟩ := found
    have unpacked : (Action.lift (Serializer.orMalformed (KeyGroupSnapshot.codec.decode stream)) :
        Action HeapStorage _).perform h = (.ok (s, rest), h) := by
      rw [decoded]
      rfl
    rw [readInPlace, Action.perform_bind_ok unpacked, read_decoded h g decoded]
    by_cases same : s.group = g
    · have restored := perform_restoreInPlace h s
      simp only [if_pos same]
      cases kinds : h.checkKinds s.tables with
      | error e =>
        rw [kinds] at restored
        rw [Action.perform_bind_error restored]
        rfl
      | ok u =>
        rw [kinds] at restored
        rw [Action.perform_bind_ok restored]
        rfl
    · simp only [if_neg same]
      rfl

end HeapStorage

/-! ## Backends that restore from a reader -/

namespace Storage

/-- Reads a key group into the tables of a storage. -/
def readInPlace (g : KeyGroup) (stream : Bytes) : Action Storage Bytes :=
  .of fun
    | heap h =>
      let (outcome, h) := (HeapStorage.readInPlace g stream).perform h
      (outcome, heap h)
    | s@(scripted _) => (.error (.cannotReadKeyGroup s.text g), s)

theorem perform_readInPlace (storage : Storage) (g : KeyGroup) (stream : Bytes) :
    (readInPlace g stream).perform storage = (read g stream).perform storage := by
  cases storage with
  | scripted s => rfl
  | heap h =>
    rw [readInPlace, read, Action.perform_of, Action.perform_of]
    simp only [HeapStorage.perform_readInPlace]
    cases h.read g stream <;> rfl

theorem readInPlace_allOrNothing (g : KeyGroup) (stream : Bytes) :
    Action.AllOrNothing (readInPlace g stream) := by
  intro storage e after refused
  cases storage with
  | scripted s =>
    cases refused
    rfl
  | heap h =>
    rw [readInPlace, Action.perform_of, Prod.mk.injEq] at refused
    obtain ⟨outcome, rfl⟩ := refused
    congr 1
    exact HeapStorage.readInPlace_allOrNothing g stream h e _ (Prod.ext outcome rfl)

end Storage

namespace Backend

variable {keys : Schema}

/-- Restores a key group from a reader, on the tables themselves. -/
def readKeyGroupFrom (g : KeyGroup) (source : Reader) : Action (Backend keys) Bytes := do
  let b ← get
  Action.lift (b.checkGroup g)
  (Storage.readInPlace g (b.compression.decode source.delivered).bytes).within storagePart

/-- A backend restores from a reader what it restores from the bytes that are delivered. -/
theorem perform_readKeyGroupFrom (b : Backend keys) (g : KeyGroup) (source : Reader) :
    (readKeyGroupFrom g source).perform b = (readKeyGroup g source.delivered).perform b := by
  rw [readKeyGroupFrom, readKeyGroup, Action.perform_bind_ok (Action.perform_get b),
    Action.perform_bind_ok (Action.perform_get b), Action.perform_bind, Action.perform_bind]
  cases b.checkGroup g with
  | error e => rfl
  | ok u =>
    simp only [Action.perform_lift, Action.perform_within, Storage.perform_readInPlace]

theorem readKeyGroup_allOrNothing (g : KeyGroup) (stream : Bytes) :
    Action.AllOrNothing (readKeyGroup g stream : Action (Backend keys) Bytes) := by
  apply Action.AllOrNothing.bind .get
  intro b
  apply Action.AllOrNothing.bind (.lift _)
  intro _
  refine Action.AllOrNothing.within ?_ fun _ => rfl
  intro storage e after refused
  rw [← Storage.perform_readInPlace] at refused
  exact Storage.readInPlace_allOrNothing g _ storage e after refused

theorem readKeyGroupFrom_allOrNothing (g : KeyGroup) (source : Reader) :
    Action.AllOrNothing (readKeyGroupFrom g source : Action (Backend keys) Bytes) := by
  intro b e after refused
  rw [perform_readKeyGroupFrom] at refused
  exact readKeyGroup_allOrNothing g _ b e after refused

/-- A backend over tables refuses what its tables refuse. -/
theorem perform_readKeyGroup_error {b : Backend keys} {h : HeapStorage} {g : KeyGroup}
    (held : b.storage = .heap h) (own : b.range.contains g = true) {stream : Bytes}
    {e : StateError} (read : h.read g (b.compression.decode stream).bytes = .error e) :
    ((readKeyGroup g stream).perform b).1 = .error e := by
  have checked : (Action.lift (b.checkGroup g)).perform b = (.ok (), b) := by
    rw [Action.perform_lift, checkGroup, if_pos own]
  rw [readKeyGroup, Action.perform_bind_ok (Action.perform_get b), Action.perform_bind_ok checked]
  simp only [Action.perform_within, storagePart, held, Storage.read, Action.perform_of, read]

/-- What a backend over tables is after it restored a key group. -/
theorem exists_of_readKeyGroup {b after : Backend keys} {h : HeapStorage}
    (held : b.storage = .heap h) {g : KeyGroup} {stream rest : Bytes}
    (restored : (readKeyGroup g stream).perform b = (.ok rest, after)) :
    ∃ h', h.read g (b.compression.decode stream).bytes = .ok (h', rest) ∧
      after = { b with storage := .heap h' } := by
  rw [readKeyGroup, Action.perform_bind_ok (Action.perform_get b), Action.perform_bind,
    Action.perform_lift] at restored
  cases own : b.checkGroup g with
  | error e =>
    rw [own] at restored
    cases restored
  | ok u =>
    simp only [own, Action.perform_within, storagePart, held, Storage.read,
      Action.perform_of] at restored
    cases read : h.read g (b.compression.decode stream).bytes with
    | error e =>
      rw [read] at restored
      cases restored
    | ok found =>
      rw [read] at restored
      cases restored
      exact ⟨found.1, rfl, rfl⟩

end Backend

/-- **A key group is restored as a whole or not at all.** Whatever a reader gives, and wherever it
fails: if a backend over tables refuses to restore a key group from it, the backend is the one it
was, with all its tables, their kinds and contents, its named states and its key context. That is
so although the tables are changed one after the other. Otherwise what was delivered starts with a
snapshot of the key group, and this is what the tables hold in it afterwards. -/
theorem refused_restore_changes_nothing {keys : Schema} {b : Backend keys} {h : HeapStorage}
    (held : b.storage = .heap h) (g : KeyGroup) (source : Reader) :
    (Backend.readKeyGroup g source.delivered).perform b =
        (Backend.readKeyGroupFrom g source).perform b ∧
      (∀ e after, (Backend.readKeyGroupFrom g source).perform b = (.error e, after) →
        after = b) ∧
      ∀ rest after, (Backend.readKeyGroupFrom g source).perform b = (.ok rest, after) →
        ∃ s : KeyGroupSnapshot, s.group = g ∧
          KeyGroupSnapshot.codec.decode (b.compression.decode source.delivered).bytes =
            some (s, rest) ∧
          after = { b with storage := .heap (h.restore s) } := by
  have same := Backend.perform_readKeyGroupFrom b g source
  refine ⟨same.symm, ?_, ?_⟩
  · intro e after refused
    exact Backend.readKeyGroupFrom_allOrNothing g source b e after refused
  · intro rest after restored
    rw [same] at restored
    obtain ⟨h', read, rfl⟩ := Backend.exists_of_readKeyGroup held restored
    obtain ⟨s, decoded, group, -, rfl⟩ := HeapStorage.exists_restore_of_read read
    exact ⟨s, group, decoded, rfl⟩

/-- Two tables of values, of which the first one holds something. -/
def HeapStorage.twoTables : HeapStorage :=
  ⟨((∅ : ExtTreeMap String Table).insert "b" (.empty .value)).insert "a"
    ((Table.empty .value).put ⟨⟨3, [1], []⟩, none⟩ [7])⟩

/-- The first table is one of values, the last one is not. -/
def KeyGroupSnapshot.lateConflict : KeyGroupSnapshot :=
  ⟨3, [⟨"a", .value, [⟨[1], [], some [8], []⟩]⟩, ⟨"b", .map, [⟨[2], [], none, [([5], [6])]⟩]⟩]⟩

/-- The last table of a stream conflicts with the one of its name, and the first one is not
touched. A reader that fails on the way is refused as well. -/
theorem refused_restore_changes_nothing_lateConflict :
    let b := { Backend.plain 4 ⟨0, 3⟩ with storage := .heap .twoTables }
    let stream := KeyGroupSnapshot.codec.encode .lateConflict
    (Backend.readKeyGroupFrom 3 [.interrupted, .bytes stream, .fault]).perform b =
        (.error (.restoredAs "b" .value .map), b) ∧
      (Backend.readKeyGroupFrom 3 [.bytes (stream.take 20), .fault]).perform b =
        (.error (.serialization .malformed), b) := by
  intro b stream
  have conflict : ((Backend.readKeyGroupFrom 3 [.interrupted, .bytes stream, .fault]).perform b).1 =
      .error (.restoredAs "b" .value .map) := by
    rw [Backend.perform_readKeyGroupFrom]
    refine Backend.perform_readKeyGroup_error (h := .twoTables) rfl rfl ?_
    have decoded : KeyGroupSnapshot.codec.decode
        (Reader.delivered [.interrupted, .bytes stream, .fault]) =
        some (.lateConflict, []) := by
      decide +kernel
    refine (HeapStorage.read_decoded _ 3 decoded).trans ?_
    have agrees : HeapStorage.twoTables.tables["a"]? =
        some ((Table.empty .value).put ⟨⟨3, [1], []⟩, none⟩ [7]) := ExtTreeMap.getElem?_insert_self
    have conflicts : HeapStorage.twoTables.tables["b"]? = some (.empty .value) := by
      rw [HeapStorage.twoTables, ExtTreeMap.getElem?_insert, if_neg (by decide),
        ExtTreeMap.getElem?_insert_self]
    simp only [KeyGroupSnapshot.lateConflict, HeapStorage.checkKinds, agrees, conflicts]
    rfl
  have cut : ((Backend.readKeyGroupFrom 3 [.bytes (stream.take 20), .fault]).perform b).1 =
      .error (.serialization .malformed) := by
    rw [Backend.perform_readKeyGroupFrom]
    refine Backend.perform_readKeyGroup_error (h := .twoTables) rfl rfl ?_
    have undecoded : KeyGroupSnapshot.codec.decode
        (Reader.delivered [.bytes (stream.take 20), .fault]) = none := by
      decide +kernel
    show HeapStorage.twoTables.read 3 (Reader.delivered [.bytes (stream.take 20), .fault]) = _
    rw [HeapStorage.read, undecoded]
    rfl
  have untouched := fun source =>
    (refused_restore_changes_nothing (b := b) (h := .twoTables) rfl 3 source).2.1
  constructor
  · exact Prod.ext conflict (untouched _ _ _ (Prod.ext conflict rfl))
  · exact Prod.ext cut (untouched _ _ _ (Prod.ext cut rfl))

end KeyedState
