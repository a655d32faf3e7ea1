import KeyedState.Proofs.Table.Groups
import KeyedState.Proofs.Table.Requests
import KeyedState.Storage.Heap

/-!
# Contents of tables by name

A storage of tables is seen as a map from names and key groups to contents, with a kind
for each name that has a table. Restoring a key group from a list of tables replaces
the group in every table and touches no other group (`contents_restore`), and a table
keeps the kind at which it was opened (`kind?_restore`). Every storage that is reached
by opening tables, by requests and by restored streams keeps nothing empty
(`Reachable.pruned`).
-/

namespace KeyedState

open Std (ExtTreeMap)

namespace HeapStorage

/-- What the state of a name holds in a key group. -/
def contents (h : HeapStorage) (name : String) (g : KeyGroup) : GroupContents :=
  (h.tables[name]?.map fun table => table.group g).getD ∅

/-- The kind of the table of a name, if there is one. -/
def kind? (h : HeapStorage) (name : String) : Option StateKind :=
  h.tables[name]?.map Table.kind

/-- No table keeps anything empty. -/
def Pruned (h : HeapStorage) : Prop :=
  ∀ (name : String) (table : Table), h.tables[name]? = some table → table.Pruned

theorem contents_of_getElem? {h : HeapStorage} {name : String} {table : Table}
    (ht : h.tables[name]? = some table) (g : KeyGroup) : h.contents name g = table.group g := by
  simp [contents, ht]

theorem contents_of_none {h : HeapStorage} {name : String} (ht : h.tables[name]? = none)
    (g : KeyGroup) : h.contents name g = ∅ := by
  simp [contents, ht]

/-- Under a name without a table there is nothing. -/
theorem contents_of_kind?_none {h : HeapStorage} {name : String} (hk : h.kind? name = none)
    (g : KeyGroup) : h.contents name g = ∅ :=
  contents_of_none (Option.map_eq_none_iff.1 hk) g

@[simp] theorem contents_empty (name : String) (g : KeyGroup) : empty.contents name g = ∅ := by
  simp [contents, empty]

/-! ## Replacing one table -/

/-- The storage with the table of a name replaced. -/
theorem getElem?_insert (h : HeapStorage) (name name' : String) (table : Table) :
    (h.tables.insert name table)[name']? =
      if name' = name then some table else h.tables[name']? := by
  simp only [ExtTreeMap.getElem?_insert, Std.LawfulEqOrd.compare_eq_iff_eq, eq_comm (a := name)]

theorem Pruned.insert {h : HeapStorage} (pruned : h.Pruned) (name : String) {table : Table}
    (ht : table.Pruned) : Pruned ⟨h.tables.insert name table⟩ := by
  intro name' table' found
  rw [getElem?_insert] at found
  split at found
  · cases found
    exact ht
  · exact pruned _ _ found

/-! ## Restoring one table -/

/-- The tables after one of them was restored. -/
theorem getElem?_restoreTable (h : HeapStorage) (g : KeyGroup) (t : TableSnapshot)
    (name : String) :
    (h.restoreTable g t).tables[name]? =
      if name = t.name then
        some ((h.tables[t.name]?.getD (.empty t.kind)).restoreGroup g t.slots)
      else h.tables[name]? := by
  simp only [restoreTable, ExtTreeMap.getElem?_alter, Std.LawfulEqOrd.compare_eq_iff_eq,
    eq_comm (a := t.name)]

/-- Restoring a table replaces its key group and nothing else. -/
theorem contents_restoreTable (h : HeapStorage) (g : KeyGroup) (t : TableSnapshot)
    (name : String) (g' : KeyGroup) :
    (h.restoreTable g t).contents name g' =
      if name = t.name ∧ g' = g then Table.contentsOf t.slots else h.contents name g' := by
  rw [contents, getElem?_restoreTable]
  by_cases hname : name = t.name
  · subst hname
    simp only [if_true, Option.map_some, Option.getD_some, Table.group_restoreGroup, true_and]
    by_cases hg : g' = g
    · simp [hg]
    · simp only [hg, if_false]
      cases ht : h.tables[t.name]? with
      | none => simp [contents_of_none ht]
      | some table => simp [contents_of_getElem? ht]
  · simp [hname, contents]

/-- A restored table keeps its kind; a new one takes the kind of what is restored. -/
theorem kind?_restoreTable (h : HeapStorage) (g : KeyGroup) (t : TableSnapshot) (name : String) :
    (h.restoreTable g t).kind? name =
      if name = t.name then some ((h.kind? name).getD t.kind) else h.kind? name := by
  rw [kind?, getElem?_restoreTable]
  by_cases hname : name = t.name
  · subst hname
    cases ht : h.tables[t.name]? <;> simp [kind?, ht, Table.empty]
  · simp [hname, kind?]

theorem Pruned.restoreTable {h : HeapStorage} (pruned : h.Pruned) (g : KeyGroup)
    (t : TableSnapshot) : (h.restoreTable g t).Pruned := by
  intro name table found
  rw [getElem?_restoreTable] at found
  split at found
  · cases found
    cases ht : h.tables[t.name]? with
    | none => exact (Table.pruned_empty t.kind).restoreGroup g t.slots
    | some table => exact (pruned _ _ ht).restoreGroup g t.slots
  · exact pruned _ _ found

/-! ## Restoring all tables of a key group -/

/-- All tables with a key group emptied. -/
def clearGroup (h : HeapStorage) (g : KeyGroup) : HeapStorage :=
  ⟨h.tables.map fun _ table => table.clearGroup g⟩

theorem contents_clearGroup (h : HeapStorage) (g : KeyGroup) (name : String) (g' : KeyGroup) :
    (h.clearGroup g).contents name g' = if g' = g then ∅ else h.contents name g' := by
  simp only [contents, clearGroup, ExtTreeMap.getElem?_map]
  cases h.tables[name]? with
  | none => simp
  | some table => simp [Table.group_clearGroup]

@[simp] theorem kind?_clearGroup (h : HeapStorage) (g : KeyGroup) (name : String) :
    (h.clearGroup g).kind? name = h.kind? name := by
  simp only [kind?, clearGroup, ExtTreeMap.getElem?_map]
  cases h.tables[name]? <;> rfl

theorem Pruned.clearGroup {h : HeapStorage} (pruned : h.Pruned) (g : KeyGroup) :
    (h.clearGroup g).Pruned := by
  intro name table found
  simp only [HeapStorage.clearGroup, ExtTreeMap.getElem?_map, Option.map_eq_some_iff] at found
  obtain ⟨old, hold, rfl⟩ := found
  exact (pruned _ _ hold).clearGroup g

/-- Of the tables of one name that are restored in turn the last one counts. -/
theorem contents_foldl_restoreTable (g : KeyGroup) (tables : List TableSnapshot)
    (h : HeapStorage) (name : String) (g' : KeyGroup) :
    (tables.foldl (fun h t => h.restoreTable g t) h).contents name g' =
      if g' = g then
        ((tables.reverse.find? fun t => t.name == name).map fun t => Table.contentsOf t.slots).getD
          (h.contents name g)
      else h.contents name g' := by
  induction tables generalizing h with
  | nil => by_cases hg : g' = g <;> simp [hg]
  | cons t rest ih =>
    rw [List.foldl_cons, ih, List.reverse_cons, List.find?_append, contents_restoreTable,
      contents_restoreTable]
    -- a later table of the name takes the place of this one
    by_cases hg : g' = g
    · simp only [hg, if_true, and_true]
      cases rest.reverse.find? (fun t => t.name == name) with
      | some later => rfl
      | none =>
        by_cases hname : t.name = name
        · simp [hname]
        · simp [hname, Ne.symm hname]
    · simp [hg]

/-- Of the tables of one name that are restored in turn the first one settles the kind. -/
theorem kind?_foldl_restoreTable (g : KeyGroup) (tables : List TableSnapshot)
    (h : HeapStorage) (name : String) :
    (tables.foldl (fun h t => h.restoreTable g t) h).kind? name =
      (h.kind? name).or ((tables.find? fun t => t.name == name).map TableSnapshot.kind) := by
  induction tables generalizing h with
  | nil => simp
  | cons t rest ih =>
    rw [List.foldl_cons, ih, kind?_restoreTable, List.find?_cons]
    -- once the name has a kind, later tables leave it
    by_cases hname : t.name = name
    · subst hname
      cases h.kind? t.name <;> simp
    · simp [beq_eq_false_iff_ne.2 hname, Ne.symm hname]

/-- What the tables hold after a key group was restored. -/
theorem contents_restore (h : HeapStorage) (s : KeyGroupSnapshot) (name : String)
    (g' : KeyGroup) :
    (h.restore s).contents name g' =
      if g' = s.group then
        ((s.tables.reverse.find? fun t => t.name == name).map fun t =>
          Table.contentsOf t.slots).getD ∅
      else h.contents name g' := by
  have fold := contents_foldl_restoreTable s.group s.tables (h.clearGroup s.group) name g'
  rw [contents_clearGroup, contents_clearGroup, if_pos rfl] at fold
  apply Eq.trans fold
  by_cases hg : g' = s.group <;> simp [hg]

/-- The kinds of the tables after a key group was restored. -/
theorem kind?_restore (h : HeapStorage) (s : KeyGroupSnapshot) (name : String) :
    (h.restore s).kind? name =
      (h.kind? name).or ((s.tables.find? fun t => t.name == name).map TableSnapshot.kind) := by
  have fold := kind?_foldl_restoreTable s.group s.tables (h.clearGroup s.group) name
  rwa [kind?_clearGroup] at fold

theorem Pruned.restore {h : HeapStorage} (pruned : h.Pruned) (s : KeyGroupSnapshot) :
    (h.restore s).Pruned := by
  have fold : ∀ (tables : List TableSnapshot) (h : HeapStorage), h.Pruned →
      (tables.foldl (fun h t => h.restoreTable s.group t) h).Pruned := by
    intro tables
    induction tables with
    | nil => exact fun _ pruned => pruned
    | cons t rest ih => exact fun h pruned => ih _ (pruned.restoreTable s.group t)
  exact fold s.tables _ (pruned.clearGroup s.group)

/-! ## Reading a stream -/

/-- The kinds are accepted exactly when no table of a listed name has another kind. -/
theorem checkKinds_eq_ok_iff (h : HeapStorage) (tables : List TableSnapshot) :
    h.checkKinds tables = .ok () ↔
      ∀ t ∈ tables, ∀ kind, h.kind? t.name = some kind → kind = t.kind := by
  induction tables with
  | nil => simp [checkKinds]
  | cons t rest ih =>
    rw [checkKinds, List.forall_mem_cons, ← ih]
    cases ht : h.tables[t.name]? with
    | none => simp [kind?, ht]
    | some table =>
      by_cases hk : table.kind = t.kind
      · simp [kind?, ht, hk]
      · simp [kind?, ht, hk]

/-- A stream is read if it holds the key group and its tables have the right kinds. -/
theorem read_eq_ok {h : HeapStorage} {stream rest : Bytes} {s : KeyGroupSnapshot}
    (decoded : KeyGroupSnapshot.codec.decode stream = some (s, rest))
    (kinds : h.checkKinds s.tables = .ok ()) :
    h.read s.group stream = .ok (h.restore s, rest) := by
  simp [read, decoded, Serializer.orMalformed, kinds, bind, Except.bind, pure, Except.pure]

/-- What a storage is after a stream was read. -/
theorem exists_restore_of_read {h h' : HeapStorage} {g : KeyGroup} {stream rest : Bytes}
    (read : h.read g stream = .ok (h', rest)) :
    ∃ s, KeyGroupSnapshot.codec.decode stream = some (s, rest) ∧ s.group = g ∧
      h.checkKinds s.tables = .ok () ∧ h' = h.restore s := by
  -- each check that fails refuses the stream
  cases decoded : KeyGroupSnapshot.codec.decode stream with
  | none => simp [HeapStorage.read, decoded, Serializer.orMalformed, bind, Except.bind] at read
  | some found =>
    obtain ⟨s, rest'⟩ := found
    by_cases hg : s.group = g
    · cases kinds : h.checkKinds s.tables with
      | error e =>
        simp [HeapStorage.read, decoded, Serializer.orMalformed, hg, kinds, bind,
          Except.bind] at read
      | ok u =>
        simp only [HeapStorage.read, decoded, Serializer.orMalformed, hg, kinds, bind, Except.bind,
          pure, Except.pure, ne_eq, not_true_eq_false, if_false, Except.ok.injEq,
          Prod.mk.injEq] at read
        obtain ⟨rfl, rfl⟩ := read
        exact ⟨s, rfl, hg, kinds, rfl⟩
    · simp [HeapStorage.read, decoded, Serializer.orMalformed, hg, bind, Except.bind, throw,
        throwThe, MonadExceptOf.throw] at read

/-! ## Reachable storages -/

/-- Storages that are made by opening tables, by requests to tables and by restored streams. -/
inductive Reachable : HeapStorage → Prop
  | empty : Reachable .empty
  | opened {h h' : HeapStorage} {name : String} {kind : StateKind} :
      Reachable h → h.openTable name kind = .ok h' → Reachable h'
  | requested {h : HeapStorage} {name : String} {table : Table} (r : Request) :
      Reachable h → h.tables[name]? = some table →
      Reachable ⟨h.tables.insert name ((Table.store.perform r).perform table).2⟩
  | restored {h h' : HeapStorage} {g : KeyGroup} {stream rest : Bytes} :
      Reachable h → h.read g stream = .ok (h', rest) → Reachable h'

theorem pruned_empty : Pruned empty := by
  intro name table found
  simp [empty] at found

/-- Opening a table keeps a storage pruned. -/
theorem Pruned.openTable {h h' : HeapStorage} (pruned : h.Pruned) {name : String}
    {kind : StateKind} (opened : h.openTable name kind = .ok h') : h'.Pruned := by
  rw [HeapStorage.openTable] at opened
  split at opened
  · cases opened
    exact pruned.insert name (Table.pruned_empty kind)
  · split at opened
    · cases opened
      exact pruned
    · cases opened

/-- Reachable storages keep nothing empty. -/
theorem Reachable.pruned {h : HeapStorage} (reachable : h.Reachable) : h.Pruned := by
  induction reachable with
  | empty => exact pruned_empty
  | opened _ opened ih => exact ih.openTable opened
  | requested r _ found ih => exact ih.insert _ ((ih _ _ found).perform r)
  | restored _ read ih =>
    obtain ⟨s, -, -, -, rfl⟩ := exists_restore_of_read read
    exact ih.restore s

end HeapStorage

end KeyedState
