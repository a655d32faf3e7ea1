import KeyedState.Backend.Lifecycle
import KeyedState.Proofs.Backend.Runs
import KeyedState.Proofs.Action
import KeyedState.Proofs.Compression.Frame
import KeyedState.Proofs.Storage.Stream

/-!
# Key groups carried from backend to backend

A backend over tables writes the key groups of its range and restores them, through the
compression of its settings (`Backend.writeKeyGroup_eq`, `Backend.perform_readKeyGroup`).
A handle that was opened before finds what was restored, since it finds its table by name
(`Backend.group_tableOf`).

Main statement: `key_groups_round_trip`.
-/

namespace KeyedState

namespace Backend

variable {keys : Schema} {b : Backend keys} {h : HeapStorage} {g : KeyGroup}

/-- The stream of a key group of a backend over tables. -/
theorem writeKeyGroup_eq (held : b.storage = .heap h) (own : b.range.contains g = true) :
    b.writeKeyGroup g = .ok (b.compression.encode (h.write g)) := by
  simp [writeKeyGroup, groupContent, checkGroup, own, held, Storage.write, bind, Except.bind, pure,
    Except.pure]

/-- A backend over tables reads what its compression makes of a stream. -/
theorem perform_readKeyGroup (held : b.storage = .heap h) (own : b.range.contains g = true)
    {stream rest : Bytes} {after : HeapStorage}
    (read : h.read g (b.compression.decode stream).bytes = .ok (after, rest)) :
    (readKeyGroup g stream).perform b = (.ok rest, { b with storage := .heap after }) := by
  have checked : (Action.lift (b.checkGroup g)).perform b = (.ok (), b) := by
    rw [Action.perform_lift, checkGroup, if_pos own]
  have restored : (Storage.read g (b.compression.decode stream).bytes).perform b.storage =
      (.ok rest, .heap after) := by
    rw [Storage.read, Action.perform_of, held]
    simp only [read]
  rw [readKeyGroup, Action.perform_bind_ok (Action.perform_get b), Action.perform_bind_ok checked,
    Action.perform_within]
  simp only [storagePart, restored]

/-- What a handle on a shared table finds in a key group. -/
theorem group_tableOf (held : b.storage = .heap h) {s : NamedState} (shared : s.place = .shared)
    (g : KeyGroup) : (b.tableOf s).group g = h.contents s.name g := by
  rw [tableOf_eq held shared]
  cases found : h.tables[s.name]? with
  | none => rw [HeapStorage.contents_of_none found, Option.getD_none, Table.group_empty]
  | some table => rw [HeapStorage.contents_of_getElem? found, Option.getD_some]

/-- What a backend writes is read by one with the same compression. -/
theorem perform_readKeyGroup_written {source target : HeapStorage} (fits : source.FitsMemory)
    (agree : source.KindsAgree target g) {writer : Backend keys}
    (heldThere : writer.storage = .heap source) (ownThere : writer.range.contains g = true)
    (held : b.storage = .heap target) (own : b.range.contains g = true)
    (same : writer.compression = b.compression) :
    ∃ stream, writer.writeKeyGroup g = .ok stream ∧
      (readKeyGroup g stream).perform b =
        (.ok [], { b with storage := .heap (target.restore (source.snapshot g)) }) := by
  refine ⟨_, writeKeyGroup_eq heldThere ownThere, perform_readKeyGroup held own ?_⟩
  have content := HeapStorage.read_encode fits agree (.refl (source.snapshot g)) []
  rw [List.append_nil] at content
  rw [same, Compression.decode_encode]
  exact content

end Backend

/-- The key groups of a source, written in any order of its tables and slots, come back at any
target whose tables of their names have their kinds: one after another from one stream, of which
exactly what follows them is left, and through a backend with any compression whose reader inverts
the writer. The groups read hold what they held at the source, nothing else changes, and handles
find what was restored. What a backend itself writes is read so by one with the same settings. -/
theorem key_groups_round_trip {source : HeapStorage} (reachable : source.Reachable)
    (fits : source.FitsMemory) (target : HeapStorage) :
    (∀ (parts : List (KeyGroup × KeyGroupSnapshot)) (rest : Bytes),
      (∀ part ∈ parts, (source.snapshot part.1).Reorders part.2) →
      (∀ part ∈ parts, source.KindsAgree target part.1) →
      ∃ after, target.readAll (parts.map Prod.fst)
          (parts.flatMap (fun part => KeyGroupSnapshot.codec.encode part.2) ++ rest) =
            .ok (after, rest) ∧
        source.Carried target (parts.map Prod.fst) after) ∧
    ∀ (keys : Schema) (b : Backend keys) (g : KeyGroup), b.storage = .heap target →
      b.range.contains g = true → source.KindsAgree target g →
      (∀ (s : KeyGroupSnapshot) (pack : Bytes → Bytes) (rest : Bytes),
        (source.snapshot g).Reorders s →
        (∀ data, (b.compression.decode (pack data)).bytes = data) →
        ∃ after,
          (Backend.readKeyGroup g (pack (KeyGroupSnapshot.codec.encode s ++ rest))).perform b =
            (.ok rest, { b with storage := .heap after }) ∧
          source.Carried target [g] after ∧
          ∀ (handle : NamedState) (g' : KeyGroup), handle.place = .shared →
            (Backend.tableOf { b with storage := .heap after } handle).group g' =
              if g' = g then source.contents handle.name g else (b.tableOf handle).group g') ∧
      ∀ (writer : Backend keys), writer.storage = .heap source → writer.range.contains g = true →
        writer.compression = b.compression →
        ∃ stream after, writer.writeKeyGroup g = .ok stream ∧
          (Backend.readKeyGroup g stream).perform b = (.ok [], { b with storage := .heap after }) ∧
          source.Carried target [g] after := by
  have pruned := reachable.pruned
  refine ⟨fun parts rest orders agree =>
    HeapStorage.readAll_encode pruned fits parts orders agree rest, ?_⟩
  intro keys b g held own agree
  -- what the storage takes over is what the backend and its handles find
  have carried : ∀ {s}, (source.snapshot g).Reorders s →
      source.Carried target [g] (target.restore s) :=
    fun order => HeapStorage.carried_restore pruned order
  refine ⟨fun s pack rest order inverts => ⟨target.restore s, ?_, carried order, ?_⟩, ?_⟩
  · apply Backend.perform_readKeyGroup held own
    rw [inverts, HeapStorage.read_encode fits agree order]
  · intro handle g' shared
    rw [Backend.group_tableOf rfl shared, Backend.group_tableOf held shared]
    split
    · next here => rw [here, (carried order).listed _ g List.mem_cons_self]
    · next other =>
        exact (carried order).others _ g' fun member => other (List.mem_singleton.1 member)
  · intro writer heldThere ownThere same
    obtain ⟨stream, written, read⟩ :=
      Backend.perform_readKeyGroup_written fits agree heldThere ownThere held own same
    exact ⟨stream, _, written, read, carried (.refl _)⟩

/-- A table "count" in which one key holds one value. -/
def HeapStorage.oneCount : HeapStorage :=
  ⟨((∅ : Std.ExtTreeMap String Table).insert "count" (.empty .value)).insert "count"
    ((Table.store.perform (.put ⟨⟨3, [1], []⟩, none⟩ [7])).perform (.empty .value)).2⟩

theorem HeapStorage.reachable_oneCount : oneCount.Reachable := by
  have opened : empty.openTable "count" .value =
      .ok ⟨(∅ : Std.ExtTreeMap String Table).insert "count" (.empty .value)⟩ := rfl
  refine .requested (.put ⟨⟨3, [1], []⟩, none⟩ [7]) (.opened .empty opened) ?_
  exact Std.ExtTreeMap.getElem?_insert_self

/-- An operator that has opened a count and holds nothing under it. -/
def Backend.emptyCount : Backend .string :=
  Step.run [.getPartitioned ⟨"count", .initial, none, .value .i64 none⟩ ⟨.unit, .binary .unit⟩ ()]
    (.plain 4 ⟨0, 3⟩)

/-- The value comes back in front of a byte that is not part of the stream: to a storage without
tables, and to an operator that has opened the table before, whose handle finds it. -/
theorem key_groups_round_trip_oneCount :
    HeapStorage.oneCount.Reachable ∧ HeapStorage.oneCount.FitsMemory ∧
      (∃ after, HeapStorage.empty.readAll [3] (HeapStorage.oneCount.write 3 ++ [0xFF]) =
          .ok (after, [0xFF]) ∧
        after.contents "count" 3 = HeapStorage.oneCount.contents "count" 3) ∧
      ∃ after handle, Backend.emptyCount.states[0]? = some handle ∧
        (Backend.readKeyGroup 3 (HeapStorage.oneCount.write 3 ++ [0xFF])).perform .emptyCount =
          (.ok [0xFF], { Backend.emptyCount with storage := .heap after }) ∧
        (Backend.tableOf { Backend.emptyCount with storage := .heap after } handle).group 3 =
          HeapStorage.oneCount.contents "count" 3 := by
  have reachable := HeapStorage.reachable_oneCount
  have fits : HeapStorage.oneCount.FitsMemory := by decide +kernel
  obtain ⟨after, read, carried⟩ := (key_groups_round_trip reachable fits .empty).1
    [(3, HeapStorage.oneCount.snapshot 3)] [0xFF] (by simpa using .refl _)
    (by simp [HeapStorage.KindsAgree, HeapStorage.kind?, HeapStorage.empty])
  refine ⟨reachable, fits, ⟨after, read, carried.listed "count" 3 List.mem_cons_self⟩, ?_⟩
  -- the operator has an empty table of the same kind
  have agree : HeapStorage.oneCount.KindsAgree
      ⟨HeapStorage.empty.tables.insert "count" (.empty .value)⟩ 3 := by
    intro name _ kind found
    rw [HeapStorage.kind?, HeapStorage.getElem?_insert] at found
    split at found
    · next same =>
      subst same
      cases found
      decide +kernel
    · cases found
  obtain ⟨after, restored, -, found⟩ := ((key_groups_round_trip reachable fits _).2 .string
    .emptyCount 3 rfl (by decide) agree).1 _ id [0xFF] (.refl _) fun _ => rfl
  exact ⟨after, _, rfl, restored, (found _ 3 rfl).trans (if_pos rfl)⟩

end KeyedState
