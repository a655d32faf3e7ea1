import KeyedState.Proofs.Backend.Ownership
import KeyedState.Proofs.Backend.Streams
import KeyedState.Proofs.KeyGroup.Partition

/-!
# Rescaling

The key groups of a job move from its old operators to its new ones: each is written by the
operator that owned it and read by the one that owns it from then on. No write and no read is
refused, and afterwards every new operator holds exactly what the old ones held in its key
groups, whatever the old operators ran before and in whatever order the key groups were taken.

Main statement: `rescaling_carries_everything`.
-/

namespace KeyedState

open Std (ExtTreeMap)
open KeyGroup (Sized owner ownedRange)

variable {keys : Schema}

/-- The lengths in a storage are 64-bit words; a script has none. -/
def Storage.FitsMemory : Storage → Prop
  | .heap h => h.FitsMemory
  | .scripted _ => True

instance (storage : Storage) : Decidable storage.FitsMemory :=
  match storage with
  | .heap h => inferInstanceAs (Decidable h.FitsMemory)
  | .scripted _ => inferInstanceAs (Decidable True)

namespace Backend

/-- What a backend holds under a name in a key group. -/
def held (b : Backend keys) (name : String) (g : KeyGroup) : GroupContents :=
  match b.storage with
  | .heap h => h.contents name g
  | .scripted _ => ∅

theorem held_eq {b : Backend keys} {h : HeapStorage} (storage : b.storage = .heap h) (name : String)
    (g : KeyGroup) : b.held name g = h.contents name g := by
  rw [held, storage]

/-- What a state over a table of the storage finds in a slot is what is held under its name. -/
theorem slot_tableOf {b : Backend keys} {h : HeapStorage} (storage : b.storage = .heap h)
    {s : NamedState} (shared : s.place = .shared) (a : SlotAddress) :
    (b.tableOf s).slot a = (b.held s.name a.group).slot a.key a.ns := by
  rw [Table.slot_eq, group_tableOf storage shared, held_eq storage]

/-- The operator of an index, just built over tables of its own. -/
structure IsFresh (m p i : UInt32) (compress : Bool) (b : Backend keys) : Prop where
  built : ∃ config serializer metered, config.groups = m ∧ ownedRange m p i = .ok config.range ∧
    config.execution.compress = compress ∧
    BackendCore.build config serializer metered = .ok b.toBackendCore
  storage : b.storage = .heap .empty
  states : b.states = []

namespace IsFresh

variable {m p i : UInt32} {compress : Bool} {b : Backend keys}

/-- The settings of a fresh backend: its range is the one of its operator. -/
theorem settings (fresh : IsFresh m p i compress b) :
    ownedRange m p i = .ok b.range ∧ b.context.groups = m ∧ b.context.group = none ∧
      b.context.serialized = none ∧
      b.compression = if compress then .snappy else .uncompressed := by
  obtain ⟨config, serializer, metered, groups, owned, compressed, built⟩ := fresh.built
  obtain ⟨core, -⟩ := BackendCore.of_build built
  rw [range, compression, core, Compression.ofConfig, compressed]
  exact ⟨owned, groups, rfl, rfl, rfl⟩

/-- A fresh backend contains exactly the key groups that its operator owns. -/
theorem contains_iff (fresh : IsFresh m p i compress b) (sized : Sized m p) (hi : i < p)
    (g : KeyGroup) : b.range.contains g = true ↔ g < m ∧ owner m p g = i :=
  KeyGroup.contains_ownedRange_iff sized hi fresh.settings.1 g

/-- A fresh backend holds nothing that does not belong to keys of its range. -/
theorem at_home (fresh : IsFresh m p i compress b) (kindOf : String → StateKind) :
    b.At b.context kindOf b.compression where
  context := by
    obtain ⟨-, -, group, serialized, -⟩ := fresh.settings
    refine ⟨rfl, rfl, rfl, fun g found => ?_, fun bytes found => ?_⟩
    · rw [group] at found; cases found
    · rw [serialized] at found; cases found
  storage := by
    refine ⟨.empty, fresh.storage, fun name table found => ?_⟩
    simp [HeapStorage.empty] at found
  states s member := by rw [fresh.states] at member; cases member
  compression := rfl

end IsFresh

/-! ## What a run leaves -/

/-- What a backend holds that keeps to its keys. -/
theorem At.exists_heap {home : KeyContext keys} {kindOf : String → StateKind} {c : Compression}
    {b : Backend keys} (hb : b.At home kindOf c) :
    ∃ h, b.storage = .heap h ∧ h.Pruned ∧
      (∀ name kind, h.kind? name = some kind → kind = kindOf name) ∧
      ∀ name g key ns, (h.contents name g).slot key ns ≠ .empty → home.Locates g key := by
  obtain ⟨h, storage, ok⟩ := hb.storage
  refine ⟨h, storage, fun name table found => (ok name table found).1.pruned, ?_, ?_⟩
  · intro name kind found
    obtain ⟨table, held, rfl⟩ := Option.map_eq_some_iff.1 found
    exact (ok name table held).2
  · intro name g key ns nonempty
    cases found : h.tables[name]? with
    | none =>
        rw [HeapStorage.contents_of_none found, GroupContents.slot_empty] at nonempty
        exact absurd rfl nonempty
    | some table =>
        rw [HeapStorage.contents_of_getElem? found] at nonempty
        exact (ok name table found).1.located ⟨g, key, ns⟩ nonempty

/-! ## Carrying key groups over -/

/-- The targets after key groups were carried over in turn, each written by the source that owns it
and read by the target that owns it. -/
def carryOver (m p q : UInt32) (sources : UInt32 → Backend keys) :
    List KeyGroup → (UInt32 → Backend keys) → Except StateError (UInt32 → Backend keys)
  | [], targets => .ok targets
  | g :: groups, targets => do
    let stream ← (sources (owner m p g)).writeKeyGroup g
    match (readKeyGroup g stream).perform (targets (owner m q g)) with
    | (.error e, _) => .error e
    | (.ok _, b) => carryOver m p q sources groups (Function.update targets (owner m q g) b)

/-- A source that can write a key group: it is one of its own, its tables have the kinds of their
names, and their lengths fit. -/
structure Gives (kindOf : String → StateKind) (c : Compression) (s : Backend keys) (g : KeyGroup) :
    Prop where
  heap : ∃ h, s.storage = .heap h ∧ h.Pruned ∧ h.FitsMemory ∧
    ∀ name kind, h.kind? name = some kind → kind = kindOf name
  own : s.range.contains g = true
  compression : s.compression = c

/-- A target with the settings of `fresh` that holds what is expected, in tables of the kinds of
their names. -/
structure Receives (kindOf : String → StateKind) (fresh b : Backend keys)
    (expected : String → KeyGroup → GroupContents) : Prop where
  range : b.range = fresh.range
  compression : b.compression = fresh.compression
  heap : ∃ h, b.storage = .heap h ∧ (∀ name kind, h.kind? name = some kind → kind = kindOf name) ∧
    ∀ name g, h.contents name g = expected name g

theorem Receives.congr {kindOf : String → StateKind} {fresh b : Backend keys}
    {expected expected' : String → KeyGroup → GroupContents}
    (receives : Receives kindOf fresh b expected)
    (same : ∀ name g, expected' name g = expected name g) : Receives kindOf fresh b expected' := by
  obtain ⟨h, held, kinds, contents⟩ := receives.heap
  exact ⟨receives.range, receives.compression, h, held, kinds, fun name g =>
    (contents name g).trans (same name g).symm⟩

/-- A key group that is carried over replaces what the target holds in it. -/
theorem Receives.carry {kindOf : String → StateKind} {fresh b s : Backend keys}
    {expected : String → KeyGroup → GroupContents} (receives : Receives kindOf fresh b expected)
    {g : KeyGroup} (own : fresh.range.contains g = true)
    (gives : Gives kindOf fresh.compression s g) :
    ∃ stream b', s.writeKeyGroup g = .ok stream ∧
      (readKeyGroup g stream).perform b = (.ok [], b') ∧
      Receives kindOf fresh b' fun name g' =>
        if g' = g then s.held name g else expected name g' := by
  obtain ⟨source, heldThere, pruned, fits, kindsThere⟩ := gives.heap
  obtain ⟨target, held, kinds, contents⟩ := receives.heap
  -- both sides have the kind of the name
  have agree : source.KindsAgree target g := by
    intro name holds kind found
    cases there : source.kind? name with
    | none => exact absurd (HeapStorage.contents_of_kind?_none there g) holds
    | some kind' => rw [kindsThere name kind' there, kinds name kind found]
  have carried : source.Carried target [g] (target.restore (source.snapshot g)) :=
    HeapStorage.carried_restore pruned (.refl _)
  obtain ⟨stream, written, read⟩ := perform_readKeyGroup_written fits agree heldThere gives.own held
    (receives.range ▸ own) (gives.compression.trans receives.compression.symm)
  refine ⟨stream, _, written, read, receives.range, receives.compression, _, rfl, ?_, ?_⟩
  · intro name kind found
    cases old : target.kind? name with
    | some kind' =>
        rw [carried.known name kind' old] at found
        exact Option.some.inj found ▸ kinds name kind' old
    | none =>
        by_cases moved : ∃ g' ∈ [g], source.contents name g' ≠ ∅
        · rw [carried.opened name old moved] at found
          exact kindsThere name kind found
        · push Not at moved
          rw [carried.unopened name old moved] at found
          cases found
  · intro name g'
    split
    · next here => rw [here, carried.listed name g List.mem_cons_self, held_eq heldThere]
    · next other =>
        rw [carried.others name g' fun member => other (List.mem_singleton.1 member), contents]

/-- What a target holds once some key groups were carried over. -/
def expectedOf (m p q j : UInt32) (sources : UInt32 → Backend keys) (done : List KeyGroup)
    (name : String) (g : KeyGroup) : GroupContents :=
  if g ∈ done ∧ owner m q g = j then (sources (owner m p g)).held name g else ∅

/-- One more key group that was carried over is expected of its owner. -/
theorem expectedOf_cons {m p q j g : UInt32} (sources : UInt32 → Backend keys)
    (done : List KeyGroup) (name : String) (g' : KeyGroup) :
    expectedOf m p q j sources (g :: done) name g' =
      if g' = g ∧ owner m q g = j then (sources (owner m p g)).held name g
      else expectedOf m p q j sources done name g' := by
  by_cases here : g' = g
  · subst here
    by_cases owned : owner m q g' = j
    · simp [expectedOf, owned]
    · simp [expectedOf, owned]
  · simp [expectedOf, here]

/-- Key groups are carried over one after another, none is refused, and each target ends up with
those that it owns. -/
theorem carryOver_eq_ok {m p q : UInt32} {kindOf : String → StateKind} {c : Compression}
    {sources fresh : UInt32 → Backend keys} (newSize : Sized m q) {order : List KeyGroup}
    (inside : ∀ g ∈ order, g < m)
    (gives : ∀ g < m, Gives kindOf c (sources (owner m p g)) g)
    (owns : ∀ g < m, (fresh (owner m q g)).range.contains g = true)
    (same : ∀ j < q, (fresh j).compression = c) (done : List KeyGroup)
    {targets : UInt32 → Backend keys}
    (receives : ∀ j < q, Receives kindOf (fresh j) (targets j) (expectedOf m p q j sources done)) :
    ∃ after, carryOver m p q sources order targets = .ok after ∧
      ∀ j < q, Receives kindOf (fresh j) (after j)
        (expectedOf m p q j sources (order.reverse ++ done)) := by
  -- what was carried over so far is expected of its owners, and nothing else
  induction order generalizing done targets with
  | nil => exact ⟨targets, rfl, receives⟩
  | cons g rest ih =>
      obtain ⟨hg, inside⟩ := List.forall_mem_cons.1 inside
      have hj := KeyGroup.owner_lt newSize hg
      obtain ⟨stream, b, written, read, received⟩ := (receives _ hj).carry (owns g hg)
        (same _ hj ▸ gives g hg)
      have next : ∀ j < q, Receives kindOf (fresh j)
          (Function.update targets (owner m q g) b j) (expectedOf m p q j sources (g :: done)) := by
        intro j hj
        -- only the owner of the key group has read anything
        by_cases here : j = owner m q g
        · subst here
          rw [Function.update_self]
          apply received.congr
          intro name g'
          rw [expectedOf_cons]
          by_cases first : g' = g <;> simp [first]
        · rw [Function.update_of_ne here]
          apply (receives j hj).congr
          intro name g'
          rw [expectedOf_cons, if_neg fun both => here both.2.symm]
      obtain ⟨after, carried, final⟩ := ih inside (g :: done) next
      refine ⟨after, ?_, fun j hj => ?_⟩
      · rw [carryOver, written]
        simp only [bind, Except.bind, read]
        exact carried
      · have := final j hj
        rwa [List.reverse_cons, List.append_assoc]

end Backend

/-- Sources and targets have any numbers of operators for one maximum, and the same compression.
Each source has run operations that set its key only together with the key's group, one of its
own, and open a name at one kind only; its lengths fit into memory. Then the key groups are
carried over, in any order that has all of them, without a refusal. Every target holds exactly what
the sources held in the key groups that it owns, and nothing else; what a source held lay in its
own key groups, each slot in the one that its key hashes to. -/
theorem rescaling_carries_everything {m p q : UInt32} (oldSize : Sized m p) (newSize : Sized m q)
    {compress : Bool} {kindOf : String → StateKind} {initial targets : UInt32 → Backend keys}
    (sourcesFresh : ∀ i < p, Backend.IsFresh m p i compress (initial i))
    (targetsFresh : ∀ j < q, Backend.IsFresh m q j compress (targets j))
    {steps : UInt32 → List (Step keys)}
    (allowed : ∀ i < p, ∀ s ∈ steps i, s.Allowed (initial i).context kindOf)
    (fits : ∀ i < p, (Step.run (steps i) (initial i)).storage.FitsMemory)
    {order : List KeyGroup} (all : ∀ g, g ∈ order ↔ g < m) :
    ∃ after, Backend.carryOver m p q (fun i => Step.run (steps i) (initial i)) order targets =
        .ok after ∧
      (∀ g < m, ∀ name, (after (owner m q g)).held name g =
        (Step.run (steps (owner m p g)) (initial (owner m p g))).held name g) ∧
      (∀ j < q, ∀ g name, ¬ (g < m ∧ owner m q g = j) → (after j).held name g = ∅) ∧
      ∀ i < p, ∀ g name key ns,
        ((Step.run (steps i) (initial i)).held name g).slot key ns ≠ .empty →
        g < m ∧ owner m p g = i ∧ ∃ k serializer, (initial i).context.serializer = some serializer ∧
          serializer.serialize k = .ok key ∧ g = KeyGroup.assign (keys.hash k) m := by
  have ran : ∀ i < p, (Step.run (steps i) (initial i)).At (initial i).context kindOf
      (initial i).compression := fun i hi => ((sourcesFresh i hi).at_home kindOf).run (allowed i hi)
  have gives : ∀ g < m, Backend.Gives kindOf (if compress then .snappy else .uncompressed)
      (Step.run (steps (owner m p g)) (initial (owner m p g))) g := by
    intro g hg
    have hi := KeyGroup.owner_lt oldSize hg
    obtain ⟨h, held, pruned, kinds, -⟩ := (ran _ hi).exists_heap
    have lengths := fits _ hi
    rw [held] at lengths
    refine ⟨⟨h, held, pruned, lengths, kinds⟩, ?_, ?_⟩
    · rw [Backend.range, (ran _ hi).context.range]
      exact ((sourcesFresh _ hi).contains_iff oldSize hi g).2 ⟨hg, rfl⟩
    · rw [(ran _ hi).compression]
      exact (sourcesFresh _ hi).settings.2.2.2.2
  have owns : ∀ g < m, (targets (owner m q g)).range.contains g = true := fun g hg =>
    ((targetsFresh _ (KeyGroup.owner_lt newSize hg)).contains_iff newSize
      (KeyGroup.owner_lt newSize hg) g).2 ⟨hg, rfl⟩
  have empty : ∀ j < q, Backend.Receives kindOf (targets j) (targets j)
      (Backend.expectedOf m p q j (fun i => Step.run (steps i) (initial i)) []) := by
    intro j hj
    refine ⟨rfl, rfl, .empty, (targetsFresh j hj).storage, fun name kind found => ?_,
      fun name g => ?_⟩
    · simp [HeapStorage.kind?, HeapStorage.empty] at found
    · simp [Backend.expectedOf]
  obtain ⟨after, carried, final⟩ := Backend.carryOver_eq_ok newSize (fun g => (all g).1) gives owns
    (fun j hj => (targetsFresh j hj).settings.2.2.2.2) [] empty
  -- all key groups were taken, so the order no longer matters
  have holds : ∀ j < q, ∀ name g, (after j).held name g =
      if g < m ∧ owner m q g = j then
        (Step.run (steps (owner m p g)) (initial (owner m p g))).held name g
      else ∅ := by
    intro j hj name g
    obtain ⟨h, held, -, contents⟩ := (final j hj).heap
    rw [Backend.held_eq held, contents, Backend.expectedOf]
    simp only [List.append_nil, List.mem_reverse, all]
  refine ⟨after, carried, fun g hg name => ?_, fun j hj g name other => ?_, ?_⟩
  · rw [holds _ (KeyGroup.owner_lt newSize hg), if_pos ⟨hg, rfl⟩]
  · rw [holds j hj, if_neg other]
  · intro i hi g name key ns nonempty
    obtain ⟨h, held, -, -, located⟩ := (ran i hi).exists_heap
    rw [Backend.held_eq held] at nonempty
    obtain ⟨own, k, serializer, known, written, hashed⟩ := located name g key ns nonempty
    obtain ⟨hg, owned⟩ := ((sourcesFresh i hi).contains_iff oldSize hi g).1 own
    rw [KeyContext.groupOf, (sourcesFresh i hi).settings.2.1] at hashed
    exact ⟨hg, owned, k, serializer, known, written, hashed⟩

/-- Counts one key once. -/
def Step.countOnce : List (Step .string) :=
  [.getPartitioned ⟨"count", .initial, none, .value .i64 none⟩ ⟨.unit, .binary .unit⟩ (),
    .setKey "k", .call 0 (.value .i64) (.set (1 : BitVec 64))]

theorem Backend.isFresh_plain {m p i : UInt32} {r : KeyGroupRange}
    (owned : ownedRange m p i = .ok r) (positive : ¬ m = 0) (room : ¬ m < r.count) :
    IsFresh m p i false (plain m r) where
  built := by
    refine ⟨⟨m, r, .initial, .initial, .initial⟩, some (.binary .string), false, rfl, owned, rfl,
      ?_⟩
    simp only [BackendCore.build, if_neg positive, if_neg room]
    rfl
  storage := rfl
  states := rfl

/-- One operator of four key groups has counted one key, and two take over. -/
theorem rescaling_carries_everything_countOnce :
    ∃ after, Backend.carryOver 4 1 2 (fun _ => Step.run Step.countOnce (.plain 4 ⟨0, 3⟩))
        [2, 0, 3, 1] (fun j => .plain 4 (if j = 0 then ⟨0, 1⟩ else ⟨2, 3⟩)) = .ok after ∧
      ∀ g < 4, ∀ name, (after (owner 4 2 g)).held name g =
        (Step.run Step.countOnce (.plain 4 ⟨0, 3⟩)).held name g := by
  have oldSize : Sized 4 1 := ⟨by decide, by decide, by decide⟩
  have newSize : Sized 4 2 := ⟨by decide, by decide, by decide⟩
  have source : ∀ i < (1 : UInt32), Backend.IsFresh 4 1 i false (.plain 4 ⟨0, 3⟩) := by
    intro i hi
    obtain rfl : i = 0 := UInt32.lt_one_iff.1 hi
    exact Backend.isFresh_plain (by decide) (by decide) (by decide)
  have target : ∀ j < (2 : UInt32), Backend.IsFresh 4 2 j false
      (.plain 4 (if j = 0 then ⟨0, 1⟩ else ⟨2, 3⟩)) := by
    intro j hj
    have cases : j = 0 ∨ j = 1 := by
      have := UInt32.lt_iff_toNat_lt.1 hj
      rw [← UInt32.toNat_inj, ← UInt32.toNat_inj]
      exact Nat.le_one_iff_eq_zero_or_eq_one.1 (Nat.le_of_lt_succ this)
    rcases cases with rfl | rfl
    · exact Backend.isFresh_plain (by decide) (by decide) (by decide)
    · exact Backend.isFresh_plain (by decide) (by decide) (by decide)
  have allowed : ∀ s ∈ Step.countOnce,
      s.Allowed (Backend.plain 4 ⟨0, 3⟩).context fun _ => .value := by
    simp only [Step.countOnce, List.forall_mem_cons, List.not_mem_nil, false_imp_iff, implies_true,
      and_true]
    refine ⟨rfl, ?_, trivial⟩
    show (KeyGroupRange.mk 0 3).contains (KeyGroup.assign (Schema.string.hash "k") 4) = true
    decide +kernel
  have fits : (Step.run Step.countOnce (.plain 4 ⟨0, 3⟩)).storage.FitsMemory := by decide +kernel
  have all : ∀ g : KeyGroup, g ∈ [2, 0, 3, 1] ↔ g < 4 := by
    intro g
    simp only [List.mem_cons, List.not_mem_nil, or_false, ← UInt32.toNat_inj,
      UInt32.lt_iff_toNat_lt, UInt32.reduceToNat]
    omega
  obtain ⟨after, carried, held, -⟩ := rescaling_carries_everything oldSize newSize source target
    (fun _ _ => allowed) (fun _ _ => fits) all
  exact ⟨after, carried, held⟩

end KeyedState
