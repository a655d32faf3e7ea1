import KeyedState.Proofs.Storage.Contents
import Mathlib.Data.List.Forall2

/-!
# Key groups carried over by streams

The tables and the slots of a key group may be written in any order
(`KeyGroupSnapshot.Reorders`). Whatever the order is, reading the stream replaces the key
group of every table by what the source holds and leaves exactly what follows the
stream (`read_encode`); a list of key groups written one after another is read back one
after another (`readAll_encode`). What is assumed of the source is that its lengths are
64-bit words (`HeapStorage.FitsMemory`), as they are in any memory.
-/

namespace KeyedState

open Std (ExtTreeMap)
open Binary (Codec)

/-! ## Lengths -/

/-- The lengths in a slot are 64-bit words. -/
structure Slot.FitsMemory (s : Slot) : Prop where
  value : ∀ v ∈ s.value, v.length < 2 ^ 64
  count : s.entries.size < 2 ^ 64
  entries : ∀ e ∈ s.entries.toList, e.1.length < 2 ^ 64 ∧ e.2.length < 2 ^ 64

/-- The lengths in a key group are 64-bit words, and so is the number of its slots. -/
structure GroupContents.FitsMemory (c : GroupContents) : Prop where
  count : c.snapshot.length < 2 ^ 64
  keys : ∀ x ∈ c.toList, x.1.length < 2 ^ 64 ∧
    ∀ y ∈ x.2.toList, y.1.length < 2 ^ 64 ∧ y.2.FitsMemory

/-- The lengths in all tables are 64-bit words, and so is the number of the tables. -/
structure HeapStorage.FitsMemory (h : HeapStorage) : Prop where
  count : h.tables.size < 2 ^ 64
  tables : ∀ x ∈ h.tables.toList, (Codec.utf8 x.1).length < 2 ^ 64 ∧
    ∀ y ∈ x.2.groups.toList, y.2.FitsMemory

instance (s : Slot) : Decidable s.FitsMemory :=
  decidable_of_iff (_ ∧ _ ∧ _) ⟨fun ⟨v, c, e⟩ => ⟨v, c, e⟩, fun h => ⟨h.value, h.count, h.entries⟩⟩

instance (c : GroupContents) : Decidable c.FitsMemory :=
  decidable_of_iff (_ ∧ _) ⟨fun ⟨c, k⟩ => ⟨c, k⟩, fun h => ⟨h.count, h.keys⟩⟩

instance (h : HeapStorage) : Decidable h.FitsMemory :=
  decidable_of_iff (_ ∧ _) ⟨fun ⟨c, t⟩ => ⟨c, t⟩, fun h => ⟨h.count, h.tables⟩⟩

/-- A key group that holds nothing has no lengths. -/
theorem GroupContents.fitsMemory_empty : FitsMemory ∅ := by decide

/-- A slot that holds nothing has no lengths. -/
theorem Slot.fitsMemory_empty : FitsMemory .empty := by decide

/-- The slots of a key group whose lengths fit. -/
theorem GroupContents.FitsMemory.slot {cs : GroupContents} (fits : cs.FitsMemory) (key ns : Bytes) :
    (cs.slot key ns).FitsMemory := by
  cases held : cs[key]? with
  | none => exact slot_of_getElem?_none held ▸ Slot.fitsMemory_empty
  | some namespaces =>
      rw [slot_of_getElem? held]
      cases kept : namespaces[ns]? with
      | none => exact Slot.fitsMemory_empty
      | some slot =>
          have each := fits.keys _ (ExtTreeMap.mem_toList_iff_getElem?_eq_some.2 held)
          exact (each.2 _ (ExtTreeMap.mem_toList_iff_getElem?_eq_some.2 kept)).2

/-- The key groups of a table whose lengths fit. -/
theorem HeapStorage.FitsMemory.group {h : HeapStorage} (fits : h.FitsMemory) {name : String}
    {table : Table} (found : h.tables[name]? = some table) (g : KeyGroup) :
    (table.group g).FitsMemory := by
  rw [Table.group, ExtTreeMap.getD_eq_getD_getElem?]
  cases held : table.groups[g]? with
  | none => exact GroupContents.fitsMemory_empty
  | some c =>
      have member := ExtTreeMap.mem_toList_iff_getElem?_eq_some.2 found
      exact (fits.tables _ member).2 _ (ExtTreeMap.mem_toList_iff_getElem?_eq_some.2 held)

/-- What is held in a storage whose lengths fit. -/
theorem HeapStorage.FitsMemory.contents {h : HeapStorage} (fits : h.FitsMemory) (name : String)
    (g : KeyGroup) : (h.contents name g).FitsMemory := by
  cases found : h.tables[name]? with
  | none => exact contents_of_none found g ▸ GroupContents.fitsMemory_empty
  | some table => exact contents_of_getElem? found g ▸ fits.group found g

/-- What is written of a slot fits into the words of the stream. -/
theorem Slot.FitsMemory.fits {s : Slot} (fits : s.FitsMemory) {key ns : Bytes}
    (hkey : key.length < 2 ^ 64) (hns : ns.length < 2 ^ 64) :
    SlotSnapshot.codec.fits (.ofSlot key ns s) := by
  refine ⟨hkey, hns, fits.value, ?_, fun e member => ?_⟩
  · show s.entries.toList.length < 2 ^ 64
    rw [ExtTreeMap.length_toList]
    exact fits.count
  · exact fits.entries e member

/-- What is written of a key group fits into the words of the stream. -/
theorem GroupContents.FitsMemory.fits {c : GroupContents} (fits : c.FitsMemory) :
    ∀ s ∈ c.snapshot, SlotSnapshot.codec.fits s := by
  intro s member
  obtain ⟨m, slot, hm, hs, same⟩ := GroupContents.mem_snapshot.1 member
  obtain ⟨hkey, namespaces⟩ := fits.keys _ (ExtTreeMap.mem_toList_iff_getElem?_eq_some.2 hm)
  obtain ⟨hns, slotFits⟩ := namespaces _ (ExtTreeMap.mem_toList_iff_getElem?_eq_some.2 hs)
  rw [same]
  exact slotFits.fits hkey hns

/-! ## Orders -/

/-- The same table with its slots in any order. -/
structure TableSnapshot.Reorders (t t' : TableSnapshot) : Prop where
  name : t'.name = t.name
  kind : t'.kind = t.kind
  slots : t'.slots.Perm t.slots

/-- The same tables in any order, each with its slots in any order. -/
structure KeyGroupSnapshot.Reorders (s s' : KeyGroupSnapshot) : Prop where
  group : s'.group = s.group
  tables : ∃ tables, tables.Perm s.tables ∧ List.Forall₂ TableSnapshot.Reorders tables s'.tables

namespace KeyGroupSnapshot.Reorders

variable {s s' : KeyGroupSnapshot}

theorem refl (s : KeyGroupSnapshot) : s.Reorders s where
  group := rfl
  tables := ⟨s.tables, List.Perm.refl _, by
    induction s.tables with
    | nil => exact .nil
    | cons t rest ih => exact .cons ⟨rfl, rfl, List.Perm.refl _⟩ ih⟩

/-- Every table listed in one order is listed in the other. -/
theorem exists_of_mem (order : s.Reorders s') {t' : TableSnapshot} (member : t' ∈ s'.tables) :
    ∃ t ∈ s.tables, t.Reorders t' := by
  obtain ⟨tables, perm, all⟩ := order.tables
  have listed : ∃ t ∈ tables, t.Reorders t' := by
    -- the two listings are gone through side by side
    generalize s'.tables = tables' at all member
    clear perm
    induction all with
    | nil => cases member
    | cons same _ ih =>
        rcases List.mem_cons.1 member with rfl | member
        · exact ⟨_, List.mem_cons_self, same⟩
        · obtain ⟨t, listed, reorders⟩ := ih member
          exact ⟨t, List.mem_cons_of_mem _ listed, reorders⟩
  obtain ⟨t, listed, reorders⟩ := listed
  exact ⟨t, perm.mem_iff.1 listed, reorders⟩

/-- Every table listed first is listed in the other order. -/
theorem exists_reordered (order : s.Reorders s') {t : TableSnapshot} (member : t ∈ s.tables) :
    ∃ t' ∈ s'.tables, t.Reorders t' := by
  obtain ⟨tables, perm, all⟩ := order.tables
  have member := perm.mem_iff.2 member
  generalize s'.tables = tables' at all ⊢
  clear perm
  induction all with
  | nil => cases member
  | cons same _ ih =>
      rcases List.mem_cons.1 member with rfl | member
      · exact ⟨_, List.mem_cons_self, same⟩
      · obtain ⟨t', listed, reorders⟩ := ih member
        exact ⟨t', List.mem_cons_of_mem _ listed, reorders⟩

/-- The order does not change how many tables there are. -/
theorem length_tables (order : s.Reorders s') : s'.tables.length = s.tables.length := by
  obtain ⟨tables, perm, all⟩ := order.tables
  rw [← all.length_eq, perm.length_eq]

/-- In any order the snapshot fits into the words of the stream. -/
theorem fits (order : s.Reorders s') (fits : KeyGroupSnapshot.codec.fits s) :
    KeyGroupSnapshot.codec.fits s' := by
  obtain ⟨-, count, each⟩ := fits
  refine ⟨trivial, ?_, fun t' member => ?_⟩
  · show s'.tables.length < 2 ^ 64
    rw [order.length_tables]
    exact count
  · obtain ⟨t, listed, same⟩ := order.exists_of_mem member
    obtain ⟨name, -, slots, all⟩ := each t listed
    refine ⟨?_, trivial, ?_, fun slot member => all slot (same.slots.mem_iff.1 member)⟩
    · show (Codec.utf8 t'.name).length < 2 ^ 64
      rw [same.name]
      exact name
    · show t'.slots.length < 2 ^ 64
      rw [same.slots.length_eq]
      exact slots

end KeyGroupSnapshot.Reorders

namespace HeapStorage

variable {source target : HeapStorage}

/-! ## What a storage writes -/

/-- The tables that are written are those that hold something in the key group. -/
theorem mem_snapshot_tables {h : HeapStorage} {g : KeyGroup} {t : TableSnapshot} :
    t ∈ (h.snapshot g).tables ↔ ∃ table, h.tables[t.name]? = some table ∧ t.kind = table.kind ∧
      t.slots = (table.group g).snapshot ∧ t.slots ≠ [] := by
  simp only [snapshot, List.mem_filterMap, Prod.exists, ExtTreeMap.mem_toList_iff_getElem?_eq_some]
  constructor
  · rintro ⟨name, table, found, written⟩
    split at written
    · cases written
    · next nonempty =>
        cases written
        exact ⟨table, found, rfl, rfl, by simpa using nonempty⟩
  · rintro ⟨table, found, kind, slots, nonempty⟩
    refine ⟨t.name, table, found, ?_⟩
    rw [slots] at nonempty
    rw [Table.snapshot_eq, if_neg (by simpa using nonempty), ← kind, ← slots]

/-- What is written of a key group fits into the words of the stream. -/
theorem FitsMemory.fits (fits : source.FitsMemory) (g : KeyGroup) :
    KeyGroupSnapshot.codec.fits (source.snapshot g) := by
  refine ⟨trivial, ?_, fun t member => ?_⟩
  · show ((source.snapshot g).tables).length < 2 ^ 64
    apply Nat.lt_of_le_of_lt (List.length_filterMap_le _ _)
    rw [ExtTreeMap.length_toList]
    exact fits.count
  · obtain ⟨table, found, -, slots, -⟩ := mem_snapshot_tables.1 member
    have group := fits.group found g
    have name := (fits.tables _ (ExtTreeMap.mem_toList_iff_getElem?_eq_some.2 found)).1
    refine ⟨name, trivial, ?_, ?_⟩
    · show t.slots.length < 2 ^ 64
      rw [slots]
      exact group.count
    · show ∀ s ∈ t.slots, SlotSnapshot.codec.fits s
      rw [slots]
      exact group.fits

/-- A listed table, in whatever order its slots are, tells the contents of the key group. -/
theorem contentsOf_reordered (pruned : source.Pruned) {g : KeyGroup} {t t' : TableSnapshot}
    (member : t ∈ (source.snapshot g).tables) (same : t.Reorders t') :
    Table.contentsOf t'.slots = source.contents t'.name g := by
  obtain ⟨table, found, -, slots, -⟩ := mem_snapshot_tables.1 member
  rw [same.name, contents_of_getElem? found]
  apply Table.contentsOf_eq ((pruned _ _ found).contents g)
  intro s
  rw [same.slots.mem_iff, slots]

/-- A table that holds something in the key group is listed. -/
theorem exists_mem_snapshot (pruned : source.Pruned) {name : String} {g : KeyGroup}
    (holds : source.contents name g ≠ ∅) : ∃ t ∈ (source.snapshot g).tables, t.name = name := by
  cases found : source.tables[name]? with
  | none => exact absurd (contents_of_none found g) holds
  | some table =>
      rw [contents_of_getElem? found] at holds
      refine ⟨⟨name, table.kind, (table.group g).snapshot⟩, ?_, rfl⟩
      refine mem_snapshot_tables.2 ⟨table, found, rfl, rfl, fun empty => holds ?_⟩
      exact ((pruned _ _ found).contents g).snapshot_eq_nil_iff.1 empty

/-- A table that is listed holds something in the key group, and has its kind. -/
theorem kind?_of_mem_snapshot {g : KeyGroup} {t : TableSnapshot}
    (member : t ∈ (source.snapshot g).tables) :
    source.kind? t.name = some t.kind ∧ source.contents t.name g ≠ ∅ := by
  obtain ⟨table, found, kind, slots, nonempty⟩ := mem_snapshot_tables.1 member
  refine ⟨by rw [kind?, found, kind]; rfl, fun empty => nonempty ?_⟩
  rw [contents_of_getElem? found] at empty
  rw [slots, empty]
  rfl

/-! ## What reading it leaves -/

/-- No table that holds something in a key group of the source has another kind at the target. -/
def KindsAgree (source target : HeapStorage) (g : KeyGroup) : Prop :=
  ∀ name, source.contents name g ≠ ∅ →
    ∀ kind, target.kind? name = some kind → source.kind? name = some kind

/-- The target after key groups of the source took the place of its own: the others are as they
were, the tables keep their kinds, and new ones have those of the source. -/
structure Carried (source target : HeapStorage) (groups : List KeyGroup) (after : HeapStorage) :
    Prop where
  listed : ∀ name, ∀ g ∈ groups, after.contents name g = source.contents name g
  others : ∀ name, ∀ g ∉ groups, after.contents name g = target.contents name g
  known : ∀ name kind, target.kind? name = some kind → after.kind? name = some kind
  opened : ∀ name, target.kind? name = none → (∃ g ∈ groups, source.contents name g ≠ ∅) →
    after.kind? name = source.kind? name
  unopened : ∀ name, target.kind? name = none → (∀ g ∈ groups, source.contents name g = ∅) →
    after.kind? name = none

/-- Reading one key group of the source, written in any order, carries it over. -/
theorem carried_restore (pruned : source.Pruned) {g : KeyGroup} {s : KeyGroupSnapshot}
    (order : (source.snapshot g).Reorders s) : Carried source target [g] (target.restore s) where
  listed name g' listed := by
    obtain rfl := List.mem_singleton.1 listed
    have here : g' = s.group := order.group.symm
    -- a table of the name is listed exactly if the source holds something under it
    rw [contents_restore, if_pos here]
    cases found : s.tables.reverse.find? fun t => t.name == name with
    | some t' =>
        have member := List.mem_reverse.1 (List.mem_of_find?_eq_some found)
        obtain ⟨t, listed, same⟩ := order.exists_of_mem member
        have named : t'.name = name := by simpa using List.find?_some found
        rw [Option.map_some, Option.getD_some, contentsOf_reordered pruned listed same, named]
    | none =>
        by_contra ne
        obtain ⟨t, listed, named⟩ := exists_mem_snapshot pruned (Ne.symm ne)
        obtain ⟨t', member, same⟩ := order.exists_reordered listed
        have other := List.find?_eq_none.1 found t' (List.mem_reverse.2 member)
        exact other (by rw [same.name, named, beq_self_eq_true])
  others name g' other := by
    rw [contents_restore, if_neg]
    rw [order.group]
    exact fun same => other (List.mem_singleton.2 same)
  known name kind found := by rw [kind?_restore, found, Option.some_or]
  opened name new := by
    rintro ⟨g', listed, holds⟩
    obtain rfl := List.mem_singleton.1 listed
    obtain ⟨t, listed, named⟩ := exists_mem_snapshot pruned holds
    obtain ⟨t', member, same⟩ := order.exists_reordered listed
    rw [kind?_restore, new, Option.none_or]
    cases found : s.tables.find? fun t => t.name == name with
    | none =>
        have other := List.find?_eq_none.1 found t' member
        exact absurd (by rw [same.name, named, beq_self_eq_true]) other
    | some t'' =>
        obtain ⟨t, listed, same⟩ := order.exists_of_mem (List.mem_of_find?_eq_some found)
        have named : t''.name = name := by simpa using List.find?_some found
        rw [Option.map_some, same.kind, ← (kind?_of_mem_snapshot listed).1, ← same.name, named]
  unopened name new empty := by
    rw [kind?_restore, new, Option.none_or]
    cases found : s.tables.find? fun t => t.name == name with
    | none => rfl
    | some t' =>
        obtain ⟨t, listed, same⟩ := order.exists_of_mem (List.mem_of_find?_eq_some found)
        have named : t'.name = name := by simpa using List.find?_some found
        have holds := (kind?_of_mem_snapshot listed).2
        rw [← same.name, named] at holds
        exact absurd (empty g List.mem_cons_self) holds

/-- A key group of the source, written in any order, is read off the front of any stream. -/
theorem read_encode (fits : source.FitsMemory) {g : KeyGroup}
    (agree : source.KindsAgree target g) {s : KeyGroupSnapshot}
    (order : (source.snapshot g).Reorders s) (rest : Bytes) :
    target.read g (KeyGroupSnapshot.codec.encode s ++ rest) = .ok (target.restore s, rest) := by
  have decoded := KeyGroupSnapshot.codec.decode_encode s rest (order.fits (fits.fits g))
  rw [show g = s.group from order.group.symm]
  refine read_eq_ok decoded ((checkKinds_eq_ok_iff _ _).2 fun t' member kind found => ?_)
  obtain ⟨t, listed, same⟩ := order.exists_of_mem member
  obtain ⟨written, holds⟩ := kind?_of_mem_snapshot listed
  rw [← same.name] at written holds
  have kept := agree t'.name holds kind found
  rw [written, Option.some.injEq] at kept
  rw [same.kind, kept]

/-! ## Key groups one after another -/

/-- The storage after key groups were read from a stream one after another, and the rest of the
stream. -/
def readAll (h : HeapStorage) : List KeyGroup → Bytes → Except StateError (HeapStorage × Bytes)
  | [], stream => .ok (h, stream)
  | g :: groups, stream => do
    let (h, rest) ← h.read g stream
    h.readAll groups rest

/-- Before anything was carried over the target is as it was. -/
theorem carried_nil (source target : HeapStorage) : Carried source target [] target where
  listed _ _ member := by cases member
  others _ _ _ := rfl
  known _ _ found := found
  opened _ _ := by rintro ⟨g, member, -⟩; cases member
  unopened _ new _ := new

/-- A key group and then others are carried over as all of them are. -/
theorem Carried.cons {g : KeyGroup} {groups : List KeyGroup} {between after : HeapStorage}
    (first : Carried source target [g] between) (rest : Carried source between groups after) :
    Carried source target (g :: groups) after where
  listed name g' member := by
    by_cases later : g' ∈ groups
    · exact rest.listed name g' later
    · rw [rest.others name g' later]
      rcases List.mem_cons.1 member with rfl | member
      · exact first.listed name g' List.mem_cons_self
      · exact absurd member later
  others name g' other := by
    rw [rest.others name g' fun member => other (List.mem_cons_of_mem _ member),
      first.others name g' fun same => other (List.mem_singleton.1 same ▸ List.mem_cons_self)]
  known name kind found := rest.known name kind (first.known name kind found)
  opened name new := by
    rintro ⟨g', member, holds⟩
    -- the first key group that holds something under the name opens its table
    by_cases now : source.contents name g = ∅
    · have still := first.unopened name new fun g'' same => List.mem_singleton.1 same ▸ now
      refine rest.opened name still ⟨g', ?_, holds⟩
      rcases List.mem_cons.1 member with rfl | member
      · exact absurd now holds
      · exact member
    · have opened := first.opened name new ⟨g, List.mem_cons_self, now⟩
      cases kind : source.kind? name with
      | none => exact absurd (contents_of_kind?_none kind g) now
      | some kind' => exact rest.known name kind' (opened.trans kind)
  unopened name new empty := by
    refine rest.unopened name ?_ fun g' member => empty g' (List.mem_cons_of_mem _ member)
    apply first.unopened name new
    intro g' same
    rw [List.mem_singleton.1 same]
    exact empty g List.mem_cons_self

/-- Key groups that were carried over leave no table at another kind than the source's. -/
theorem KindsAgree.carried {g : KeyGroup} {groups : List KeyGroup} {after : HeapStorage}
    (agree : source.KindsAgree target g) (carried : Carried source target groups after) :
    source.KindsAgree after g := by
  intro name holds kind found
  -- a table that was there keeps its kind; a new one was opened by what was carried over
  cases old : target.kind? name with
  | some kind' =>
      rw [carried.known name kind' old] at found
      exact agree name holds kind (old.trans found)
  | none =>
      by_cases moved : ∃ g' ∈ groups, source.contents name g' ≠ ∅
      · rw [← carried.opened name old moved, found]
      · push Not at moved
        rw [carried.unopened name old moved] at found
        cases found

/-- Key groups of the source, each written in any order, are read back from one stream one after
another, and what follows them is left. -/
theorem readAll_encode (pruned : source.Pruned) (fits : source.FitsMemory)
    (parts : List (KeyGroup × KeyGroupSnapshot))
    (orders : ∀ part ∈ parts, (source.snapshot part.1).Reorders part.2)
    (agree : ∀ part ∈ parts, source.KindsAgree target part.1) (rest : Bytes) :
    ∃ after, target.readAll (parts.map Prod.fst)
        (parts.flatMap (fun part => KeyGroupSnapshot.codec.encode part.2) ++ rest) =
          .ok (after, rest) ∧
      Carried source target (parts.map Prod.fst) after := by
  -- the kinds agree also with the target as it is after the first key group
  induction parts generalizing target with
  | nil => exact ⟨target, rfl, carried_nil source target⟩
  | cons part parts ih =>
      obtain ⟨g, s⟩ := part
      obtain ⟨order, orders⟩ := List.forall_mem_cons.1 orders
      obtain ⟨agreeFirst, agree⟩ := List.forall_mem_cons.1 agree
      have first : Carried source target [g] (target.restore s) := carried_restore pruned order
      obtain ⟨after, read, carried⟩ :=
        ih orders fun part member => (agree part member).carried first
      refine ⟨after, ?_, first.cons carried⟩
      rw [List.map_cons, readAll, List.flatMap_cons, List.append_assoc,
        read_encode fits agreeFirst order]
      exact read

end HeapStorage

end KeyedState
