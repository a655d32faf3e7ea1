import KeyedState.Proofs.Table.Requests

/-!
# Listings of a table

What a table lists comes from walks over its maps. The keys of a namespace come with the
key groups they are in (`keys_eq`): in the order of key groups and then of the bytes of
the keys (`pairwise_holders`), and exactly those whose slot holds something
(`Pruned.mem_holders`). The slots that are counted are the addresses that hold something,
each of them once (`length_addresses`, `nodup_addresses`, `Pruned.mem_addresses`).
-/

namespace KeyedState

open Std (ExtTreeMap)

/-- A key in a key group comes before another one. -/
def Precedes (x y : KeyGroup × Bytes) : Prop :=
  x.1 < y.1 ∨ x.1 = y.1 ∧ compare x.2 y.2 = .lt

namespace Precedes

variable {x y : KeyGroup × Bytes}

theorem asymm (h : Precedes x y) : ¬ Precedes y x := by
  rcases h with less | ⟨same, less⟩
  · rintro (greater | ⟨same, -⟩)
    · exact absurd (UInt32.lt_trans less greater) (UInt32.lt_irrefl _)
    · exact absurd (same ▸ less) (UInt32.lt_irrefl _)
  · rintro (greater | ⟨-, greater⟩)
    · exact absurd (same ▸ greater) (UInt32.lt_irrefl _)
    · have cycle := Std.TransCmp.lt_trans less greater
      simp at cycle

theorem ne (h : Precedes x y) : x ≠ y := by
  rintro rfl
  exact h.asymm h

end Precedes

namespace GroupContents

/-- A slot that is kept in a pruned group holds something. -/
theorem Pruned.slot_ne_empty_iff {cs : GroupContents} (h : cs.Pruned) {key ns : Bytes} :
    cs.slot key ns ≠ .empty ↔ ∃ m, cs[key]? = some m ∧ ∃ s, m[ns]? = some s := by
  constructor
  · intro holds
    cases hm : cs[key]? with
    | none => exact absurd (slot_of_getElem?_none hm) holds
    | some m =>
      cases hs : m[ns]? with
      | none => exact absurd (by rw [slot_of_getElem? hm, hs, Option.getD_none]) holds
      | some s => exact ⟨m, rfl, s, hs⟩
  · rintro ⟨m, hm, s, hs⟩
    rw [slot_eq_of_getElem? hm hs]
    exact h.slots hm hs

end GroupContents

namespace Table

variable (t : Table)

/-- A slot that is kept in a pruned table holds something. -/
theorem Pruned.slot_ne_empty_iff {t : Table} (pruned : t.Pruned) {a : SlotAddress} :
    t.slot a ≠ .empty ↔
      ∃ cs, t.groups[a.group]? = some cs ∧ ∃ m, cs[a.key]? = some m ∧
        ∃ s, m[a.ns]? = some s := by
  rw [slot_eq, (pruned.contents a.group).slot_ne_empty_iff]
  constructor
  · rintro ⟨m, hm, kept⟩
    cases hcs : t.groups[a.group]? with
    | none => simp [group, ExtTreeMap.getD_eq_getD_getElem?, hcs] at hm
    | some cs =>
      rw [group, ExtTreeMap.getD_eq_getD_getElem?, hcs, Option.getD_some] at hm
      exact ⟨cs, rfl, m, hm, kept⟩
  · rintro ⟨cs, hcs, m, hm, kept⟩
    refine ⟨m, ?_, kept⟩
    rw [group, ExtTreeMap.getD_eq_getD_getElem?, hcs, Option.getD_some]
    exact hm

/-! ## The keys of a namespace -/

/-- The keys that hold something in a namespace, each with its key group. -/
def holders (ns : Bytes) : List (KeyGroup × Bytes) :=
  t.groups.toList.flatMap fun (g, keys) =>
    (keys.toList.filter fun (_, namespaces) => namespaces.contains ns).map fun (key, _) =>
      (g, key)

/-- The keys of a namespace are listed without their key groups. -/
theorem keys_eq (ns : Bytes) : t.keys ns = (t.holders ns).map Prod.snd := by
  simp only [keys, holders, List.map_flatMap, List.map_map]
  rfl

/-- **The keys are in the order of key groups, and of their bytes within one.** -/
theorem pairwise_holders (ns : Bytes) : (t.holders ns).Pairwise Precedes := by
  rw [holders, List.pairwise_flatMap]
  constructor
  · rintro ⟨g, keys⟩ -
    rw [List.pairwise_map]
    apply List.Pairwise.filter
    apply (ExtTreeMap.ordered_keys_toList (t := keys)).imp
    intro x y less
    exact .inr ⟨rfl, less⟩
  · apply (ExtTreeMap.ordered_keys_toList (t := t.groups)).imp
    rintro ⟨g, keys⟩ ⟨g', keys'⟩ less x hx y hy
    obtain ⟨_, -, rfl⟩ := List.mem_map.1 hx
    obtain ⟨_, -, rfl⟩ := List.mem_map.1 hy
    left
    exact Std.compare_eq_lt.1 less

/-- **The keys of a namespace are those that hold something in it.** -/
theorem Pruned.mem_holders {t : Table} (pruned : t.Pruned) {ns key : Bytes} {g : KeyGroup} :
    (g, key) ∈ t.holders ns ↔ t.slot ⟨g, key, ns⟩ ≠ .empty := by
  rw [pruned.slot_ne_empty_iff]
  simp only [holders, List.mem_flatMap, List.mem_map, List.mem_filter, Prod.exists,
    ExtTreeMap.mem_toList_iff_getElem?_eq_some, ← ExtTreeMap.isSome_getElem?_eq_contains,
    Option.isSome_iff_exists, Prod.mk.injEq]
  constructor
  · rintro ⟨_, cs, hcs, _, m, ⟨hm, kept⟩, rfl, rfl⟩
    exact ⟨cs, hcs, m, hm, kept⟩
  · rintro ⟨cs, hcs, m, hm, kept⟩
    exact ⟨g, cs, hcs, key, m, ⟨hm, kept⟩, rfl, rfl⟩

/-! ## The slots that are counted -/

/-- The addresses of the slots that are kept. -/
def addresses : List SlotAddress :=
  t.groups.toList.flatMap fun (g, keys) =>
    keys.toList.flatMap fun (key, namespaces) =>
      namespaces.toList.map fun (ns, _) => ⟨g, key, ns⟩

/-- The size counts the slots that are kept. -/
theorem length_addresses : t.addresses.length = t.size := by
  simp only [addresses, size, List.length_flatMap, List.length_map, ExtTreeMap.length_toList]

/-- No slot is counted twice. -/
theorem nodup_addresses : t.addresses.Nodup := by
  -- at each level the keys are distinct, and an address has one of each
  have distinct : ∀ {x y : Bytes}, compare x y = .lt → x ≠ y := by
    rintro x _ less rfl
    simp at less
  rw [addresses, List.Nodup, List.pairwise_flatMap]
  constructor
  · rintro ⟨g, keys⟩ -
    rw [List.pairwise_flatMap]
    constructor
    · rintro ⟨key, namespaces⟩ -
      rw [List.pairwise_map]
      apply (ExtTreeMap.ordered_keys_toList (t := namespaces)).imp
      intro x y less same
      exact distinct less (congrArg SlotAddress.ns same)
    · apply (ExtTreeMap.ordered_keys_toList (t := keys)).imp
      rintro ⟨key, m⟩ ⟨key', m'⟩ less a ha b hb same
      obtain ⟨_, -, rfl⟩ := List.mem_map.1 ha
      obtain ⟨_, -, rfl⟩ := List.mem_map.1 hb
      exact distinct less (congrArg SlotAddress.key same)
  · apply (ExtTreeMap.ordered_keys_toList (t := t.groups)).imp
    rintro ⟨g, keys⟩ ⟨g', keys'⟩ less a ha b hb same
    simp only [List.mem_flatMap, List.mem_map] at ha hb
    obtain ⟨_, -, _, -, rfl⟩ := ha
    obtain ⟨_, -, _, -, rfl⟩ := hb
    have groups := congrArg SlotAddress.group same
    rw [show g = g' from groups] at less
    simp at less

/-- **The slots that are counted are those that hold something.** -/
theorem Pruned.mem_addresses {t : Table} (pruned : t.Pruned) {a : SlotAddress} :
    a ∈ t.addresses ↔ t.slot a ≠ .empty := by
  rw [pruned.slot_ne_empty_iff]
  simp only [addresses, List.mem_flatMap, List.mem_map, Prod.exists,
    ExtTreeMap.mem_toList_iff_getElem?_eq_some]
  constructor
  · rintro ⟨g, cs, hcs, key, m, hm, ns, s, hs, rfl⟩
    exact ⟨cs, hcs, m, hm, s, hs⟩
  · rintro ⟨cs, hcs, m, hm, s, hs⟩
    exact ⟨a.group, cs, hcs, a.key, m, hm, a.ns, s, hs, rfl⟩

end Table

/-! ## Slots that hold something -/

namespace Slot

/-- A slot holds something exactly if something can be got from it. -/
theorem ne_empty_iff {s : Slot} : s ≠ empty ↔ ∃ userKey value, s.get userKey = some value := by
  constructor
  · intro holds
    by_contra nothing
    push Not at nothing
    obtain ⟨value, entries⟩ := s
    apply holds
    have no_value : value = none := by
      cases value with
      | none => rfl
      | some v => exact absurd rfl (nothing none v)
    have no_entries : entries = ∅ := by
      by_contra some_entry
      obtain ⟨k, v, there⟩ := exists_getElem?_of_ne_empty some_entry
      exact nothing (some k) v there
    rw [no_value, no_entries, empty]
  · rintro ⟨userKey, value, there⟩ rfl
    rw [get_empty] at there
    cases there

end Slot

end KeyedState
