import KeyedState.KeyGroup.Range

/-!
# Ranges as sets of key groups

A range stands for the set of the key groups that it contains. Iteration goes through them in
ascending order, also where it is done in 32-bit words and ends at the last word there is
(`Cursor.walk_start`); their number is capped at the largest word (`toNat_count`).

An intersection stands for the intersection of the sets (`contains_intersection`) and is no empty
range but the canonical one (`canonical_intersection`). Canonical ranges are told apart by what they
contain (`Canonical.ext`), so that the laws of sets are laws of ranges.

Main statement: `ranges_form_set_algebra`.
-/

namespace KeyedState.KeyGroupRange

variable {r s : KeyGroupRange} {g : KeyGroup}

/-! ## What a range contains -/

theorem contains_iff : r.contains g = true ↔ r.first ≤ g ∧ g ≤ r.last := by
  rw [contains, Bool.and_eq_true, decide_eq_true_eq, decide_eq_true_eq]

theorem isEmpty_iff : r.isEmpty = true ↔ r.last < r.first := decide_eq_true_iff

theorem isEmpty_eq_false_iff : r.isEmpty = false ↔ r.first ≤ r.last := by
  rw [isEmpty, decide_eq_false_iff_not, UInt32.not_lt]

theorem contains_first (ordered : r.first ≤ r.last) : r.contains r.first = true :=
  contains_iff.2 ⟨UInt32.le_refl _, ordered⟩

theorem contains_last (ordered : r.first ≤ r.last) : r.contains r.last = true :=
  contains_iff.2 ⟨ordered, UInt32.le_refl _⟩

/-- A range that contains a key group has its bounds in order. -/
theorem ordered_of_contains (contained : r.contains g = true) : r.first ≤ r.last := by
  obtain ⟨above, below⟩ := contains_iff.1 contained
  exact UInt32.le_trans above below

/-- A range is empty if and only if it contains no key group. -/
theorem isEmpty_iff_forall : r.isEmpty = true ↔ ∀ g, r.contains g = false := by
  constructor
  · intro void g
    rw [Bool.eq_false_iff]
    intro contained
    rw [isEmpty_eq_false_iff.2 (ordered_of_contains contained)] at void
    exact Bool.false_ne_true void
  · intro void
    rw [isEmpty_iff, ← UInt32.not_le]
    intro ordered
    exact Bool.false_ne_true ((void r.first).symm.trans (contains_first ordered))

/-! ## Iteration -/

theorem length_toList (r : KeyGroupRange) : r.toList.length = r.size := by
  rw [toList, List.length_map, List.length_range']

/-- The groups come in strictly ascending order. -/
theorem pairwise_toList (r : KeyGroupRange) : r.toList.Pairwise (· < ·) := by
  rw [toList, List.pairwise_map]
  refine (List.pairwise_lt_range' 1 (by decide)).imp_of_mem fun {m n} hm hn less => ?_
  have := r.last.toNat_lt
  simp only [List.mem_range'_1, size] at hm hn
  rw [UInt32.lt_iff_toNat_lt, UInt32.toNat_ofNat', UInt32.toNat_ofNat',
    Nat.mod_eq_of_lt (by omega), Nat.mod_eq_of_lt (by omega)]
  exact less

theorem toList_of_isEmpty (void : r.isEmpty = true) : r.toList = [] := by
  have less := UInt32.lt_iff_toNat_lt.1 (isEmpty_iff.1 void)
  have none : r.size = 0 := by
    rw [size]
    omega
  rw [toList, none]
  rfl

/-- The first of several groups, and the others behind it. -/
theorem toList_of_lt {first last : KeyGroup} (less : first < last) :
    toList ⟨first, last⟩ = first :: toList ⟨first + 1, last⟩ := by
  have less := UInt32.lt_iff_toNat_lt.1 less
  have := last.toNat_lt
  have next : (first + 1).toNat = first.toNat + 1 := by
    rw [UInt32.toNat_add]
    exact Nat.mod_eq_of_lt (by simp only [UInt32.toNat_one]; omega)
  have more : last.toNat + 1 - first.toNat = (last.toNat + 1 - (first.toNat + 1)) + 1 := by omega
  simp only [toList, size, next]
  rw [more, List.range'_succ, List.map_cons, UInt32.ofNat_toNat]

theorem toList_self (g : KeyGroup) : toList ⟨g, g⟩ = [g] := by
  have one : g.toNat + 1 - g.toNat = 1 := by omega
  simp only [toList, size, one, List.range'_one, List.map_singleton, UInt32.ofNat_toNat]

/-- Where an iteration stands: before a group, which is to be the next one, or behind the last one.
What comes after the last word there is, no word can say. -/
structure Cursor where
  next : KeyGroup
  last : KeyGroup
  finished : Bool

/-- An iteration that has not begun. -/
def start (r : KeyGroupRange) : Cursor := ⟨r.first, r.last, false⟩

namespace Cursor

/-- The next group, if there is one, and where the iteration stands after it. -/
def advance (c : Cursor) : Option (KeyGroup × Cursor) :=
  if c.finished || c.last < c.next then none
  else if c.next < c.last then some (c.next, { c with next := c.next + 1 })
  else some (c.next, { c with finished := true })

/-- At most `n` groups from where the iteration stands. -/
def walk : Nat → Cursor → List KeyGroup
  | 0, _ => []
  | n + 1, c =>
    match c.advance with
    | none => []
    | some (g, c) => g :: walk n c

theorem walk_of_finished (n : Nat) (next last : KeyGroup) : walk n ⟨next, last, true⟩ = [] := by
  cases n <;> rfl

/-- Step by step the same groups come in the same order, and no step leaves the words. -/
theorem walk_start (n : Nat) (r : KeyGroupRange) : r.start.walk n = r.toList.take n := by
  obtain ⟨first, last⟩ := r
  induction n generalizing first with
  | zero => rfl
  | succ n ih =>
    rw [start, walk, advance, Bool.false_or]
    by_cases void : last < first
    · rw [decide_eq_true void, if_pos rfl, toList_of_isEmpty (isEmpty_iff.2 void)]
      rfl
    rw [decide_eq_false void, if_neg Bool.false_ne_true]
    by_cases less : first < last
    · rw [if_pos less, toList_of_lt less, List.take_succ_cons]
      exact congrArg (first :: ·) (ih (first + 1))
    · -- the last group is not counted up
      obtain rfl : first = last := UInt32.le_antisymm (UInt32.not_lt.1 void) (UInt32.not_lt.1 less)
      rw [if_neg less, toList_self]
      dsimp only
      rw [walk_of_finished, List.take_succ_cons, List.take_nil]

/-- The last three words are walked to their end. -/
example : (start ⟨0xFFFFFFFD, 0xFFFFFFFF⟩).walk 5 = [0xFFFFFFFD, 0xFFFFFFFE, 0xFFFFFFFF] := by
  decide

end Cursor

/-! ## Number of key groups -/

/-- The number of groups as a word is the number of groups, or else the largest word. -/
theorem toNat_count (r : KeyGroupRange) : r.count.toNat = min r.size (2 ^ 32 - 1) := by
  have := r.last.toNat_lt
  rw [count, size]
  by_cases ordered : r.first ≤ r.last
  · have order := UInt32.le_iff_toNat_le.1 ordered
    have span : (r.last - r.first).toNat = r.last.toNat - r.first.toNat :=
      UInt32.toNat_sub_of_le _ _ ordered
    have succ : (r.last - r.first + 1).toNat = (r.last.toNat - r.first.toNat + 1) % 2 ^ 32 := by
      rw [UInt32.toNat_add, span, UInt32.toNat_one]
    rw [isEmpty_eq_false_iff.2 ordered, if_neg Bool.false_ne_true]
    -- one more than the span is no word if the span is the largest word
    by_cases whole : r.last.toNat - r.first.toNat + 1 = 2 ^ 32
    · rw [whole, Nat.mod_self] at succ
      rw [if_pos (by rw [UInt32.lt_iff_toNat_lt]; omega), span]
      omega
    · rw [Nat.mod_eq_of_lt (by omega)] at succ
      rw [if_neg (by rw [UInt32.lt_iff_toNat_lt]; omega), succ]
      omega
  · have less := UInt32.lt_iff_toNat_lt.1 (UInt32.not_le.1 ordered)
    rw [isEmpty_iff.2 (UInt32.not_le.1 ordered), if_pos rfl, UInt32.toNat_zero]
    omega

/-- There are more groups than the largest word only in the range of all words. -/
theorem lt_size_iff : 2 ^ 32 - 1 < r.size ↔ r = ⟨0, 0xFFFFFFFF⟩ := by
  have := r.last.toNat_lt
  rw [size]
  constructor
  · intro many
    have lowest : r.first.toNat = (0 : UInt32).toNat := by
      rw [UInt32.toNat_zero]
      omega
    have highest : r.last.toNat = (0xFFFFFFFF : UInt32).toNat := by
      show _ = 2 ^ 32 - 1
      omega
    rw [← UInt32.toNat_inj.1 lowest, ← UInt32.toNat_inj.1 highest]
  · rintro rfl
    decide

/-! ## Intersections -/

/-- A range contains a key group, or it is the canonical empty one. -/
def Canonical (r : KeyGroupRange) : Prop := r.isEmpty = true → r = .empty

/-- Canonical ranges that contain the same key groups are the same. -/
theorem Canonical.ext (hr : r.Canonical) (hs : s.Canonical)
    (same : ∀ g, r.contains g = s.contains g) : r = s := by
  by_cases void : r.isEmpty = true
  · have void' : s.isEmpty = true := isEmpty_iff_forall.2 fun g =>
      (same g).symm.trans (isEmpty_iff_forall.1 void g)
    rw [hr void, hs void']
  · -- each of the ranges contains the bounds of the other one
    have ordered := isEmpty_eq_false_iff.1 (Bool.eq_false_iff.2 void)
    have first := contains_iff.1 ((same r.first).symm.trans (contains_first ordered))
    have last := contains_iff.1 ((same r.last).symm.trans (contains_last ordered))
    have ordered' : s.first ≤ s.last := UInt32.le_trans first.1 first.2
    have first' := contains_iff.1 ((same s.first).trans (contains_first ordered'))
    have last' := contains_iff.1 ((same s.last).trans (contains_last ordered'))
    obtain ⟨a, b⟩ := r
    obtain ⟨c, d⟩ := s
    obtain rfl : a = c := UInt32.le_antisymm first'.1 first.1
    obtain rfl : b = d := UInt32.le_antisymm last.2 last'.2
    rfl

theorem canonical_of_not_isEmpty (filled : r.isEmpty = false) : r.Canonical := by
  intro void
  rw [filled] at void
  cases void

/-- The later one of two groups. -/
def later (a b : KeyGroup) : KeyGroup := if a < b then b else a

/-- The earlier one of two groups. -/
def earlier (a b : KeyGroup) : KeyGroup := if b < a then b else a

/-- A group is not before the later one of two if it is before neither. -/
theorem later_le_iff {a b : KeyGroup} : later a b ≤ g ↔ a ≤ g ∧ b ≤ g := by
  rw [later]
  split
  · next less =>
    exact ⟨fun le => ⟨UInt32.le_trans (UInt32.le_of_lt less) le, le⟩, And.right⟩
  · next le =>
    exact ⟨fun le' => ⟨le', UInt32.le_trans (UInt32.not_lt.1 le) le'⟩, And.left⟩

/-- A group is not behind the earlier one of two if it is behind neither. -/
theorem le_earlier_iff {a b : KeyGroup} : g ≤ earlier a b ↔ g ≤ a ∧ g ≤ b := by
  rw [earlier]
  split
  · next less =>
    exact ⟨fun le => ⟨UInt32.le_trans le (UInt32.le_of_lt less), le⟩, And.right⟩
  · next le =>
    exact ⟨fun le' => ⟨le', UInt32.le_trans le' (UInt32.not_lt.1 le)⟩, And.left⟩

theorem intersection_eq (r s : KeyGroupRange) :
    r.intersection s =
      if later r.first s.first ≤ earlier r.last s.last then
        ⟨later r.first s.first, earlier r.last s.last⟩
      else empty :=
  rfl

theorem canonical_intersection (r s : KeyGroupRange) : (r.intersection s).Canonical := by
  rw [intersection_eq]
  split
  · next ordered => exact canonical_of_not_isEmpty (isEmpty_eq_false_iff.2 ordered)
  · exact fun _ => rfl

/-- An intersection contains what both ranges contain. -/
theorem contains_intersection (r s : KeyGroupRange) (g : KeyGroup) :
    (r.intersection s).contains g = true ↔ r.contains g = true ∧ s.contains g = true := by
  have within : later r.first s.first ≤ g ∧ g ≤ earlier r.last s.last ↔
      r.contains g = true ∧ s.contains g = true := by
    rw [later_le_iff, le_earlier_iff, and_and_and_comm, contains_iff, contains_iff]
  rw [← within, intersection_eq]
  split
  · exact contains_iff
  · next apart =>
    -- no group stands between bounds that are not in order
    refine iff_of_false (fun contained => ?_) fun ⟨above, below⟩ => ?_
    · exact absurd (ordered_of_contains contained) (by decide)
    · exact apart (UInt32.le_trans above below)

theorem intersection_comm (r s : KeyGroupRange) : r.intersection s = s.intersection r := by
  apply (canonical_intersection r s).ext (canonical_intersection s r)
  intro g
  rw [Bool.eq_iff_iff, contains_intersection, contains_intersection, and_comm]

theorem intersection_assoc (r s t : KeyGroupRange) :
    (r.intersection s).intersection t = r.intersection (s.intersection t) := by
  apply (canonical_intersection _ t).ext (canonical_intersection r _)
  intro g
  rw [Bool.eq_iff_iff]
  simp only [contains_intersection, and_assoc]

theorem intersection_self (canonical : r.Canonical) : r.intersection r = r := by
  apply (canonical_intersection r r).ext canonical
  intro g
  rw [Bool.eq_iff_iff, contains_intersection, and_self]

/-- **Ranges are sets of key groups.** Iteration yields exactly what a range contains, in ascending
order and without leaving the 32-bit words; the number of groups is capped at the largest word,
which only the range of all words exceeds; and a range is empty if it contains nothing. An
intersection contains what both ranges contain, in whichever order and grouping, with nothing
changed where a range that is not empty meets itself, and where it is empty it is the canonical
empty range. -/
theorem ranges_form_set_algebra :
    (∀ r : KeyGroupRange,
      (∀ n, r.start.walk n = r.toList.take n) ∧
      r.toList.Pairwise (· < ·) ∧
      (∀ g, g ∈ r.toList ↔ r.contains g = true) ∧
      r.count.toNat = min r.toList.length (2 ^ 32 - 1) ∧
      (2 ^ 32 - 1 < r.toList.length ↔ r = ⟨0, 0xFFFFFFFF⟩) ∧
      (r.isEmpty = true ↔ ∀ g, r.contains g = false)) ∧
    (∀ r s : KeyGroupRange,
      (∀ g, (r.intersection s).contains g = true ↔ r.contains g = true ∧ s.contains g = true) ∧
      r.intersection s = s.intersection r ∧
      ((r.intersection s).isEmpty = true → r.intersection s = .empty) ∧
      ((r.intersection s).isEmpty = false → (r.intersection s).first ≤ (r.intersection s).last)) ∧
    (∀ r s t : KeyGroupRange,
      (r.intersection s).intersection t = r.intersection (s.intersection t)) ∧
    ∀ r : KeyGroupRange, r.isEmpty = false → r.intersection r = r := by
  refine ⟨fun r => ?_, fun r s => ?_, intersection_assoc,
    fun r filled => intersection_self (canonical_of_not_isEmpty filled)⟩
  · rw [length_toList]
    exact ⟨fun n => Cursor.walk_start n r, pairwise_toList r, fun g => mem_toList, toNat_count r,
      lt_size_iff, isEmpty_iff_forall⟩
  · exact ⟨contains_intersection r s, intersection_comm r s, canonical_intersection r s,
      isEmpty_eq_false_iff.1⟩

end KeyedState.KeyGroupRange
