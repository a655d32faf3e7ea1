import KeyedState.Proofs.Storage.Contents

/-!
# Kinds of restored tables

A stream says for each of its tables of which kind it is. It is accepted if none of them differs
from the table of its name that is there already (`HeapStorage.read_eq_ok_iff`). Then the tables are
restored one after the other. The first one of a name settles the kind, where there was no table;
the last one has its slots stored. So a stream that lists a new state at two kinds is accepted, and
slots of one kind get into a table of another one. Such streams are the only ones
(`restores_keep_kinds_iff`).
-/

namespace KeyedState

/-- A state that is listed more than once is listed at one kind. -/
def KeyGroupSnapshot.AtOneKind (s : KeyGroupSnapshot) : Prop :=
  ∀ t ∈ s.tables, ∀ t' ∈ s.tables, t.name = t'.name → t.kind = t'.kind

namespace HeapStorage

variable {h h' : HeapStorage} {g : KeyGroup} {stream rest : Bytes} {s : KeyGroupSnapshot}

/-- No table that is listed differs in its kind from the one of its name that is there. -/
def Fits (h : HeapStorage) (s : KeyGroupSnapshot) : Prop :=
  ∀ t ∈ s.tables, ∀ kind, h.kind? t.name = some kind → kind = t.kind

/-- A stream is accepted if it starts with a snapshot of the key group that fits. -/
theorem read_eq_ok_iff :
    h.read g stream = .ok (h', rest) ↔
      ∃ s, KeyGroupSnapshot.codec.decode stream = some (s, rest) ∧ s.group = g ∧ h.Fits s ∧
        h' = h.restore s := by
  constructor
  · intro read
    obtain ⟨s, decoded, group, kinds, restored⟩ := exists_restore_of_read read
    exact ⟨s, decoded, group, (checkKinds_eq_ok_iff h s.tables).1 kinds, restored⟩
  · rintro ⟨s, decoded, rfl, fits, rfl⟩
    exact read_eq_ok decoded ((checkKinds_eq_ok_iff h s.tables).2 fits)

/-- Only a state without a table can be listed at two kinds. -/
theorem Fits.kind?_eq_none (fits : h.Fits s) {t t' : TableSnapshot} (listed : t ∈ s.tables)
    (listed' : t' ∈ s.tables) (name : t.name = t'.name) (kinds : t.kind ≠ t'.kind) :
    h.kind? t.name = none := by
  by_contra there
  obtain ⟨kind, found⟩ := Option.ne_none_iff_exists'.1 there
  have first : kind = t.kind := fits t listed kind found
  have second : kind = t'.kind := fits t' listed' kind (name ▸ found)
  exact kinds (first.symm.trans second)

/-- The first table of a name settles the kind, and the last one has its slots stored. -/
theorem Fits.restored (fits : h.Fits s) {t : TableSnapshot} (listed : t ∈ s.tables) :
    ∃ first last, s.tables.find? (·.name == t.name) = some first ∧
      s.tables.reverse.find? (·.name == t.name) = some last ∧
      (h.restore s).kind? t.name = some first.kind ∧
      (h.restore s).contents t.name s.group = Table.contentsOf last.slots := by
  have named : ∃ t' ∈ s.tables, (t'.name == t.name) = true := ⟨t, listed, beq_self_eq_true _⟩
  have named' : ∃ t' ∈ s.tables.reverse, (t'.name == t.name) = true :=
    ⟨t, List.mem_reverse.2 listed, beq_self_eq_true _⟩
  obtain ⟨first, found⟩ := Option.isSome_iff_exists.1 (List.find?_isSome.2 named)
  obtain ⟨last, found'⟩ := Option.isSome_iff_exists.1 (List.find?_isSome.2 named')
  refine ⟨first, last, found, found', ?_, ?_⟩
  · rw [kind?_restore, found]
    -- a table that was there has the kind of all that are listed for it
    cases there : h.kind? t.name with
    | none => rfl
    | some kind =>
      have name : first.name = t.name := by simpa using List.find?_some found
      rw [fits first (List.mem_of_find?_eq_some found) kind (name ▸ there)]
      rfl
  · rw [contents_restore, if_pos rfl, found']
    rfl

/-- The tables have the kinds that are listed for them if each state is listed at one kind. -/
theorem Fits.kind?_restore_iff (fits : h.Fits s) :
    (∀ t ∈ s.tables, (h.restore s).kind? t.name = some t.kind) ↔ s.AtOneKind := by
  constructor
  · intro kept t listed t' listed' name
    have kinds := (kept t listed).symm.trans (name ▸ kept t' listed')
    exact Option.some.inj kinds
  · intro same t listed
    obtain ⟨first, -, found, -, kind, -⟩ := fits.restored listed
    have name : first.name = t.name := by simpa using List.find?_some found
    rw [kind, same first (List.mem_of_find?_eq_some found) t listed name]

/-- **A stream is restored at its kinds if and only if it lists no state at two.** It is accepted
whether or not it does so: all that is asked is that it starts with a snapshot of the key group and
that no table of it is of another kind than the one that is there. A state that is listed at two
kinds had no table; the first table of the name settles the kind, and the last one has its slots
stored. -/
theorem restores_keep_kinds_iff (h : HeapStorage) (g : KeyGroup) (stream : Bytes)
    (h' : HeapStorage) (rest : Bytes) :
    h.read g stream = .ok (h', rest) ↔
      ∃ s, KeyGroupSnapshot.codec.decode stream = some (s, rest) ∧ s.group = g ∧ h.Fits s ∧
        h' = h.restore s ∧
        ((∀ t ∈ s.tables, h'.kind? t.name = some t.kind) ↔ s.AtOneKind) ∧
        (∀ t ∈ s.tables, ∀ t' ∈ s.tables, t.name = t'.name → t.kind ≠ t'.kind →
          h.kind? t.name = none) ∧
        ∀ t ∈ s.tables, ∃ first last, s.tables.find? (·.name == t.name) = some first ∧
          s.tables.reverse.find? (·.name == t.name) = some last ∧
            h'.kind? t.name = some first.kind ∧
              h'.contents t.name g = Table.contentsOf last.slots := by
  rw [read_eq_ok_iff]
  constructor
  · rintro ⟨s, decoded, rfl, fits, rfl⟩
    refine ⟨s, decoded, rfl, fits, rfl, fits.kind?_restore_iff, ?_, fun t => fits.restored⟩
    exact fun t listed t' listed' => fits.kind?_eq_none listed listed'
  · rintro ⟨s, decoded, group, fits, restored, -⟩
    exact ⟨s, decoded, group, fits, restored⟩

end HeapStorage

/-- A value and a map of one name. -/
def KeyGroupSnapshot.twoKinds : KeyGroupSnapshot :=
  ⟨3, [⟨"a", .value, [⟨[1], [], some [7], []⟩]⟩, ⟨"a", .map, [⟨[2], [], none, [([5], [6])]⟩]⟩]⟩

/-- Where there are no tables both are accepted. The map gets into a table of values. -/
theorem restores_keep_kinds_iff_twoKinds :
    ∃ h', HeapStorage.empty.read 3 (KeyGroupSnapshot.codec.encode .twoKinds) = .ok (h', []) ∧
      (¬ ∀ t ∈ KeyGroupSnapshot.twoKinds.tables, h'.kind? t.name = some t.kind) ∧
      h'.kind? "a" = some .value ∧
      h'.contents "a" 3 = Table.contentsOf [⟨[2], [], none, [([5], [6])]⟩] := by
  have decoded : KeyGroupSnapshot.codec.decode (KeyGroupSnapshot.codec.encode .twoKinds) =
      some (.twoKinds, []) := by
    decide +kernel
  have fits : HeapStorage.empty.Fits .twoKinds := by
    intro t listed kind found
    simp [HeapStorage.kind?, HeapStorage.empty] at found
  have read := HeapStorage.read_eq_ok_iff.2 ⟨.twoKinds, decoded, rfl, fits, rfl⟩
  refine ⟨_, read, ?_, ?_, ?_⟩
  · obtain ⟨s, decoded', -, -, -, kinds, -⟩ :=
      (HeapStorage.restores_keep_kinds_iff .empty 3 _ _ []).1 read
    obtain rfl : KeyGroupSnapshot.twoKinds = s := by simpa [decoded] using decoded'
    rw [kinds]
    intro same
    have both := same _ List.mem_cons_self _ (List.mem_cons_of_mem _ List.mem_cons_self) rfl
    exact absurd both (by decide)
  · rw [HeapStorage.kind?_restore]
    simp [HeapStorage.kind?, HeapStorage.empty, KeyGroupSnapshot.twoKinds]
  · rw [HeapStorage.contents_restore]
    simp [KeyGroupSnapshot.twoKinds]

end KeyedState
