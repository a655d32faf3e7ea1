import KeyedState.Backend.Iteration
import KeyedState.Proofs.Action

/-!
# Sequences of keys in use

A storage hands out sequences of keys and takes them back. In between a sequence is in use
(`Storage.InUse`): it has a number that no sequence in use had before (`Storage.HandsOut`), and no
other sequence is touched when it is handed out or taken back (`Storage.inUse_takeBack`). A heap
hands out copies, of which it knows nothing.

A backend lists keys by reading a sequence to its end (`Backend.perform_keysOf`). An iteration holds
its sequence while the state is opened and the function is called, and gives it back on every path
(`Backend.run_applyToAllKeys`).
-/

namespace KeyedState

namespace Storage

variable {storage : Storage} {name : String} {ns : Bytes} {n : Nat}

/-- The sequence of a number was handed out and has not been given back. -/
def InUse (storage : Storage) (n : Nat) : Prop :=
  n < storage.handedOut ∧ n ∉ storage.givenBack

instance (storage : Storage) (n : Nat) : Decidable (storage.InUse n) :=
  inferInstanceAs (Decidable (_ ∧ _))

/-- Opening a table has nothing to do with sequences. -/
theorem openTable_sequences (name : String) (kind : StateKind) (storage : Storage) :
    ((openTable name kind).perform storage).2.handedOut = storage.handedOut ∧
      ((openTable name kind).perform storage).2.givenBack = storage.givenBack := by
  cases storage with
  | heap h =>
    rw [openTable, Action.perform_of]
    dsimp only
    cases h.openTable name kind with
    | error e => exact ⟨rfl, rfl⟩
    | ok h' => exact ⟨rfl, rfl⟩
  | scripted s => exact ⟨rfl, rfl⟩

/-! ## Handing out -/

/-- A sequence is handed out. Its number is a new one, and it is in use along with those that were
in use before. Only a heap hands out copies, and it stays as it is. -/
structure HandsOut (storage : Storage) (number : Option Nat) (after : Storage) : Prop where
  new : ∀ n, number = some n → ¬ storage.InUse n
  inUse : ∀ n, after.InUse n ↔ storage.InUse n ∨ number = some n
  givenBack : after.givenBack = storage.givenBack
  copy : number = none ↔ ∃ h, storage = .heap h
  heap : ∀ h, after = .heap h ↔ storage = .heap h

/-- What a scripted storage hands out has the next number. -/
theorem handsOut_next {s s' : ScriptedStorage} (next : s'.handedOut = s.handedOut + 1)
    (same : s'.givenBack = s.givenBack) : (scripted s).HandsOut (some s.handedOut) (scripted s') where
  new := by
    rintro _ ⟨⟩ ⟨out, -⟩
    exact Nat.lt_irrefl _ out
  inUse n := by
    show n < s'.handedOut ∧ n ∉ s'.givenBack ↔ (n < s.handedOut ∧ n ∉ s.givenBack) ∨ _
    rw [next, same, Option.some.injEq]
    constructor
    · rintro ⟨out, kept⟩
      exact (Nat.lt_succ_iff_lt_or_eq.1 out).imp (fun before => ⟨before, kept⟩) Eq.symm
    · rintro (⟨out, kept⟩ | rfl)
      · exact ⟨Nat.lt_succ_of_lt out, kept⟩
      · exact ⟨Nat.lt_succ_self _, fun given => Nat.lt_irrefl _ (s.givenBack_lt _ given)⟩
  givenBack := same
  copy := iff_of_false (fun none => nomatch none) fun ⟨_, held⟩ => nomatch held
  heap _ := iff_of_false (fun held => nomatch held) fun held => nomatch held

/-- A sequence is handed out, or nothing happens. -/
theorem handOut_cases (name : String) (ns : Bytes) (storage : Storage) :
    (∃ e, (handOut name ns).perform storage = (.error e, storage)) ∨
      ∃ handed after, (handOut name ns).perform storage = (.ok handed, after) ∧
        storage.HandsOut handed.number after := by
  cases storage with
  | heap h =>
    refine .inr ⟨_, _, rfl, ⟨nofun, fun n => ?_, rfl, ?_, fun _ => Iff.rfl⟩⟩
    · exact ⟨.inl, fun used => used.resolve_right fun copy => nomatch copy⟩
    · exact iff_of_true rfl ⟨h, rfl⟩
  | scripted s =>
    rw [handOut, Action.perform_of]
    dsimp only
    rw [ScriptedStorage.handOut, Action.perform_of]
    by_cases fails : s.failsToList = true
    · rw [if_pos fails]
      exact .inl ⟨_, rfl⟩
    · rw [if_neg fails]
      exact .inr ⟨_, _, rfl, handsOut_next rfl rfl⟩

/-- If no sequence is handed out nothing happens. -/
theorem eq_of_handOut_refused {e : StateError} {after : Storage}
    (refused : (handOut name ns).perform storage = (.error e, after)) : after = storage := by
  rcases handOut_cases name ns storage with ⟨e', same⟩ | ⟨handed, after', listed, -⟩
  · exact (congrArg Prod.snd (refused.symm.trans same))
  · cases listed.symm.trans refused

theorem handsOut_of_handOut {handed : KeySequence Bytes} {after : Storage}
    (listed : (handOut name ns).perform storage = (.ok handed, after)) :
    storage.HandsOut handed.number after := by
  rcases handOut_cases name ns storage with ⟨e, refused⟩ | ⟨handed', after', listed', handsOut⟩
  · cases refused.symm.trans listed
  · cases listed'.symm.trans listed
    exact handsOut

/-! ## Taking back -/

/-- Only the one sequence is in use no longer. -/
theorem inUse_takeBack (storage : Storage) (n m : Nat) :
    (storage.takeBack (some n)).InUse m ↔ storage.InUse m ∧ m ≠ n := by
  cases storage with
  | heap h => exact iff_of_false (fun used => nomatch used.1) fun both => nomatch both.1.1
  | scripted s =>
    show (scripted (s.takeBack n)).InUse m ↔ (m < s.handedOut ∧ m ∉ s.givenBack) ∧ m ≠ n
    rw [ScriptedStorage.takeBack]
    by_cases out : n < s.handedOut
    · rw [dif_pos out]
      show m < s.handedOut ∧ m ∉ s.givenBack ++ [n] ↔ _
      rw [List.mem_append, List.mem_singleton, not_or, and_assoc]
    · rw [dif_neg out]
      refine ⟨fun used => ⟨used, ?_⟩, And.left⟩
      rintro rfl
      exact out used.1

/-- A sequence in use is taken back. -/
theorem givenBack_takeBack (used : storage.InUse n) :
    (storage.takeBack (some n)).givenBack = storage.givenBack ++ [n] := by
  cases storage with
  | heap h => exact nomatch used.1
  | scripted s =>
    have out : n < s.handedOut := used.1
    show (s.takeBack n).givenBack = _
    rw [ScriptedStorage.takeBack, dif_pos out]
    rfl

theorem takeBack_eq_heap_iff (number : Option Nat) (h : HeapStorage) :
    storage.takeBack number = .heap h ↔ storage = .heap h := by
  rcases number with - | n
  · exact Iff.rfl
  · cases storage with
    | heap _ => exact Iff.rfl
    | scripted _ => exact iff_of_false (fun held => nomatch held) fun held => nomatch held

end Storage

namespace Backend

/-! ## Giving a sequence back -/

section

variable {keys : Schema} {α : Type} {b : Backend keys} {handed : KeySequence α}

/-- The sequence is not in use any more. -/
theorem not_inUse_giveBack (b : Backend keys) {n : Nat} (number : handed.number = some n) :
    ¬ (b.giveBack handed).storage.InUse n := by
  rw [giveBack, number]
  exact fun used => ((b.storage.inUse_takeBack n n).1 used).2 rfl

/-- Another sequence stays in use. -/
theorem inUse_giveBack {n : Nat} (used : b.storage.InUse n) (other : handed.number ≠ some n) :
    (b.giveBack handed).storage.InUse n := by
  rw [giveBack]
  cases number : handed.number with
  | none => exact used
  | some m => exact (b.storage.inUse_takeBack m n).2 ⟨used, fun same => other (same ▸ number)⟩

theorem givenBack_giveBack (used : ∀ n, handed.number = some n → b.storage.InUse n) :
    (b.giveBack handed).storage.givenBack = b.storage.givenBack ++ handed.number.toList := by
  rw [giveBack]
  cases number : handed.number with
  | none => exact (List.append_nil _).symm
  | some n => exact Storage.givenBack_takeBack (used n number)

end

/-! ## Listing keys -/

variable {keys : Schema} {α : Type} {b b' : Backend keys} {d : Descriptor} {name : String}
  {namespaces : NamespaceType} {ns : namespaces.schema.Val} {handed : KeySequence keys.Val}
  {e : StateError}

/-- The keys of a name in a namespace are what the storage hands out, read one by one. -/
theorem perform_sequenceOf {serializer : Serializer keys.Val}
    (configured : b.context.serializer = some serializer) {bytes : Bytes}
    (written : namespaces.serializer.serialize ns = .ok bytes) (name : String) :
    (sequenceOf name namespaces ns).perform b =
      (((Storage.handOut name bytes).perform b.storage).1.map (·.bind serializer.deserialize),
        { b with storage := ((Storage.handOut name bytes).perform b.storage).2 }) := by
  have known : b.keySerializer = .ok serializer := by rw [keySerializer, configured]
  rw [sequenceOf, Action.perform_bind_ok (Action.perform_get b), known,
    Action.perform_bind_ok (Action.perform_lift _ _), written,
    Action.perform_bind_ok (Action.perform_lift _ _), Action.perform_bind, Action.perform_within]
  dsimp only [storagePart]
  rcases (Storage.handOut name bytes).perform b.storage with ⟨e | handed, storage⟩ <;> rfl

/-- A sequence of keys is handed out, or nothing happens. -/
theorem perform_sequenceOf_cases (name : String) (namespaces : NamespaceType)
    (ns : namespaces.schema.Val) (b : Backend keys) :
    (∃ e, (sequenceOf name namespaces ns).perform b = (.error e, b)) ∨
      ∃ handed storage, (sequenceOf name namespaces ns).perform b = (.ok handed, { b with storage }) ∧
        b.storage.HandsOut handed.number storage := by
  rw [sequenceOf, Action.perform_bind_ok (Action.perform_get b)]
  cases b.keySerializer with
  | error e => exact .inl ⟨e, Action.perform_bind_error (Action.perform_lift _ _) _⟩
  | ok serializer =>
    rw [Action.perform_bind_ok (Action.perform_lift _ _)]
    cases namespaces.serializer.serialize ns with
    | error e => exact .inl ⟨e, Action.perform_bind_error (Action.perform_lift _ _) _⟩
    | ok bytes =>
      rw [Action.perform_bind_ok (Action.perform_lift _ _), Action.perform_bind,
        Action.perform_within]
      dsimp only [storagePart]
      rcases b.storage.handOut_cases name bytes with
        ⟨e, refused⟩ | ⟨handed, storage, listed, handsOut⟩
      · rw [refused]
        exact .inl ⟨e, rfl⟩
      · rw [listed]
        exact .inr ⟨handed.bind serializer.deserialize, storage, rfl, handsOut⟩

/-- Keys are listed from a sequence that is given back. -/
theorem perform_keysOf (listing : (sequenceOf name namespaces ns).perform b = (.ok handed, b')) :
    (keysOf name namespaces ns).perform b = (.ok handed.items, b'.giveBack handed) := by
  rw [keysOf, Action.perform_bind_ok listing, Action.perform_bind_ok (Action.perform_modify _ _)]
  rfl

/-- Keys are not listed if there is no sequence of them. -/
theorem perform_keysOf_refused (refused : (sequenceOf name namespaces ns).perform b = (.error e, b')) :
    (keysOf name namespaces ns).perform b = (.error e, b') := by
  rw [keysOf]
  exact Action.perform_bind_error refused _

/-- The keys that are listed over a heap are a copy. -/
theorem perform_sequenceOf_of_keysOf {h : HeapStorage} (held : b.storage = .heap h)
    {found : List (Except StateError keys.Val)}
    (listing : (keysOf name namespaces ns).perform b = (.ok found, b')) :
    (sequenceOf name namespaces ns).perform b = (.ok ⟨found, none⟩, b) := by
  rcases perform_sequenceOf_cases name namespaces ns b with
    ⟨e, refused⟩ | ⟨⟨items, number⟩, storage, listed, handsOut⟩
  · rw [perform_keysOf_refused refused] at listing
    cases listing
  · obtain rfl : number = none := handsOut.copy.2 ⟨h, held⟩
    obtain rfl : storage = b.storage := ((handsOut.heap h).2 held).trans held.symm
    rw [perform_keysOf listed] at listing
    cases listing
    exact listed

/-! ## Iterations -/

/-- The state is asked for in the namespace, and the function is called with what is given. -/
theorem run_visitAll (f : KeyFunction keys α) (found : List (Except StateError keys.Val))
    (b : Backend keys) (d : Descriptor) :
    (visitAll namespaces ns f found).run (b, d) =
      match (getPartitioned namespaces ns).perform (b, d) with
      | (.error e, s) => (⟨[], .error e⟩, s)
      | (.ok id, b', d') =>
        (((visit f id found []).run b').1, ((visit f id found []).run b').2, d') := by
  simp only [visitAll, StateT.run_bind, Action.perform]
  rcases (getPartitioned namespaces ns).run.run (b, d) with ⟨e | id, s⟩
  · rfl
  · rfl

/-- The keys are handed out before the state is opened, and given back in the end, whatever the end
is. -/
theorem run_applyToAllKeys
    (listing : (sequenceOf d.name namespaces ns).perform b = (.ok handed, b'))
    (f : KeyFunction keys α) :
    (applyToAllKeys namespaces ns f).run (b, d) =
      let visited := (visitAll namespaces ns f handed.items).run (b', d)
      (visited.1, visited.2.1.giveBack handed, visited.2.2) := by
  have looked : ((sequenceOf d.name namespaces ns).within backendPart).perform (b, d) =
      (.ok handed, b', d) := by
    rw [Action.perform_within]
    simp only [backendPart, listing]
  rw [Action.perform] at looked
  simp only [applyToAllKeys, StateT.run_bind, StateT.run_get, pure_bind, looked]
  rfl

/-- If there is no sequence of keys the state is not opened. -/
theorem run_applyToAllKeys_refused
    (refused : (sequenceOf d.name namespaces ns).perform b = (.error e, b'))
    (f : KeyFunction keys α) :
    (applyToAllKeys namespaces ns f).run (b, d) = (⟨[], .error e⟩, b', d) := by
  have looked : ((sequenceOf d.name namespaces ns).within backendPart).perform (b, d) =
      (.error e, b', d) := by
    rw [Action.perform_within]
    simp only [backendPart, refused]
  rw [Action.perform] at looked
  simp only [applyToAllKeys, StateT.run_bind, StateT.run_get, pure_bind, looked]
  rfl

end Backend

end KeyedState
