import KeyedState.Proofs.State.Workspace

/-!
# Looking up the current key over whole runs

A context of the current key is used in any order: keys are set, with or without a group, the group
is changed, and the key is looked up (`KeyUse`). A look-up remembers how the key is written, and
three operations change what it would have to remember. The same uses of a current key with nothing
remembered (`CurrentKey`) say what every look-up is answered with: the context has the same key and
the same group after every use, and what it remembers is right (`KeyContext.Shows`).

Main statement: `KeyContext.lookups_are_fresh`.
-/

namespace KeyedState

variable {keys : Schema}

/-- What a look-up of the current key is answered with. -/
abbrev KeyAnswer := Except StateError KeyCoordinates

/-- A use of the context of the current key. -/
inductive KeyUse (keys : Schema) where
  | setKey (key : keys.Val)
  | setKeyAndGroup (key : keys.Val) (g : KeyGroup)
  | setGroup (g : KeyGroup)
  | lookUp

/-! ## Nothing remembered -/

/-- The key and the group that were made current. -/
structure CurrentKey (keys : Schema) where
  key : Option keys.Val
  group : Option KeyGroup

namespace CurrentKey

/-- Nothing was made current. -/
def unset : CurrentKey keys := ⟨none, none⟩

/-- The group, and the key as the serializer writes it now. -/
def coordinates (serializer : Option (Serializer keys.Val)) (k : CurrentKey keys) : KeyAnswer :=
  match k.group, k.key, serializer with
  | none, _, _ => .error .noCurrentKey
  | _, none, _ => .error .noCurrentKey
  | some _, some _, none => .error .keySerializerUnset
  | some g, some key, some serializer => do return ⟨← serializer.serialize key, g⟩

theorem coordinates_some (serializer : Serializer keys.Val) (key : keys.Val) (g : KeyGroup) :
    coordinates (some serializer) ⟨some key, some g⟩ =
      serializer.serialize key >>= fun bytes => .ok ⟨bytes, g⟩ :=
  rfl

/-- What is current after a use, out of `n` groups. -/
def after (n : UInt32) (k : CurrentKey keys) : KeyUse keys → CurrentKey keys
  | .setKey key => ⟨some key, some (keys.hash key % n)⟩
  | .setKeyAndGroup key g => ⟨some key, some g⟩
  | .setGroup g => { k with group := some g }
  | .lookUp => k

/-- What the look-ups of a run are answered with, in turn. -/
def answers (n : UInt32) (serializer : Option (Serializer keys.Val)) :
    List (KeyUse keys) → CurrentKey keys → List KeyAnswer
  | [], _ => []
  | .lookUp :: rest, k => k.coordinates serializer :: answers n serializer rest k
  | use :: rest, k => answers n serializer rest (k.after n use)

end CurrentKey

/-! ## The context -/

namespace KeyContext

/-- The context after a use, and the answer if the key was looked up. There is no context after it
if a key is set and there are no groups. -/
def use (c : KeyContext keys) : KeyUse keys → Option (Option KeyAnswer × KeyContext keys)
  | .setKey key => (c.setKey? key).map (none, ·)
  | .setKeyAndGroup key g => some (none, c.setKeyAndGroup key g)
  | .setGroup g => some (none, c.setGroup g)
  | .lookUp => some (some (coordinates.perform c).1, (coordinates.perform c).2)

/-- The answers to the look-ups of a run, in turn, and the context after it. -/
def run : List (KeyUse keys) → KeyContext keys → Option (List KeyAnswer × KeyContext keys)
  | [], c => some ([], c)
  | use :: rest, c => do
    let (answer, c) ← c.use use
    let (answers, c) ← run rest c
    return (answer.toList ++ answers, c)

/-- The context, of the given groups and serializer, has what was made current, and what it
remembers is right. -/
structure Shows (n : UInt32) (serializer : Option (Serializer keys.Val)) (k : CurrentKey keys)
    (c : KeyContext keys) : Prop where
  groups : c.groups = n
  serializer : c.serializer = serializer
  key : c.key = k.key
  group : c.group = k.group
  coherent : c.Coherent

/-- A look-up that is refused leaves the context as it is. -/
theorem coordinates_refused {c c' : KeyContext keys} {e : StateError}
    (refused : coordinates.perform c = (.error e, c')) : c' = c := by
  rw [coordinates, Action.perform_of] at refused
  repeat' split at refused
  all_goals cases refused
  all_goals rfl

/-- Where the current key cannot be written there is nothing to look up, and nothing is
remembered. -/
theorem perform_coordinates_unwritten {c : KeyContext keys} (coherent : c.Coherent) {g : KeyGroup}
    (group : c.group = some g) {e : StateError} (unwritten : c.serialize = .error e) :
    coordinates.perform c = (.error e, c) := by
  rw [coordinates, Action.perform_of, group]
  cases remembered : c.serialized with
  | none => simp only [unwritten]
  | some bytes => cases unwritten.symm.trans (coherent bytes remembered)

/-- If there are groups, every key is assigned to one of them. -/
theorem setKey?_eq {c : KeyContext keys} (positive : 0 < c.groups) (key : keys.Val) :
    c.setKey? key = some (c.setKeyAndGroup key (keys.hash key % c.groups)) ∧
      keys.hash key % c.groups < c.groups := by
  have nonzero : c.groups ≠ 0 := fun zero => absurd (zero ▸ positive) (UInt32.lt_irrefl 0)
  refine ⟨?_, UInt32.mod_lt _ positive⟩
  rw [setKey?, KeyGroup.assign?, if_neg nonzero]
  rfl

namespace Shows

variable {n : UInt32} {serializer : Option (Serializer keys.Val)} {k : CurrentKey keys}
  {c : KeyContext keys}

theorem of_empty (n : UInt32) (range : KeyGroupRange) (serializer : Option (Serializer keys.Val)) :
    Shows n serializer .unset (of n range serializer) :=
  ⟨rfl, rfl, rfl, rfl, fun _ remembered => nomatch remembered⟩

/-- A key that is set replaces what was shown, and what was remembered is forgotten with it. -/
theorem setKeyAndGroup (shows : Shows n serializer k c) (key : keys.Val) (g : KeyGroup) :
    Shows n serializer ⟨some key, some g⟩ (c.setKeyAndGroup key g) :=
  ⟨shows.groups, shows.serializer, rfl, rfl, fun _ remembered => nomatch remembered⟩

/-- What is remembered does not depend on the group. -/
theorem setGroup (shows : Shows n serializer k c) (g : KeyGroup) :
    Shows n serializer { k with group := some g } (c.setGroup g) :=
  ⟨shows.groups, shows.serializer, shows.key, rfl, shows.coherent⟩

/-- A look-up is answered as if nothing were remembered. At most it remembers how the current key
is written, which is then right. -/
theorem lookUp (shows : Shows n serializer k c) :
    ∃ c', coordinates.perform c = (k.coordinates serializer, c') ∧ Shows n serializer k c' := by
  obtain ⟨groups, rfl, key, group, coherent⟩ := shows
  obtain ⟨key', group'⟩ := k
  dsimp only at key group
  subst key group
  -- the refused look-ups leave the context as it is
  have same : Shows n c.serializer ⟨c.key, c.group⟩ c := ⟨groups, rfl, rfl, rfl, coherent⟩
  cases group : c.group with
  | none =>
    rw [group] at same
    exact ⟨c, perform_coordinates_none coherent (.inr group), same⟩
  | some g =>
    cases key : c.key with
    | none =>
      rw [group, key] at same
      exact ⟨c, perform_coordinates_none coherent (.inl key), same⟩
    | some key' =>
      rw [group, key] at same
      cases held : c.serializer with
      | none =>
        have unwritten : c.serialize = .error .keySerializerUnset := by rw [serialize, key, held]
        rw [held] at same
        exact ⟨c, perform_coordinates_unwritten coherent group unwritten, same⟩
      | some serializer =>
        have written : c.serialize = serializer.serialize key' := by rw [serialize, key, held]
        rw [held] at same
        cases fresh : serializer.serialize key' with
        | error e =>
          refine ⟨c, ?_, same⟩
          rw [perform_coordinates_unwritten coherent group (written.trans fresh),
            CurrentKey.coordinates_some, fresh]
          rfl
        | ok bytes =>
          refine ⟨{ c with serialized := some bytes }, ?_, groups, held, key, group,
            .remember (written.trans fresh)⟩
          rw [perform_coordinates coherent group (written.trans fresh),
            CurrentKey.coordinates_some, fresh]
          rfl

/-- After a use the context shows what is current then. If the key was looked up, the answer is the
one without anything remembered. -/
theorem use (shows : Shows n serializer k c) (positive : 0 < n) (u : KeyUse keys) :
    ∃ answer c', c.use u = some (answer, c') ∧ Shows n serializer (k.after n u) c' ∧
      answer = match u with
        | .lookUp => some (k.coordinates serializer)
        | _ => none := by
  cases u with
  | setKey key =>
    refine ⟨none, _, ?_, shows.setKeyAndGroup key (keys.hash key % n), rfl⟩
    rw [KeyContext.use, (setKey?_eq (shows.groups.symm ▸ positive) key).1, shows.groups]
    rfl
  | setKeyAndGroup key g => exact ⟨none, _, rfl, shows.setKeyAndGroup key g, rfl⟩
  | setGroup g => exact ⟨none, _, rfl, shows.setGroup g, rfl⟩
  | lookUp =>
    obtain ⟨c', performed, shows'⟩ := shows.lookUp
    exact ⟨_, c', by rw [KeyContext.use, performed], shows', rfl⟩

/-- A run shows what is current after it, and its look-ups are answered as if nothing were
remembered. -/
theorem run (shows : Shows n serializer k c) (positive : 0 < n) (uses : List (KeyUse keys)) :
    ∃ c', KeyContext.run uses c = some (k.answers n serializer uses, c') ∧
      Shows n serializer (uses.foldl (CurrentKey.after n) k) c' := by
  induction uses generalizing k c with
  | nil => exact ⟨c, rfl, shows⟩
  | cons u rest ih =>
    obtain ⟨answer, c', used, shows', answered⟩ := shows.use positive u
    obtain ⟨c'', ran, shows''⟩ := ih shows'
    refine ⟨c'', ?_, shows''⟩
    rw [KeyContext.run, used]
    simp only [Option.bind_eq_bind, Option.bind_some, ran]
    cases u <;> rw [answered] <;> rfl

end Shows

/-- **What is remembered of the current key is never stale.** A context of at least one group and
of any serializer is used in any order. Its look-ups are answered as if nothing were remembered: with
the current group and the current key as it is written at that moment, or with the error of writing
it, or refused if there is no group or no key. A look-up that is refused leaves the context as it
is. A key that is set is assigned to the group that its hash says, and is looked up in it. -/
theorem lookups_are_fresh {n : UInt32} (positive : 0 < n) (range : KeyGroupRange)
    (serializer : Option (Serializer keys.Val)) (uses : List (KeyUse keys)) :
    ∃ c, run uses (.of n range serializer) = some (CurrentKey.unset.answers n serializer uses, c) ∧
      (∀ e c', coordinates.perform c = (.error e, c') → c' = c) ∧
      ∀ key, ∃ c', c.setKey? key = some c' ∧ c'.group = some (keys.hash key % n) ∧
        keys.hash key % n < n ∧
        (coordinates.perform c').1 =
          CurrentKey.coordinates serializer ⟨some key, some (keys.hash key % n)⟩ := by
  obtain ⟨c, ran, shows⟩ := (Shows.of_empty n range serializer).run positive uses
  refine ⟨c, ran, fun e c' refused => coordinates_refused refused, fun key => ?_⟩
  obtain ⟨set, below⟩ := setKey?_eq (shows.groups.symm ▸ positive) key
  rw [shows.groups] at set below
  obtain ⟨c', performed, -⟩ := (shows.setKeyAndGroup key (keys.hash key % n)).lookUp
  exact ⟨_, set, rfl, below, by rw [performed]⟩

/-- A key that cannot be written, a change of the group, and a key that can be written. -/
theorem lookups_are_fresh_badKey :
    (0 : UInt32) < 4 ∧
      CurrentKey.unset.answers 4 (some (.selective .string))
          [.lookUp, .setKey "bad", .lookUp, .setKey "k", .lookUp, .setGroup 3, .lookUp] =
        [.error .noCurrentKey, .error (.serialization .refusedWrite),
          .ok ⟨Schema.string.codec.encode "k", 1⟩, .ok ⟨Schema.string.codec.encode "k", 3⟩] ∧
      ∃ c, run [.lookUp, .setKey "bad", .lookUp, .setKey "k", .lookUp, .setGroup 3, .lookUp]
          (.of 4 ⟨0, 3⟩ (some (.selective .string))) =
        some (CurrentKey.unset.answers 4 (some (.selective .string))
          [.lookUp, .setKey "bad", .lookUp, .setKey "k", .lookUp, .setGroup 3, .lookUp], c) := by
  obtain ⟨c, ran, -⟩ := lookups_are_fresh (n := 4) (by decide) ⟨0, 3⟩ (some (.selective .string))
    [.lookUp, .setKey "bad", .lookUp, .setKey "k", .lookUp, .setGroup 3, .lookUp]
  exact ⟨by decide, by decide +kernel, c, ran⟩

end KeyContext

end KeyedState
