import KeyedState.Proofs.Backend.Enumeration

/-!
# Work on a backend

What is done on a backend, one operation after another, whatever each of them gives
(`Backend.Acts`), and iterations whose functions do the same (`Backend.Works`). A copy that shares a
backend has its key, its named states and its collaborators, so what is done through a copy is done
on the backend itself.

Work leaves the settings as they are, and a handle stays what it is, apart from its namespace and
its samples. Names stand for states that have them, the state that was accessed last is the one of
its name, and only disposing of the backend takes a name from its state (`Backend.Follows`,
`Backend.Works.follows`).
-/

namespace KeyedState

open Std (ExtTreeMap)
open KeyedState.Action (Keeps)

variable {keys : Schema}

namespace Backend

/-! ## Operations and runs -/

/-- One operation, refused or not, takes a backend to another one. Whatever happens to the
collaborators, by an operation of the backend or by somebody else's, is one as well: publishing,
restoring and listing, closing resources and registering them. `disposes` says whether the backend
may be disposed of. -/
inductive Acts (disposes : Prop) : Backend keys → Backend keys → Prop
  | step (b : Backend keys) (s : Step keys) : Acts disposes b (s.perform.perform b).2
  | query (b : Backend keys) (id : StateId) (slot : SlotAddress) :
      Acts disposes b ((serialized id slot).perform b).2
  | detach (b : Backend keys) (d : Descriptor) (namespaces : NamespaceType) :
      Acts disposes b ((createDetached d namespaces).perform b).2
  | listen (b : Backend keys) (listeners : List ListenerId) : Acts disposes b { b with listeners }
  | collaborate (b : Backend keys) (storage : Storage) (queries : Option (QueryService StateId))
      (closeables : CloseableRegistry) (metrics : Option Metrics)
      (heap : (∃ h, storage = .heap h) ↔ ∃ h, b.storage = .heap h) :
      Acts disposes b { b with storage, queries, closeables, metrics }
  | dispose (b : Backend keys) (may : disposes) : Acts disposes b b.dispose

/-- A run of operations and iterations takes a backend to another one. The function of an iteration
works on the backend in the same way; it may start iterations itself. -/
inductive Works (disposes : Prop) : Backend keys → Backend keys → Prop
  | done (b : Backend keys) : Works disposes b b
  | act {b b' b'' : Backend keys} (before : Works disposes b b') (acts : Acts disposes b' b'') :
      Works disposes b b''
  | iterate {b b' : Backend keys} (before : Works disposes b b') (d : Descriptor)
      (namespaces : NamespaceType) (ns : namespaces.schema.Val) {α : Type} (f : KeyFunction keys α)
      (works : ∀ key id c, Works disposes c ((f key id).run c).2) :
      Works disposes b ((applyToAllKeys namespaces ns f).run (b', d)).2.1

end Backend

/-- The function of an iteration works on the backend by operations and iterations. -/
def KeyFunction.Works {α : Type} (disposes : Prop) (f : KeyFunction keys α) : Prop :=
  ∀ key id b, Backend.Works disposes b ((f key id).run b).2

/-! ## Iterations -/

/-- An operation beside a descriptor changes the backend as it does with the descriptor. -/
theorem Step.perform_beside {α : Type} (d : Descriptor)
    (a : Action (Backend keys × Descriptor) α) (b : Backend keys) :
    (beside d a).perform b = ((a.perform (b, d)).1, (a.perform (b, d)).2.1) := rfl

namespace Backend

variable {disposes : Prop} {α : Type}

/-- What setting keys and the calls keep is kept by going through the keys. -/
theorem visit_keeps {I : Backend keys → Prop} (selected : ∀ b key, I b → I (b.setKey key))
    {f : KeyFunction keys α} (called : ∀ key id b, I b → I ((f key id).run b).2) (id : StateId)
    (found : List (Except StateError keys.Val)) (done : List α) {b : Backend keys} (hb : I b) :
    I ((visit f id found done).run b).2 := by
  induction found generalizing done b with
  | nil => exact hb
  | cons next rest ih =>
      cases next with
      -- a key that is not read back ends the iteration
      | error e => exact hb
      | ok key =>
          have after := called key id _ (selected b key hb)
          rw [visit]
          simp only [StateT.run_bind, StateT.run_modify, pure_bind]
          rcases result : (f key id).run (b.setKey key) with ⟨⟨a, outcome⟩, b'⟩
          rw [result] at after
          cases outcome with
          | error e => exact after
          | ok _ => exact ih (a :: done) after

/-- Taking a sequence of keys is an operation on the storage. -/
theorem Acts.handOut (b : Backend keys) {number : Option Nat} {storage : Storage}
    (handsOut : b.storage.HandsOut number storage) : Acts disposes b { b with storage } :=
  .collaborate b storage b.queries b.closeables b.metrics (exists_congr handsOut.heap)

/-- Giving one back is another one. -/
theorem Acts.giveBack (b : Backend keys) (handed : KeySequence keys.Val) :
    Acts disposes b (b.giveBack handed) :=
  .collaborate b (b.storage.takeBack handed.number) b.queries b.closeables b.metrics
    (exists_congr (Storage.takeBack_eq_heap_iff handed.number))

/-- What operations keep is kept by an iteration, if its function keeps it. -/
theorem applyToAllKeys_keeps {I : Backend keys → Prop}
    (acts : ∀ b b', Acts disposes b b' → I b → I b') {f : KeyFunction keys α}
    (called : ∀ key id b, I b → I ((f key id).run b).2) (d : Descriptor)
    (namespaces : NamespaceType) (ns : namespaces.schema.Val) {b : Backend keys} (hb : I b) :
    I ((applyToAllKeys namespaces ns f).run (b, d)).2.1 := by
  rcases perform_sequenceOf_cases d.name namespaces ns b with
    ⟨e, refused⟩ | ⟨handed, storage, listing, handsOut⟩
  · rw [run_applyToAllKeys_refused refused]
    exact hb
  · rw [run_applyToAllKeys listing, run_visitAll]
    -- the sequence is given back behind whatever is done in between
    refine acts _ _ (.giveBack _ handed) ?_
    have listing_keeps : I { b with storage } := acts b _ (.handOut b handsOut) hb
    have opening_keeps := acts _ _ (.step { b with storage } (.getPartitioned d namespaces ns))
      listing_keeps
    rw [Step.perform, Step.perform_beside] at opening_keeps
    rcases opened : (getPartitioned namespaces ns).perform ({ b with storage }, d) with
      ⟨e | id, b', d'⟩ <;> rw [opened] at opening_keeps
    · exact opening_keeps
    · exact visit_keeps (fun c key => acts c _ (.step c (.setKey key))) called id handed.items []
        opening_keeps

/-- What operations keep is kept by every run. -/
theorem Works.keeps {I : Backend keys → Prop} (acts : ∀ b b', Acts disposes b b' → I b → I b')
    {b b' : Backend keys} (works : Works disposes b b') (hb : I b) : I b' := by
  induction works with
  | done b => exact hb
  | act before last ih => exact acts _ _ last (ih hb)
  | iterate before d namespaces ns f works ih called =>
      exact applyToAllKeys_keeps acts called d namespaces ns (ih hb)

end Backend

/-! ## What work leaves -/

/-- A handle at a later time: its namespace and its samplers may have changed, and so may a table of
its own. -/
structure NamedState.Continues (s s' : NamedState) : Prop where
  name : s'.name = s.name
  spec : s'.spec = s.spec
  namespaces : s'.namespaces = s.namespaces
  ttl : s'.ttl = s.ttl
  shared : s.place = .shared → s'.place = .shared

namespace NamedState.Continues

variable {s s' s'' : NamedState}

theorem refl (s : NamedState) : s.Continues s := ⟨rfl, rfl, rfl, rfl, id⟩

theorem trans (first : s.Continues s') (second : s'.Continues s'') : s.Continues s'' :=
  ⟨second.name.trans first.name, second.spec.trans first.spec,
    second.namespaces.trans first.namespaces, second.ttl.trans first.ttl,
    fun shared => second.shared (first.shared shared)⟩

end NamedState.Continues

namespace Backend

variable {disposes : Prop}

/-- A backend at a later time. Its settings are the same and its handles are still there. Names
stand for states that have them, over tables of the storage if that is a heap; the state that was
accessed last is the one of its name. A name that had a state has the same one, unless the backend
may have been disposed of, and any other state of a name is new. -/
structure Follows (disposes : Prop) (start b : Backend keys) : Prop where
  groups : b.context.groups = start.context.groups
  serializer : b.context.serializer = start.context.serializer
  execution : b.execution = start.execution
  heap : (∃ h, b.storage = .heap h) ↔ ∃ h, start.storage = .heap h
  handles : ∀ (id : StateId) (s : NamedState), start.states[id]? = some s →
    ∃ s', b.states[id]? = some s' ∧ s.Continues s'
  cached : ∀ (name : String) (id : StateId), b.names.lastAccessed = some (name, id) →
    b.names.states[name]? = some id
  named : ∀ (name : String) (id : StateId), b.names.states[name]? = some id →
    ∃ s : NamedState, b.states[id]? = some s ∧ s.name = name ∧
      ((∃ h, start.storage = .heap h) → s.place = .shared)
  remembered : ¬ disposes → ∀ (name : String) (id : StateId), start.names.states[name]? = some id →
    b.names.states[name]? = some id
  origin : ∀ (name : String) (id : StateId), b.names.states[name]? = some id →
    start.names.states[name]? = some id ∨ start.states.length ≤ id

/-- Names stand for states that have them, over tables of the storage if that is a heap, and the
state that was accessed last is the one of its name. -/
def Orderly (b : Backend keys) : Prop := Follows False b b

namespace Follows

variable {start b b' : Backend keys}

/-- A backend without named states is in order. -/
theorem of_unnamed (names : b.names = .empty) : b.Orderly where
  groups := rfl
  serializer := rfl
  execution := rfl
  heap := Iff.rfl
  handles _ s found := ⟨s, found, .refl s⟩
  cached _ _ accessed := by rw [names] at accessed; cases accessed
  named name id numbered := by
    rw [names] at numbered
    cases (ExtTreeMap.getElem?_empty (a := name)).symm.trans numbered
  remembered _ _ _ numbered := numbered
  origin _ _ numbered := .inl numbered

/-- There are no fewer states than before. -/
theorem length_le (follows : Follows disposes start b) : start.states.length ≤ b.states.length := by
  by_contra fewer
  have inside : b.states.length < start.states.length := Nat.lt_of_not_le fewer
  obtain ⟨s', found, -⟩ := follows.handles _ _ (List.getElem?_eq_getElem inside)
  exact absurd (List.getElem?_eq_some_iff.1 found).1 (Nat.lt_irrefl _)

/-- Names stay as they are, and so do the settings and the handles. -/
theorem update (follows : Follows disposes start b) (names : b'.names = b.names)
    (groups : b'.context.groups = b.context.groups)
    (serializer : b'.context.serializer = b.context.serializer)
    (execution : b'.execution = b.execution)
    (heap : (∃ h, b'.storage = .heap h) ↔ ∃ h, b.storage = .heap h)
    (handles : ∀ (id : StateId) (s : NamedState), b.states[id]? = some s →
      ∃ s', b'.states[id]? = some s' ∧ s.Continues s') :
    Follows disposes start b' where
  groups := groups.trans follows.groups
  serializer := serializer.trans follows.serializer
  execution := execution.trans follows.execution
  heap := heap.trans follows.heap
  handles id s found := by
    obtain ⟨s', found', continues⟩ := follows.handles id s found
    obtain ⟨s'', found'', continues'⟩ := handles id s' found'
    exact ⟨s'', found'', continues.trans continues'⟩
  cached name id accessed := by
    rw [names] at accessed ⊢
    exact follows.cached name id accessed
  named name id numbered := by
    rw [names] at numbered
    obtain ⟨s, found, same, shared⟩ := follows.named name id numbered
    obtain ⟨s', found', continues⟩ := handles id s found
    exact ⟨s', found', continues.name.trans same, fun held => continues.shared (shared held)⟩
  remembered may name id numbered := names ▸ follows.remembered may name id numbered
  origin name id numbered := follows.origin name id (names ▸ numbered)

/-- A name without a state gets a new one. -/
theorem insert (follows : Follows disposes start b) {name : String} {id : StateId} {s : NamedState}
    (fresh : b.names.states[name]? = none) (found : b.states[id]? = some s) (same : s.name = name)
    (shared : (∃ h, start.storage = .heap h) → s.place = .shared)
    (new : start.states.length ≤ id) :
    Follows disposes start { b with names := b.names.insert name id } := by
  have listed : ∀ name', (b.names.insert name id).states[name']? =
      if name = name' then some id else b.names.states[name']? := by
    intro name'
    show (b.names.states.insert name id)[name']? = _
    rw [ExtTreeMap.getElem?_insert]
    simp only [Std.LawfulEqOrd.compare_eq_iff_eq]
  refine ⟨follows.groups, follows.serializer, follows.execution, follows.heap, follows.handles,
    ?_, ?_, ?_, ?_⟩
  -- what was accessed last and what is remembered have states already, so they have other names
  · intro name' id' accessed
    have old := follows.cached name' id' accessed
    rw [listed, if_neg]
    · exact old
    · rintro rfl
      cases fresh.symm.trans old
  · intro name' id' numbered
    rw [listed] at numbered
    split at numbered
    · next here =>
        cases numbered
        exact ⟨s, found, same.trans here, shared⟩
    · exact follows.named name' id' numbered
  · intro may name' id' numbered
    have old := follows.remembered may name' id' numbered
    rw [listed, if_neg]
    · exact old
    · rintro rfl
      cases fresh.symm.trans old
  · intro name' id' numbered
    rw [listed] at numbered
    split at numbered
    · cases numbered
      exact .inr new
    · exact follows.origin name' id' numbered

/-- The state of a name becomes the one that was accessed last. -/
theorem promote (follows : Follows disposes start b) (name : String) :
    Follows disposes start { b with names := b.names.promote name } := by
  refine ⟨follows.groups, follows.serializer, follows.execution, follows.heap, follows.handles, ?_,
    follows.named, follows.remembered, follows.origin⟩
  intro name' id accessed
  obtain ⟨id', listed, same⟩ := Option.map_eq_some_iff.1 accessed
  cases same
  exact listed

/-- All names are taken from their states. -/
theorem forget (follows : Follows disposes start b) (may : disposes) :
    Follows disposes start { b with names := .empty } := by
  have unnamed : ∀ (name : String) (id : StateId),
      (StateNames.empty).states[name]? ≠ some id := fun name id numbered => by
    cases (ExtTreeMap.getElem?_empty (a := name)).symm.trans numbered
  refine ⟨follows.groups, follows.serializer, follows.execution, follows.heap, follows.handles,
    ?_, ?_, fun not => absurd may not, ?_⟩
  · rintro _ _ ⟨⟩
  · exact fun name id numbered => absurd numbered (unnamed name id)
  · exact fun name id numbered => absurd numbered (unnamed name id)

/-- One handle is replaced by itself at a later time. -/
theorem replace (follows : Follows disposes start b) {id : StateId} {s : NamedState}
    (found : b.states[id]? = some s) (s' : NamedState) (continues : s.Continues s')
    {storage : Storage}
    (heap : (∃ h, storage = .heap h) ↔ ∃ h, b.storage = .heap h) :
    Follows disposes start { b with storage, states := b.states.set id s' } := by
  refine follows.update rfl rfl rfl rfl heap fun id' s₁ found' => ?_
  by_cases here : id = id'
  · subst here
    cases Option.some.inj (found.symm.trans found')
    exact ⟨s', List.getElem?_set_self (List.getElem?_eq_some_iff.1 found).1, continues⟩
  · exact ⟨s₁, (List.getElem?_set_ne here).trans found', .refl s₁⟩

/-- A state is added that has no name yet. -/
theorem addState (follows : Follows disposes start b) (s : NamedState) :
    Follows disposes start (b.addState s) :=
  follows.update rfl rfl rfl rfl Iff.rfl fun _ s₁ found =>
    ⟨s₁, getElem?_concat_iff.2 (.inl found), .refl s₁⟩

end Follows

end Backend

/-! ## Each operation -/

/-- Putting a table back leaves a heap a heap, and a script a script. -/
theorem Storage.setTable_heap (storage : Storage) (name : String) (t : Table) :
    (∃ h, storage.setTable name t = .heap h) ↔ ∃ h, storage = .heap h := by
  cases storage with
  | heap h => exact ⟨fun _ => ⟨h, rfl⟩, fun _ => ⟨_, rfl⟩⟩
  | scripted s => exact Iff.rfl

/-- Opening a table does not change what any table holds. -/
theorem HeapStorage.contents_openTable {h h' : HeapStorage} {name : String} {kind : StateKind}
    (opened : h.openTable name kind = .ok h') (name' : String) (g : KeyGroup) :
    h'.contents name' g = h.contents name' g := by
  rw [openTable] at opened
  cases found : h.tables[name]? with
  | none =>
      rw [found] at opened
      cases opened
      rw [contents, getElem?_insert]
      by_cases here : name' = name
      · subst here
        rw [if_pos rfl, contents_of_none found]
        exact Table.group_empty kind g
      · rw [if_neg here, contents]
  | some t =>
      rw [found] at opened
      dsimp only at opened
      split at opened <;> cases opened
      rfl

/-- A heap opens its tables itself. What it holds stays the same. -/
theorem Storage.openTable_heap {h : HeapStorage} {name : String} {kind : StateKind}
    {outcome : Except StateError Place} {storage : Storage}
    (performed : (openTable name kind).perform (.heap h) = (outcome, storage)) :
    ∃ h', storage = .heap h' ∧ (∀ place, outcome = .ok place → place = .shared) ∧
      ∀ name g, h'.contents name g = h.contents name g := by
  rw [openTable, Action.perform_of] at performed
  cases opened : h.openTable name kind with
  | error e =>
      simp only [opened] at performed
      cases performed
      exact ⟨h, rfl, by rintro _ ⟨⟩, fun _ _ => rfl⟩
  | ok h' =>
      simp only [opened] at performed
      cases performed
      refine ⟨h', rfl, ?_, HeapStorage.contents_openTable opened⟩
      rintro _ ⟨⟩
      rfl

/-- Opening a table leaves a heap a heap, and a script a script. -/
theorem Storage.openTable_kind (name : String) (kind : StateKind) (storage : Storage) :
    (∃ h, ((openTable name kind).perform storage).2 = .heap h) ↔ ∃ h, storage = .heap h := by
  cases storage with
  | heap h =>
      rcases performed : (openTable name kind).perform (.heap h) with ⟨outcome, opened⟩
      obtain ⟨h', rfl, -⟩ := openTable_heap performed
      exact ⟨fun _ => ⟨h, rfl⟩, fun _ => ⟨h', rfl⟩⟩
  | scripted s =>
      constructor
      · rintro ⟨h, ⟨⟩⟩
      · rintro ⟨h, ⟨⟩⟩

/-- Looking up the current key changes nothing in the context but what it remembers. -/
theorem KeyContext.coordinates_keeps_forget (current : KeyContext keys) :
    Keeps (fun c => c.forget = current.forget) coordinates fun _ => True := by
  rintro ⟨groups, range, serializer, key, group, serialized⟩ same
  refine ⟨Eq.trans ?_ same, fun _ _ => trivial⟩
  rw [coordinates, Action.perform_of]
  cases group with
  | none => rfl
  | some g =>
      cases serialized with
      | some bytes => rfl
      | none =>
          dsimp only
          split <;> rfl

namespace NamedState

variable (s : NamedState) (conditions : Conditions) (current : KeyContext keys)

theorem workspaceStore_keeps_forget :
    Store.Keeps (fun w : Workspace keys => w.context.forget = current.forget ∧ True)
      (fun _ => True) (s.workspaceStore conditions) :=
  workspaceStore_keeps (C := fun c => c.forget = current.forget) (T := fun _ => True)
    (fun _ _ _ _ => ⟨trivial, fun _ _ => trivial⟩) s conditions

/-- A call on a state changes nothing in the context but what it remembers. -/
theorem callAs_keeps_forget (type : StateType) (c : type.Call) :
    Keeps (fun w : Workspace keys => w.context.forget = current.forget ∧ True)
      (s.callAs conditions type c) fun _ => True :=
  callAs_keeps (T := fun _ => True) (S := fun _ => True)
    (fun _ _ _ _ => ⟨trivial, fun _ _ => trivial⟩)
    ((KeyContext.coordinates_keeps_forget current).weaken fun _ _ _ => trivial) s conditions type c

end NamedState

namespace Backend

variable {disposes : Prop} {start b : Backend keys}

/-- Creating the state of a descriptor, whether or not it is refused: what is held stays the same,
and so do the sequences of keys in use. A state that is created gets the next number. -/
theorem perform_createState_cases (namespaces : NamespaceType) (b : Backend keys) (d : Descriptor) :
    ∃ storage queries metrics d', d'.name = d.name ∧
      ((∃ h, storage = .heap h) ↔ ∃ h, b.storage = .heap h) ∧
      (∀ h, b.storage = .heap h → ∃ h', storage = .heap h' ∧
        ∀ name g, h'.contents name g = h.contents name g) ∧
      (storage.handedOut = b.storage.handedOut ∧ storage.givenBack = b.storage.givenBack) ∧
      ((∃ e, (createState namespaces).perform (b, d) =
          (.error e, { b with storage, queries, metrics }, d')) ∨
        ∃ place, ((∃ h, b.storage = .heap h) → place = .shared) ∧
          (createState namespaces).perform (b, d) = (.ok b.states.length,
            { addState { b with storage, queries, metrics } ⟨d.name, d.spec.settled
                b.execution.format, namespaces, none, d.ttl, b.newTracker, place⟩ with
              names := b.names.insert d.name b.states.length }, d')) := by
  cases checked : b.checkNew d with
  | error e =>
      exact ⟨b.storage, b.queries, b.metrics, d, rfl, Iff.rfl,
        fun h held => ⟨h, held, fun _ _ => rfl⟩, ⟨rfl, rfl⟩,
        .inl ⟨e, perform_createState_unchecked checked namespaces⟩⟩
  | ok _ =>
      rcases opened : (Storage.openTable d.name (d.settle b.execution.format).kind).perform
        b.storage with ⟨outcome, storage⟩
      have kind : (∃ h, storage = .heap h) ↔ ∃ h, b.storage = .heap h := by
        have same := Storage.openTable_kind d.name (d.settle b.execution.format).kind b.storage
        rwa [opened] at same
      have sequences : storage.handedOut = b.storage.handedOut ∧
          storage.givenBack = b.storage.givenBack := by
        have same := b.storage.openTable_sequences d.name (d.settle b.execution.format).kind
        rwa [opened] at same
      have heap : ∀ h, b.storage = .heap h → ∃ h', storage = .heap h' ∧
          (∀ place, outcome = .ok place → place = .shared) ∧
            ∀ name g, h'.contents name g = h.contents name g := fun h held =>
        Storage.openTable_heap (held ▸ opened)
      have contents : ∀ h, b.storage = .heap h → ∃ h', storage = .heap h' ∧
          ∀ name g, h'.contents name g = h.contents name g := fun h held => by
        obtain ⟨h', same, -, contents⟩ := heap h held
        exact ⟨h', same, contents⟩
      cases outcome with
      | error e =>
          exact ⟨storage, b.queries, b.metrics, d.settle b.execution.format, rfl, kind, contents,
            sequences, .inl ⟨e, perform_createState_unopened checked opened namespaces⟩⟩
      | ok place =>
          have shared : (∃ h, b.storage = .heap h) → place = .shared := by
            rintro ⟨h, held⟩
            obtain ⟨-, -, shared, -⟩ := heap h held
            exact shared place rfl
          -- what is published is all that may still be refused
          obtain ⟨outcome, queries, published, -⟩ := perform_publish
            (d.settle b.execution.format) b.states.length d.name
            (d.settle b.execution.format).kind (registerTracking { b with storage } d.name)
          refine ⟨storage, queries, (registerTracking { b with storage } d.name).metrics,
            d.settle b.execution.format, rfl, kind, contents, sequences, ?_⟩
          rw [perform_createState checked opened namespaces, published]
          cases outcome with
          | error e => exact .inl ⟨e, rfl⟩
          | ok _ => exact .inr ⟨place, shared, rfl⟩

/-- A known name has its state checked for the type that is asked for. -/
theorem perform_getOrCreate_known (namespaces : NamespaceType) {d : Descriptor} {id : StateId}
    (known : b.names.states[d.name]? = some id) :
    (getOrCreate namespaces).perform (b, d) =
      ((b.checkType id d namespaces.schema).map fun _ => id, b, d) := by
  rw [getOrCreate, Action.perform_bind_ok (Action.perform_get (b, d))]
  dsimp only
  rw [known]
  dsimp only
  cases checked : b.checkType id d namespaces.schema with
  | error e => exact Action.perform_bind_error (Action.perform_lift _ _) _
  | ok _ => rw [Action.perform_bind_ok (Action.perform_lift _ _)]; rfl

/-- The state that was accessed last is checked for the type; any other one is found or created as
without a namespace, and becomes the one that was accessed last. Then its namespace is set. -/
theorem perform_getPartitioned_eq (namespaces : NamespaceType) (ns : namespaces.schema.Val)
    (b : Backend keys) (d : Descriptor) :
    (getPartitioned namespaces ns).perform (b, d) =
      match b.names.recent? d.name with
      | some id =>
        match b.checkType id d namespaces.schema with
        | .error e => (.error e, b, d)
        | .ok _ => (((setNamespace id namespaces.schema ns).perform b).1.map fun _ => id,
            ((setNamespace id namespaces.schema ns).perform b).2, d)
      | none =>
        match (getOrCreate namespaces).perform (b, d) with
        | (.error e, b', d') => (.error e, b', d')
        | (.ok id, b', d') =>
          (((setNamespace id namespaces.schema ns).perform
              { b' with names := b'.names.promote d'.name }).1.map fun _ => id,
            ((setNamespace id namespaces.schema ns).perform
              { b' with names := b'.names.promote d'.name }).2, d') := by
  -- wherever the state was found, its namespace is set last
  have named : ∀ (id : StateId) (b : Backend keys) (d : Descriptor),
      ((setNamespace id namespaces.schema ns).within backendPart >>= fun _ => pure id :
        Action (Backend keys × Descriptor) StateId).perform (b, d) =
      (((setNamespace id namespaces.schema ns).perform b).1.map fun _ => id,
        ((setNamespace id namespaces.schema ns).perform b).2, d) := by
    intro id b d
    rw [Action.perform_bind, Action.perform_within]
    dsimp only [backendPart]
    rcases (setNamespace id namespaces.schema ns).perform b with ⟨_ | _, b'⟩ <;> rfl
  rw [getPartitioned, Action.perform_bind_ok (Action.perform_get (b, d))]
  dsimp only
  cases b.names.recent? d.name with
  | some id =>
      dsimp only
      cases b.checkType id d namespaces.schema with
      | error e => exact Action.perform_bind_error (Action.perform_lift _ _) _
      | ok _ =>
          rw [Action.perform_bind_ok (Action.perform_lift _ _)]
          exact named id b d
  | none =>
      dsimp only
      rcases opened : (getOrCreate namespaces).perform (b, d) with ⟨e | id, b', d'⟩
      · exact Action.perform_bind_error opened _
      · rw [Action.perform_bind_ok opened, Action.perform_bind_ok (Action.perform_modify _ _)]
        exact named id _ d'

/-- What finding or creating the state has left is kept by making it the one that was accessed last
and by setting its namespace. -/
theorem after_getPartitioned {I : Backend keys → Prop} {namespaces : NamespaceType}
    {ns : namespaces.schema.Val} {d : Descriptor} (hb : I b)
    (opened : I ((getOrCreate namespaces).perform (b, d)).2.1)
    (promoted : ∀ b name, I b → I { b with names := b.names.promote name })
    (named : ∀ b id, I b → I ((setNamespace id namespaces.schema ns).perform b).2) :
    I ((getPartitioned namespaces ns).perform (b, d)).2.1 := by
  rw [perform_getPartitioned_eq]
  cases b.names.recent? d.name with
  | some id =>
      dsimp only
      cases b.checkType id d namespaces.schema with
      | error e => exact hb
      | ok _ => exact named b id hb
  | none =>
      dsimp only
      rcases performed : (getOrCreate namespaces).perform (b, d) with ⟨e | id, b', d'⟩ <;>
        rw [performed] at opened
      · exact opened
      · exact named _ id (promoted b' d'.name opened)

namespace Follows

/-- Work on a state leaves the settings and the handles as they are. -/
theorem onState {α : Type} (follows : Follows disposes start b) (id : StateId)
    {run : NamedState → Action (Workspace keys) α}
    (keeps : ∀ s, Keeps (fun w => w.context.forget = b.context.forget ∧ True) (run s)
      fun _ => True) :
    Follows disposes start ((Backend.onState id run).perform b).2 := by
  rw [Backend.onState, Action.perform_of, state]
  cases found : b.states[id]? with
  | none => exact follows
  | some s =>
      dsimp only
      have same := (keeps s ⟨b.context, b.tableOf s, s.tracker⟩ ⟨rfl, trivial⟩).1.1
      rcases performed : (run s).perform ⟨b.context, b.tableOf s, s.tracker⟩ with ⟨outcome, w⟩
      rw [performed] at same
      have groups : w.context.groups = b.context.groups := congrArg (·.groups) same
      have serializer : w.context.serializer = b.context.serializer :=
        congrArg (·.serializer) same
      obtain ⟨name, spec, namespaces, ns, ttl, tracker, place⟩ := s
      -- the table goes back to the storage, or to the state that has it to itself
      cases place with
      | shared =>
          have replaced := follows.replace found
            ⟨name, spec, namespaces, ns, ttl, { w.tracker with samples := [] }, .shared⟩
            ⟨rfl, rfl, rfl, rfl, fun _ => rfl⟩ (b.storage.setTable_heap name w.table)
          exact replaced.update rfl groups serializer rfl Iff.rfl
            fun _ s found => ⟨s, found, .refl s⟩
      | own t =>
          have replaced := follows.replace found
            ⟨name, spec, namespaces, ns, ttl, { w.tracker with samples := [] }, .own w.table⟩
            ⟨rfl, rfl, rfl, rfl, by rintro ⟨⟩⟩ Iff.rfl
          exact replaced.update rfl groups serializer rfl Iff.rfl
            fun _ s found => ⟨s, found, .refl s⟩

theorem setNamespace (follows : Follows disposes start b) (id : StateId) (schema : Schema)
    (ns : schema.Val) :
    Follows disposes start ((Backend.setNamespace id schema ns).perform b).2 := by
  rcases perform_setNamespace_cases id schema ns b with same | ⟨s, bytes, found, after⟩
  · rw [same]
    exact follows
  · rw [after]
    exact follows.replace found { s with ns := some bytes } ⟨rfl, rfl, rfl, rfl, fun held => held⟩
      Iff.rfl

theorem getOrCreate (follows : Follows disposes start b) (namespaces : NamespaceType)
    (d : Descriptor) :
    Follows disposes start ((Backend.getOrCreate namespaces).perform (b, d)).2.1 := by
  cases known : b.names.states[d.name]? with
  | some id =>
      rw [perform_getOrCreate_known namespaces known]
      exact follows
  | none =>
      obtain ⟨storage, queries, metrics, d', -, kind, -, -, created⟩ :=
        perform_createState_cases namespaces b d
      rw [perform_getOrCreate_unknown namespaces known]
      have used : Follows disposes start { b with storage, queries, metrics } :=
        follows.update rfl rfl rfl rfl kind fun _ s found => ⟨s, found, .refl s⟩
      rcases created with ⟨e, created⟩ | ⟨place, shared, created⟩
      · rw [created]
        exact used
      · rw [created]
        exact (used.addState _).insert known List.getElem?_concat_length rfl
          (fun held => shared (follows.heap.2 held)) follows.length_le

theorem getPartitioned (follows : Follows disposes start b) (namespaces : NamespaceType)
    (ns : namespaces.schema.Val) (d : Descriptor) :
    Follows disposes start ((Backend.getPartitioned namespaces ns).perform (b, d)).2.1 :=
  after_getPartitioned follows (follows.getOrCreate namespaces d)
    (fun _ name follows => follows.promote name)
    fun _ id follows => follows.setNamespace id namespaces.schema ns

/-- What does not touch names, settings and handles leaves them as they are. -/
theorem untouched {b' : Backend keys} (follows : Follows disposes start b)
    (names : b'.names = b.names) (groups : b'.context.groups = b.context.groups)
    (serializer : b'.context.serializer = b.context.serializer)
    (execution : b'.execution = b.execution) (states : b'.states = b.states)
    (heap : (∃ h, b'.storage = .heap h) ↔ ∃ h, b.storage = .heap h) :
    Follows disposes start b' :=
  follows.update names groups serializer execution heap fun _ s found =>
    ⟨s, states ▸ found, .refl s⟩

/-- An operation on the key or on the named states leaves a backend in order. -/
theorem step (follows : Follows disposes start b) (s : Step keys) :
    Follows disposes start (s.perform.perform b).2 := by
  cases s with
  | setKey key => exact follows.untouched rfl rfl rfl rfl rfl Iff.rfl
  | setKeyAndGroup key g => exact follows.untouched rfl rfl rfl rfl rfl Iff.rfl
  | setGroup g => exact follows.untouched rfl rfl rfl rfl rfl Iff.rfl
  | setClock now => exact follows.untouched rfl rfl rfl rfl rfl Iff.rfl
  | create d namespaces =>
      rw [Step.perform, Step.perform_beside]
      exact follows.getOrCreate namespaces d
  | getPartitioned d namespaces ns =>
      rw [Step.perform, Step.perform_beside]
      exact follows.getPartitioned namespaces ns d
  | setNamespace id schema ns => exact follows.setNamespace id schema ns
  | call id type c =>
      rw [Step.perform, Backend.call, Action.perform_bind_ok (Action.perform_get b)]
      exact follows.onState id fun s => s.callAs_keeps_forget _ b.context type c

/-- Every operation leaves a backend in order. -/
theorem acts {b' : Backend keys} (follows : Follows disposes start b)
    (acts : Acts disposes b b') : Follows disposes start b' := by
  cases acts with
  | step s => exact follows.step s
  | query id slot =>
      rw [serialized, Action.perform_bind_ok (Action.perform_get b)]
      exact follows.onState id fun s =>
        NamedState.serialized_keeps (s.workspaceStore_keeps_forget _ b.context) slot
  | detach d namespaces =>
      rw [createDetached, Action.perform_bind_ok (Action.perform_get b)]
      cases NamedState.create d namespaces .initial ⟨none, none, []⟩ (.own (.empty d.kind)) with
      | error e => exact follows
      | ok s => exact follows.addState s
  | listen listeners => exact follows.untouched rfl rfl rfl rfl rfl Iff.rfl
  | collaborate storage queries closeables metrics heap =>
      exact follows.untouched rfl rfl rfl rfl rfl heap
  | dispose may =>
      -- the names are taken last
      have closed : Follows disposes start { b with
          queries := b.queries.map QueryService.unregisterAll
          closeables := (CloseableRegistry.close.perform b.closeables).2 } :=
        follows.untouched rfl rfl rfl rfl rfl Iff.rfl
      exact closed.forget may

end Follows

/-- Operations in turn are a run. -/
theorem Works.run {b₀ : Backend keys} (before : Works disposes b₀ b) (steps : List (Step keys)) :
    Works disposes b₀ (Step.run steps b) := by
  induction steps generalizing b with
  | nil => exact before
  | cons s rest ih => exact ih (before.act (.step b s))

/-- A backend follows itself through every run from a start that is in order. -/
theorem Works.follows {b' : Backend keys} (works : Works disposes b b') (orderly : b.Orderly) :
    Follows disposes b b' := by
  refine works.keeps (fun _ _ acts follows => follows.acts acts) ?_
  exact ⟨rfl, rfl, rfl, orderly.heap, orderly.handles, orderly.cached, orderly.named,
    fun _ _ _ numbered => numbered, orderly.origin⟩

/-- What follows a backend in order is in order. -/
theorem Follows.orderly (follows : Follows disposes start b) : b.Orderly where
  groups := rfl
  serializer := rfl
  execution := rfl
  heap := Iff.rfl
  handles _ s found := ⟨s, found, .refl s⟩
  cached := follows.cached
  named name id numbered := by
    obtain ⟨s, found, same, shared⟩ := follows.named name id numbered
    exact ⟨s, found, same, fun held => shared (follows.heap.1 held)⟩
  remembered _ _ _ numbered := numbered
  origin _ _ numbered := .inl numbered

end Backend

end KeyedState
