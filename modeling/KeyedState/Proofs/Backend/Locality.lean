import KeyedState.Proofs.Backend.Reached
import KeyedState.Proofs.Backend.Work
import KeyedState.Proofs.State.OwnValue

/-!
# One slot among all that a backend does

What a backend over tables stores in one slot under one name changes only by calls that go there
(`Backend.Touches`): by calls on states of that name, while the key, its group and the namespace are
those of the slot. Every other operation leaves it as it is, whatever settings of expiry its states
have (`Backend.Regular.stored_step`). A call that goes there works on the slot's own value
(`Backend.Regular.perform_call`).
-/

namespace KeyedState

open KeyedState.Action (Keeps)

variable {keys : Schema}

namespace Backend

/-- The own value that is stored in a slot under a name. -/
def stored (b : Backend keys) (name : String) (a : SlotAddress) : Option Bytes :=
  ((b.held name a.group).slot a.key a.ns).value

/-- A backend over tables: its named states share them, no table keeps anything empty, what it
remembers of the current key is right, and there is room for samples. -/
structure Regular (b : Backend keys) : Prop where
  coherent : b.context.Coherent
  storage : ∃ h, b.storage = .heap h ∧ h.Pruned
  shared : ∀ s ∈ b.states, s.place = .shared
  room : b.RoomForSamples

/-- The state of a number is the given one, and calls on it go to the slot. -/
structure Reaches (b : Backend keys) (id : StateId) (s : NamedState) (a : SlotAddress) : Prop where
  found : b.states[id]? = some s
  addresses : s.Addresses b.context a

/-- An operation is a call on a state of the name that goes to the slot. -/
def Touches (b : Backend keys) (name : String) (a : SlotAddress) : Step keys → Prop
  | .call id _ _ => ∃ s, b.Reaches id s a ∧ s.name = name
  | _ => False

/-- A backend stores what another one stores, at the same time. -/
structure Spares (b b' : Backend keys) : Prop where
  regular : b'.Regular
  stored : ∀ name a, b'.stored name a = b.stored name a
  now : b'.now = b.now

variable {b b' : Backend keys} {id : StateId} {s : NamedState} {w : Workspace keys} {name : String}
  {a : SlotAddress}

theorem stored_congr (same : b'.storage = b.storage) (name : String) (a : SlotAddress) :
    b'.stored name a = b.stored name a := by
  rw [stored, held, same]
  rfl

/-- A state finds in its table what is stored under its name. -/
theorem get_tableOf {h : HeapStorage} (held : b.storage = .heap h) (shared : s.place = .shared)
    (a : SlotAddress) : (b.tableOf s).get a.whole = b.stored s.name a := by
  show ((b.tableOf s).slot a).value = _
  rw [slot_tableOf held shared]
  rfl

/-- After work on a state its table is stored under its name. -/
theorem stored_afterWork {h : HeapStorage} (held : b.storage = .heap h) (id : StateId)
    (s : NamedState) (w : Workspace keys) (name : String) (a : SlotAddress) :
    (b.afterWork id s w).stored name a =
      if name = s.name then w.table.get a.whole else b.stored name a := by
  have after : (b.afterWork id s w).storage = .heap ⟨h.tables.insert s.name w.table⟩ := by
    show b.storage.setTable s.name w.table = _
    rw [held]
    rfl
  rw [stored, held_eq after, HeapStorage.contents, HeapStorage.getElem?_insert]
  split
  · show ((w.table.group a.group).slot a.key a.ns).value = _
    rw [← Table.slot_eq]
    rfl
  · rw [stored, held_eq held, HeapStorage.contents]

namespace Regular

theorem of_new {config : BackendConfig} {serializer : Serializer keys.Val}
    (new : b.IsNew config serializer) : b.Regular where
  coherent := by
    rw [new.context]
    rintro _ ⟨⟩
  storage := ⟨_, new.storage, HeapStorage.pruned_empty⟩
  shared s member := by
    rw [new.states] at member
    cases member
  room _ s member := by
    rw [new.states] at member
    cases member

/-- A backend is regular over any storage of tables. -/
theorem onHeap (regular : b.Regular) {h : HeapStorage} (pruned : h.Pruned) :
    Regular { b with storage := .heap h } :=
  ⟨regular.coherent, ⟨h, rfl, pruned⟩, regular.shared, regular.room⟩

/-- A state was replaced by one of the same name. -/
theorem replace (regular : b.Regular) (found : b.states[id]? = some s) {s' : NamedState}
    (name : s'.name = s.name) (shared : s'.place = .shared) (alike : s.tracker.Alike s'.tracker) :
    Regular { b with states := b.states.set id s' } := by
  refine ⟨regular.coherent, regular.storage, fun s₁ member => ?_,
    regular.room.replace found name alike b.storage⟩
  rcases List.mem_or_eq_of_mem_set member with old | rfl
  · exact regular.shared s₁ old
  · exact shared

/-! ### Calls -/

/-- A state worked on its workspace. -/
theorem afterWork (regular : b.Regular) (found : b.states[id]? = some s)
    (coherent : w.context.Coherent) (pruned : w.table.Pruned)
    (alike : s.tracker.Alike w.tracker) : (b.afterWork id s w).Regular := by
  obtain ⟨h, held, old⟩ := regular.storage
  have shared := regular.shared s (List.mem_of_getElem? found)
  have replaced : Regular { b with
      states := b.states.set id { s with tracker := { w.tracker with samples := [] } } } :=
    regular.replace found rfl shared alike
  refine ⟨coherent, ⟨⟨h.tables.insert s.name w.table⟩, ?_, old.insert s.name pruned⟩,
    replaced.shared, replaced.room.record w.context s.name w.tracker.samples b.events⟩
  show b.storage.setTable s.name w.table = _
  rw [held]
  rfl

/-- The slot that a state finds is one that calls on it go to. -/
theorem scope_keeps (b : Backend keys) (s : NamedState) (T : Table → Prop) :
    Keeps (fun w : Workspace keys =>
        (w.context.forget = b.context.forget ∧ w.context.Coherent) ∧ T w.table)
      s.scope fun slot => s.Addresses b.context slot := by
  have looked := (KeyContext.coordinates_keeps_current b.context).within
    (p := NamedState.contextPart)
    (I := fun w : Workspace keys =>
      (w.context.forget = b.context.forget ∧ w.context.Coherent) ∧ T w.table)
    (fun _ kept => kept.1) fun _ kept _ context => ⟨context, kept.2⟩
  refine looked.bind fun k current => ?_
  cases named : s.ns with
  | none => exact .lift fun _ located => nomatch located
  | some ns => exact .pure ⟨current.1, current.2, named⟩

/-- A call either finds no state, and nothing changes, or it is carried out on the workspace of its
state. Then it keeps what requests about the slots that the state addresses keep of the table. -/
theorem after_call (regular : b.Regular) (id : StateId) (type : StateType) (c : type.Call)
    {T : NamedState → Table → Prop}
    (here : ∀ s, b.states[id]? = some s → T s (b.tableOf s))
    (keeps : ∀ s, b.states[id]? = some s →
      Table.store.Keeps (T s) fun slot => s.Addresses b.context slot) :
    ((Backend.call id type c).perform b).2 = b ∨
      ∃ s w, b.states[id]? = some s ∧ ((Backend.call id type c).perform b).2 = b.afterWork id s w ∧
        w.context.Coherent ∧ T s w.table ∧ s.tracker.Alike w.tracker := by
  rw [Backend.call, Action.perform_bind_ok (Action.perform_get b)]
  cases found : b.states[id]? with
  | none =>
    rw [perform_onState_none found]
    exact .inl rfl
  | some s =>
    right
    rcases worked : (s.callAs (b.conditions s) type c).perform
      ⟨b.context, b.tableOf s, s.tracker⟩ with ⟨outcome, w⟩
    have kept := (NamedState.callAs_keeps_of_scope
      (C := fun context => context.forget = b.context.forget ∧ context.Coherent) (keeps s found)
      (scope_keeps b s (T s)) (b.conditions s) type c ⟨b.context, b.tableOf s, s.tracker⟩
      ⟨⟨rfl, regular.coherent⟩, here s found⟩).1
    have alike := (NamedState.callAs_keeps_alike s.tracker s (b.conditions s) type c
      (⟨b.context, b.tableOf s, s.tracker⟩ : Workspace keys) fun _ => rfl).1
    rw [worked] at kept alike
    refine ⟨s, w, rfl, ?_, kept.1.2, kept.2, alike⟩
    rw [perform_onState found (regular.shared s (List.mem_of_getElem? found)) _ worked]

/-- A call keeps a backend regular. -/
theorem call (regular : b.Regular) (id : StateId) (type : StateType) (c : type.Call) :
    ((Backend.call id type c).perform b).2.Regular := by
  obtain ⟨h, held, pruned⟩ := regular.storage
  have here : ∀ s, b.states[id]? = some s → (b.tableOf s).Pruned := by
    intro s found
    rw [tableOf_eq held (regular.shared s (List.mem_of_getElem? found))]
    cases named : h.tables[s.name]? with
    | none => exact Table.pruned_empty s.kind
    | some t => exact pruned s.name t named
  rcases regular.after_call id type c (T := fun _ t => t.Pruned) here fun s _ r _ t pruned =>
    ⟨pruned.perform r, fun _ _ => trivial⟩ with same | ⟨s, w, found, after, coherent, kept, alike⟩
  · rw [same]
    exact regular
  · rw [after]
    exact regular.afterWork found coherent kept alike

/-- A call takes no time. -/
theorem now_call (regular : b.Regular) (id : StateId) {type : StateType} (c : type.Call) :
    ((Backend.call id type c).perform b).2.now = b.now := by
  rcases regular.after_call id type c (T := fun _ _ => True) (fun _ _ => trivial)
    fun _ _ _ _ _ _ => ⟨trivial, fun _ _ => trivial⟩ with same | ⟨s, w, -, after, -⟩
  · rw [same]
  · rw [after]
    rfl

/-- A call that does not go to a slot leaves it as it is. -/
theorem stored_call (regular : b.Regular) {type : StateType} (c : type.Call)
    (away : ¬ b.Touches name a (.call id type c)) :
    ((Backend.call id type c).perform b).2.stored name a = b.stored name a := by
  obtain ⟨h, held, -⟩ := regular.storage
  have here : ∀ s, b.states[id]? = some s → name = s.name →
      (b.tableOf s).get a.whole = b.stored name a := by
    rintro s found rfl
    exact get_tableOf held (regular.shared s (List.mem_of_getElem? found)) a
  have keeps : ∀ s, b.states[id]? = some s →
      Table.store.Keeps (fun t => name = s.name → t.get a.whole = b.stored name a)
        fun slot => s.Addresses b.context slot := by
    intro s found r addresses t kept
    refine ⟨fun named => ?_, fun _ _ => trivial⟩
    -- the request is about a slot that the state addresses, and this one it does not
    have other : ¬ a.whole.slot = r.slot := by
      intro same
      rw [← same] at addresses
      exact away ⟨s, ⟨found, addresses⟩, named.symm⟩
    show ((Table.store.perform r).perform t).2.get a.whole = _
    rw [Table.get_perform, if_neg other]
    exact kept named
  rcases regular.after_call id type c (T := fun s t => name = s.name → t.get a.whole =
    b.stored name a) here keeps with same | ⟨s, w, -, after, -, kept, -⟩
  · rw [same]
  · rw [after, stored_afterWork held]
    split
    · next named => exact kept named
    · rfl

/-- A call on a state of a known type is carried out on its workspace. What the table there has in
a slot is stored in it. -/
theorem perform_call (regular : b.Regular) (found : b.states[id]? = some s) {spec : StateSpec Id}
    (typed : s.spec = spec) {c : spec.type.Call} {outcome : Except StateError (spec.type.Reply c)}
    (worked : (spec.call (s.workspaceStore (b.conditions s)) s.scope c).perform
      ⟨b.context, b.tableOf s, s.tracker⟩ = (outcome, w)) :
    ((Backend.call id spec.type c).perform b).1 = outcome ∧
      ∀ a, ((Backend.call id spec.type c).perform b).2.stored s.name a = w.table.get a.whole := by
  obtain ⟨h, held, -⟩ := regular.storage
  have performed : (Backend.call id spec.type c).perform b = (outcome, b.afterWork id s w) := by
    rw [Backend.call, Action.perform_bind_ok (Action.perform_get b)]
    refine perform_onState found (regular.shared s (List.mem_of_getElem? found)) _ ?_
    rw [NamedState.callAs_eq typed]
    exact worked
  rw [performed]
  exact ⟨rfl, fun a => (stored_afterWork held id s w s.name a).trans (if_pos rfl)⟩

/-- What a call that goes to a slot finds there. -/
theorem owns (regular : b.Regular) (found : b.states[id]? = some s) (a : SlotAddress) :
    NamedState.Owns (⟨b.context, b.tableOf s, s.tracker⟩ : Workspace keys) a
      ⟨b.context, b.tableOf s, s.tracker⟩ (b.stored s.name a) := by
  obtain ⟨h, held, -⟩ := regular.storage
  rw [← get_tableOf held (regular.shared s (List.mem_of_getElem? found))]
  exact .start regular.coherent a

/-- Samples of a state are accepted if the histories that are asked for can be set up. -/
theorem trackable_of_admits (regular : b.Regular) (found : b.states[id]? = some s)
    (refused : ¬ s.tracker.Admits (b.conditions s).accepts) : ¬ b.Trackable := fun trackable =>
  refused (regular.room trackable s (List.mem_of_getElem? found)).conditions

/-- A call that looks at the slot's own value is answered from it. -/
theorem reads (regular : b.Regular) (reaches : b.Reaches id s a) {spec : StateSpec Id}
    (typed : s.spec = spec) {c : spec.type.Call}
    {f : Option Bytes → Except StateError (spec.type.Reply c)} (reads : spec.Reads c f) :
    Meets ((Backend.call id spec.type c).perform b).1
        (s.ttl.reading b.now (b.stored s.name a) >>= f) (¬ b.Trackable) ∧
      ((Backend.call id spec.type c).perform b).2.stored s.name a =
        s.ttl.left b.now (b.stored s.name a) := by
  obtain ⟨outcome, w, worked, owns, meets⟩ := NamedState.perform_read reaches.addresses
    (regular.owns reaches.found a) f
  rw [← reads (s.workspaceStore (b.conditions s)) s.scope] at worked
  obtain ⟨answer, after⟩ := regular.perform_call reaches.found typed worked
  rw [answer, after]
  exact ⟨meets.imp_right fun fault =>
    ⟨regular.trackable_of_admits reaches.found fault.1, fault.2⟩, owns.stored⟩

/-- A call that replaces the slot's own value, if it succeeds. -/
theorem rewrites (regular : b.Regular) (reaches : b.Reaches id s a) {spec : StateSpec Id}
    (typed : s.spec = spec) {c : spec.type.Call} {f : Option Bytes → Except StateError Bytes}
    (rewrites : spec.Rewrites c f) {reply : spec.type.Reply c}
    (done : (Backend.call id spec.type c).perform b = (.ok reply, b')) :
    ∃ payload, s.ttl.reading b.now (b.stored s.name a) >>= f = .ok payload ∧
      b'.stored s.name a = some (s.ttl.written b.now payload) := by
  rcases worked : (spec.call (s.workspaceStore (b.conditions s)) s.scope c).perform
    ⟨b.context, b.tableOf s, s.tracker⟩ with ⟨outcome, w⟩
  obtain ⟨answer, after⟩ := regular.perform_call reaches.found typed worked
  rw [done] at answer after
  cases answer
  obtain ⟨payload, made, owns⟩ := NamedState.perform_rewrite reaches.addresses
    (regular.owns reaches.found a) f (rewrites _ _ worked)
  exact ⟨payload, made, (after a).trans owns.stored⟩

/-! ### Opening states -/

/-- Opening a table stores nothing. -/
theorem openTable (regular : b.Regular) {name : String} {kind : StateKind}
    {outcome : Except StateError Place} {storage : Storage}
    (opened : (Storage.openTable name kind).perform b.storage = (outcome, storage)) :
    b.Spares { b with storage } ∧ ∀ place, outcome = .ok place → place = .shared := by
  obtain ⟨h, held, pruned⟩ := regular.storage
  rw [held] at opened
  obtain ⟨h', rfl, shared, contents⟩ := Storage.openTable_heap opened
  have pruned' : h'.Pruned := by
    rw [Storage.openTable, Action.perform_of] at opened
    cases tabled : h.openTable name kind with
    | error e =>
      simp only [tabled] at opened
      cases opened
      exact pruned
    | ok h'' =>
      simp only [tabled] at opened
      cases opened
      exact pruned.openTable tabled
  refine ⟨⟨regular.onHeap pruned', fun name a => ?_, rfl⟩, shared⟩
  rw [stored, stored, held_eq held, ← contents]
  rfl

/-- Creating a state stores nothing, whether or not it is refused. -/
theorem createState (regular : b.Regular) (namespaces : NamespaceType) (d : Descriptor) :
    b.Spares ((Backend.createState namespaces).perform (b, d)).2.1 := by
  cases checked : b.checkNew d with
  | error e =>
    rw [perform_createState_unchecked checked]
    exact ⟨regular, fun _ _ => rfl, rfl⟩
  | ok _ =>
    rcases opened : (Storage.openTable d.name (d.settle b.execution.format).kind).perform
      b.storage with ⟨outcome, storage⟩
    obtain ⟨spares, shared⟩ := regular.openTable opened
    cases outcome with
    | error e =>
      rw [perform_createState_unopened checked opened]
      exact spares
    | ok place =>
      cases shared place rfl
      obtain ⟨room, -, admits⟩ := spares.regular.room.registerTracking d.name
      obtain ⟨outcome, queries, published, -⟩ := perform_publish (d.settle b.execution.format)
        b.states.length d.name (d.settle b.execution.format).kind
        (Backend.registerTracking { b with storage } d.name)
      rw [perform_createState checked opened, published]
      cases outcome with
      | error e =>
        exact ⟨⟨spares.regular.coherent, spares.regular.storage, spares.regular.shared, room⟩,
          spares.stored, rfl⟩
      | ok _ =>
        refine ⟨⟨spares.regular.coherent, spares.regular.storage, fun s member => ?_, ?_⟩,
          spares.stored, rfl⟩
        · rcases List.mem_append.1 member with old | new
          · exact regular.shared s old
          · rw [List.mem_singleton.1 new]
        · exact room.add (admits _ rfl rfl) _

/-- Asking for a state stores nothing. -/
theorem getOrCreate (regular : b.Regular) (namespaces : NamespaceType) (d : Descriptor) :
    b.Spares ((Backend.getOrCreate namespaces).perform (b, d)).2.1 := by
  cases known : b.names.states[d.name]? with
  | some id =>
    rw [perform_getOrCreate_known namespaces known]
    exact ⟨regular, fun _ _ => rfl, rfl⟩
  | none =>
    rw [perform_getOrCreate_unknown namespaces known]
    exact regular.createState namespaces d

/-- Setting a namespace stores nothing. -/
theorem setNamespace (regular : b.Regular) (id : StateId) (schema : Schema) (ns : schema.Val) :
    b.Spares ((Backend.setNamespace id schema ns).perform b).2 := by
  rcases perform_setNamespace_cases id schema ns b with same | ⟨s, bytes, found, after⟩
  · rw [same]
    exact ⟨regular, fun _ _ => rfl, rfl⟩
  · rw [after]
    exact ⟨regular.replace found rfl (regular.shared s (List.mem_of_getElem? found))
      fun _ => rfl, fun _ _ => rfl, rfl⟩

/-- Asking for a state in a namespace stores nothing. -/
theorem getPartitioned (regular : b.Regular) (namespaces : NamespaceType)
    (ns : namespaces.schema.Val) (d : Descriptor) :
    b.Spares ((Backend.getPartitioned namespaces ns).perform (b, d)).2.1 := by
  refine after_getPartitioned (I := b.Spares) ⟨regular, fun _ _ => rfl, rfl⟩
    (regular.getOrCreate namespaces d) (fun b' name spares => ?_) fun b' id spares => ?_
  · exact ⟨⟨spares.regular.coherent, spares.regular.storage, spares.regular.shared,
      spares.regular.room⟩, spares.stored, spares.now⟩
  · have named := spares.regular.setNamespace id namespaces.schema ns
    exact ⟨named.regular, fun name a => (named.stored name a).trans (spares.stored name a),
      named.now.trans spares.now⟩

/-! ### Operations -/

/-- An operation keeps a backend regular. -/
theorem step (regular : b.Regular) (s : Step keys) : (s.perform.perform b).2.Regular := by
  cases s with
  | setKey key => exact ⟨by rintro _ ⟨⟩, regular.storage, regular.shared, regular.room⟩
  | setKeyAndGroup key g => exact ⟨by rintro _ ⟨⟩, regular.storage, regular.shared, regular.room⟩
  | setGroup g => exact ⟨regular.coherent, regular.storage, regular.shared, regular.room⟩
  | setClock now => exact ⟨regular.coherent, regular.storage, regular.shared, regular.room⟩
  | create d namespaces => exact (regular.getOrCreate namespaces d).regular
  | getPartitioned d namespaces ns => exact (regular.getPartitioned namespaces ns d).regular
  | setNamespace id schema ns => exact (regular.setNamespace id schema ns).regular
  | call id type c => exact regular.call id type c

/-- **An operation that does not go to a slot leaves it as it is.** -/
theorem stored_step (regular : b.Regular) {s : Step keys} (away : ¬ b.Touches name a s) :
    (s.perform.perform b).2.stored name a = b.stored name a := by
  cases s with
  | create d namespaces => exact (regular.getOrCreate namespaces d).stored name a
  | getPartitioned d namespaces ns => exact (regular.getPartitioned namespaces ns d).stored name a
  | setNamespace id schema ns => exact (regular.setNamespace id schema ns).stored name a
  | call id type c => exact regular.stored_call c away
  | _ => rfl

/-- The clock only changes when it is set. -/
theorem now_step (regular : b.Regular) (s : Step keys) :
    (s.perform.perform b).2.now = match s with
      | .setClock now => now
      | _ => b.now := by
  cases s with
  | create d namespaces => exact (regular.getOrCreate namespaces d).now
  | getPartitioned d namespaces ns => exact (regular.getPartitioned namespaces ns d).now
  | setNamespace id schema ns => exact (regular.setNamespace id schema ns).now
  | call id type c => exact regular.now_call id c
  | _ => rfl

end Regular

end Backend

end KeyedState
