import KeyedState.Backend.States

/-!
# Runs of a backend

The operations of a backend on its current key and on its named states, and runs of them. An
operation that is refused does not end a run; the next one starts where it ended. A handle whose
table is shared finds it by its name (`Backend.tableOf_eq`). Runs start from backends that were just
built, with the settings that they were built with (`BackendCore.of_build`).
-/

namespace KeyedState

/-- An operation of a backend. The reading of the clock may change between any two others. -/
inductive Step (keys : Schema) where
  | setKey (key : keys.Val)
  | setKeyAndGroup (key : keys.Val) (g : KeyGroup)
  | setGroup (g : KeyGroup)
  | setClock (now : UInt64)
  | create (d : Descriptor) (namespaces : NamespaceType)
  | getPartitioned (d : Descriptor) (namespaces : NamespaceType) (ns : namespaces.schema.Val)
  | setNamespace (id : StateId) (schema : Schema) (ns : schema.Val)
  | call (id : StateId) (type : StateType) (c : type.Call)

namespace Step

variable {keys : Schema}

/-- What an operation gives, if it is not refused. -/
abbrev Reply : Step keys → Type
  | create _ _ => StateId
  | getPartitioned _ _ _ => StateId
  | call _ type c => type.Reply c
  | _ => Unit

/-- An operation that works on a descriptor beside the backend, with a copy of the descriptor. -/
def beside {α : Type} (d : Descriptor) (a : Action (Backend keys × Descriptor) α) :
    Action (Backend keys) α :=
  .of fun b =>
    let (outcome, b, _) := a.perform (b, d)
    (outcome, b)

/-- Carries out an operation. -/
def perform : (s : Step keys) → Action (Backend keys) s.Reply
  | setKey key => modify fun b => b.setKey key
  | setKeyAndGroup key g => modify fun b => b.setKeyAndGroup key g
  | setGroup g => modify fun b => b.setGroup g
  | setClock now => modify fun b => { b with now }
  | create d namespaces => beside d (Backend.getOrCreate namespaces)
  | getPartitioned d namespaces ns => beside d (Backend.getPartitioned namespaces ns)
  | setNamespace id schema ns => Backend.setNamespace id schema ns
  | call id type c => Backend.call id type c

/-- The backend after operations in turn. -/
def run (steps : List (Step keys)) (b : Backend keys) : Backend keys :=
  steps.foldl (fun b s => (s.perform.perform b).2) b

/-- An invariant of every operation is one of every run of them. -/
theorem run_keeps {I : Backend keys → Prop} {steps : List (Step keys)}
    (keeps : ∀ s ∈ steps, ∀ b, I b → I (s.perform.perform b).2) {b : Backend keys} (hb : I b) :
    I (run steps b) := by
  induction steps generalizing b with
  | nil => exact hb
  | cons s rest ih =>
      exact ih (fun s member => keeps s (List.mem_cons_of_mem _ member))
        (keeps s List.mem_cons_self b hb)

end Step

/-- The table of a state is the one of its name, or empty where there is none. -/
theorem Backend.tableOf_eq {keys : Schema} {b : Backend keys} {h : HeapStorage}
    (held : b.storage = .heap h) {s : NamedState} (shared : s.place = .shared) :
    b.tableOf s = h.tables[s.name]?.getD (.empty s.kind) := by
  rw [tableOf, shared, held]
  rfl

/-! ## Backends that were just built -/

/-- Behind a check that was passed the rest is carried out. -/
theorem exists_of_check {α : Type} {condition : Prop} [Decidable condition]
    {check : Except StateError Unit} {rest : Unit → Except StateError α} {a : α}
    (passed : (if condition then check >>= rest else rest ()) = .ok a) : ∃ u, rest u = .ok a := by
  split at passed
  · cases check with
    | error e => cases passed
    | ok u => exact ⟨u, passed⟩
  · exact ⟨(), passed⟩

/-- A backend has the settings that it is built with. Families are only tracked if somebody collects
the metrics. -/
theorem BackendCore.of_build {keys : Schema} {config : BackendConfig}
    {serializer : Option (Serializer keys.Val)} {metered : Bool} {core : BackendCore keys}
    (built : BackendCore.build config serializer metered = .ok core) :
    core = ⟨config.execution, config.latency, config.size, metered,
      .of config.groups config.range serializer, [], .empty⟩ ∧
        ((config.latency.enabled || config.size.enabled) = true → metered = true) := by
  rw [BackendCore.build] at built
  obtain ⟨_, built⟩ := exists_of_check built
  obtain ⟨_, built⟩ := exists_of_check built
  obtain ⟨_, built⟩ := exists_of_check built
  obtain ⟨_, built⟩ := exists_of_check built
  split at built
  · cases built
  · next unmetered =>
      cases built
      refine ⟨rfl, fun enabled => ?_⟩
      rw [enabled] at unmetered
      simpa using unmetered

/-- A backend over tables of its own that was just built with settings and with a serializer for its
keys. If its samples are collected, none are yet. -/
structure Backend.IsNew {keys : Schema} (config : BackendConfig) (serializer : Serializer keys.Val)
    (b : Backend keys) : Prop where
  built : ∃ metered, BackendCore.build config (some serializer) metered = .ok b.toBackendCore
  storage : b.storage = .heap .empty
  states : b.states = []
  metrics : ∀ m, b.metrics = some m → ∃ n, m = .of n

namespace Backend.IsNew

variable {keys : Schema} {config : BackendConfig} {serializer : Serializer keys.Val}
  {b : Backend keys}

theorem execution (new : b.IsNew config serializer) : b.execution = config.execution := by
  obtain ⟨metered, built⟩ := new.built
  rw [(BackendCore.of_build built).1]

theorem context (new : b.IsNew config serializer) :
    b.context = .of config.groups config.range (some serializer) := by
  obtain ⟨metered, built⟩ := new.built
  rw [(BackendCore.of_build built).1]

theorem names (new : b.IsNew config serializer) : b.names = .empty := by
  obtain ⟨metered, built⟩ := new.built
  rw [(BackendCore.of_build built).1]

/-- Somebody collects the metrics of a new backend that tracks a family. -/
theorem metered (new : b.IsNew config serializer)
    (enabled : b.latency.enabled = true ∨ b.size.enabled = true) : b.metered = true := by
  obtain ⟨metered, built⟩ := new.built
  obtain ⟨core, needed⟩ := BackendCore.of_build built
  rw [core] at enabled ⊢
  exact needed (Bool.or_eq_true_iff.2 enabled)

end Backend.IsNew

/-- An operator for text keys over tables of its own, with the settings that nobody has changed. -/
def Backend.plain (groups : UInt32) (range : KeyGroupRange) : Backend .string where
  execution := .initial
  latency := .initial
  size := .initial
  metered := false
  context := .of groups range (some (.binary .string))
  listeners := []
  names := .empty
  storage := .heap .empty
  queries := none
  closeables := .empty
  metrics := none
  states := []
  now := 0
  events := []

end KeyedState
