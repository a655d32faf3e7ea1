import KeyedState.Proofs.Backend.Runs
import KeyedState.Proofs.State.Reference

/-!
# What a backend is

A reference for backends that knows no bytes, tables or caches. It has the current key and its
group, and for each named state the current namespace and, for every key group, key and namespace,
a content of its own (`ReferenceState.cells`). `Reference.Takes` says how it takes an operation and
what it answers: a call concerns the content of the current key, group and namespace and nothing
else. A backend follows the reference through a run if all its outcomes are those of the
reference (`Reference.Follows`).

The reference leaves open whether a state is created if its descriptor asks for more than a name
and a type: a state without a name, one for queries, and one whose creation failed before may be
refused.
-/

namespace KeyedState

variable {keys : Schema}

/-- A specification with its open serializers set. -/
def StateSpec.settled (format : SerializerFormat) : StateSpec Option → StateSpec Id
  | value v serializer => .value v (serializer.getD (format.serializer v))
  | list v serializer => .list v (serializer.getD (format.serializer v))
  | map k v keys values =>
    .map k v (keys.getD (format.serializer k)) (values.getD (format.serializer v))
  | reducing v serializer reduce => .reducing v (serializer.getD (format.serializer v)) reduce

/-- The type does not depend on serializers. -/
@[simp] theorem StateSpec.type_settled (format : SerializerFormat) (spec : StateSpec Option) :
    (spec.settled format).type = spec.type := by
  cases spec <;> rfl

/-- Settling a specification makes it complete. -/
theorem StateSpec.complete?_settle (format : SerializerFormat) (spec : StateSpec Option) :
    (spec.settle format).complete? = some (spec.settled format) := by
  cases spec <;> rfl

/-! ## Named states -/

/-- A named state of the reference: its current namespace, and what it holds for every key group,
key and namespace. -/
structure ReferenceState (keys : Schema) where
  name : String
  spec : StateSpec Id
  namespaces : Schema
  ns : Option namespaces.Val
  cells : KeyGroup → keys.Val → namespaces.Val → spec.type.Content

namespace ReferenceState

/-- A state that holds nothing and has no namespace yet. -/
def fresh (name : String) (spec : StateSpec Id) (namespaces : Schema) : ReferenceState keys :=
  ⟨name, spec, namespaces, none, fun _ _ _ => spec.type.nothing⟩

open Classical in
/-- The state with another content for one key group, key and namespace. -/
noncomputable def write (x : ReferenceState keys) (g : KeyGroup) (key : keys.Val)
    (ns : x.namespaces.Val) (content : x.spec.type.Content) : ReferenceState keys :=
  { x with cells := fun g' key' ns' =>
      if g' = g ∧ key' = key ∧ ns' = ns then content else x.cells g' key' ns' }

/-- The state with another current namespace, which has to be of its schema. -/
def setNamespace (x : ReferenceState keys) (schema : Schema) (ns : schema.Val) :
    Except StateError (ReferenceState keys) :=
  if same : schema = x.namespaces then .ok { x with ns := some (same ▸ ns) }
  else .error (.typeMismatch x.name)

theorem setNamespace_same {x : ReferenceState keys} {schema : Schema}
    (same : schema = x.namespaces) (ns : schema.Val) :
    x.setNamespace schema ns = .ok { x with ns := some (same ▸ ns) } :=
  dif_pos same

theorem setNamespace_other {x : ReferenceState keys} {schema : Schema}
    (other : ¬ schema = x.namespaces) (ns : schema.Val) :
    x.setNamespace schema ns = .error (.typeMismatch x.name) :=
  dif_neg other

/-- What is missing to a call when there is no key, or no group, or else no namespace. -/
def missing (x : ReferenceState keys) (key : Option keys.Val) (group : Option KeyGroup) :
    Option StateError :=
  if key.isNone || group.isNone then some .noCurrentKey
  else if x.ns.isNone then some (.noNamespace x.name)
  else none

/-- If nothing is missing, there are a key, a group and a namespace. -/
theorem missing_eq_none {x : ReferenceState keys} {key : Option keys.Val} {group : Option KeyGroup}
    (none : x.missing key group = .none) :
    ∃ k g n, key = some k ∧ group = some g ∧ x.ns = some n := by
  cases key with
  | none => cases none
  | some k =>
      cases group with
      | none => cases none
      | some g =>
          cases ns : x.ns with
          | none => simp [missing, ns] at none
          | some n => exact ⟨k, g, n, rfl, rfl, rfl⟩

/-- How a state takes a call under the current key and group. -/
inductive Takes (x : ReferenceState keys) (key : Option keys.Val) (group : Option KeyGroup) :
    (type : StateType) → (c : type.Call) → Except StateError (type.Reply c) →
      ReferenceState keys → Prop where
  /-- The call is answered from the content of the current key, group and namespace. -/
  | answered {k : keys.Val} {g : KeyGroup} {n : x.namespaces.Val} {c : x.spec.type.Call}
      {reply : x.spec.type.Reply c} :
      key = some k → group = some g → x.ns = some n → x.spec.Answers c (x.cells g k n) reply →
      Takes x key group x.spec.type c (.ok reply)
        (x.write g k n (x.spec.type.after c (x.cells g k n)))
  /-- A call that has nothing to do is answered even if something is missing. -/
  | idle {c : x.spec.type.Call} {reply : x.spec.type.Reply c} {e : StateError} :
      x.missing key group = some e → x.spec.type.isIdle c = true →
      Takes x key group x.spec.type c (.ok reply) x
  | refused {c : x.spec.type.Call} {e : StateError} :
      x.missing key group = some e → x.spec.type.isIdle c = false →
      Takes x key group x.spec.type c (.error e) x
  | mismatched {type : StateType} {c : type.Call} :
      x.spec.type ≠ type → Takes x key group type c (.error (.typeMismatch x.name)) x

end ReferenceState

/-! ## Backends -/

/-- A reference for backends: the number of key groups and the format of its settings, the current
key and its group, the named states with their numbers, and the names under which creating a state
was refused. -/
structure Reference (keys : Schema) where
  groups : UInt32
  format : SerializerFormat
  key : Option keys.Val
  group : Option KeyGroup
  ids : String → Option StateId
  states : List (ReferenceState keys)
  refused : List String

namespace Reference

/-- A reference without a key and without states. -/
def initial (groups : UInt32) (format : SerializerFormat) : Reference keys :=
  ⟨groups, format, none, none, fun _ => none, [], []⟩

variable (r : Reference keys)

/-- The reference with a current key and its group. -/
def setKeyAndGroup (key : keys.Val) (g : KeyGroup) : Reference keys :=
  { r with key := some key, group := some g }

/-- The reference with a state replaced. -/
def set (id : StateId) (x : ReferenceState keys) : Reference keys :=
  { r with states := r.states.set id x }

/-- The reference with another current namespace of a state. -/
def setNamespace (id : StateId) (schema : Schema) (ns : schema.Val) :
    Except StateError (Reference keys) :=
  match r.states[id]? with
  | none => .error .unknownState
  | some x => (x.setNamespace schema ns).map fun x => r.set id x

/-- The reference with one more state. -/
def add (d : Descriptor) (namespaces : Schema) : Reference keys :=
  { r with
    ids := fun name => if name = d.name then some r.states.length else r.ids name
    states := r.states ++ [.fresh d.name (d.spec.settled r.format) namespaces] }

/-- The reference after a state of a name could not be created. -/
def refuse (name : String) : Reference keys := { r with refused := name :: r.refused }

/-- A descriptor asks for more than a name and a type. -/
def MayRefuse (d : Descriptor) : Prop :=
  d.name = "" ∨ d.queryable.isSome = true ∨ d.name ∈ r.refused

/-- How the state of a descriptor is found or created. -/
inductive Opens (d : Descriptor) (namespaces : Schema) :
    Except StateError StateId → Reference keys → Prop where
  | found {id : StateId} {x : ReferenceState keys} :
      r.ids d.name = some id → r.states[id]? = some x → x.spec.type = d.type →
      x.namespaces = namespaces → Opens d namespaces (.ok id) r
  | mismatched {id : StateId} {x : ReferenceState keys} :
      r.ids d.name = some id → r.states[id]? = some x →
      ¬ (x.spec.type = d.type ∧ x.namespaces = namespaces) →
      Opens d namespaces (.error (.typeMismatch d.name)) r
  | created : r.ids d.name = none → Opens d namespaces (.ok r.states.length) (r.add d namespaces)
  | refused {e : StateError} :
      r.ids d.name = none → r.MayRefuse d → Opens d namespaces (.error e) (r.refuse d.name)

/-- How the reference takes an operation: its outcome and the reference after it. -/
inductive Takes : (s : Step keys) → Except StateError s.Reply → Reference keys → Prop where
  | setKey (key : keys.Val) :
      Takes (.setKey key) (.ok ()) (r.setKeyAndGroup key (KeyGroup.assign (keys.hash key) r.groups))
  | setKeyAndGroup (key : keys.Val) (g : KeyGroup) :
      Takes (.setKeyAndGroup key g) (.ok ()) (r.setKeyAndGroup key g)
  | setGroup (g : KeyGroup) : Takes (.setGroup g) (.ok ()) { r with group := some g }
  | setClock (now : UInt64) : Takes (.setClock now) (.ok ()) r
  | create {d : Descriptor} {namespaces : NamespaceType} {outcome : Except StateError StateId}
      {r' : Reference keys} :
      r.Opens d namespaces.schema outcome r' → Takes (.create d namespaces) outcome r'
  | getPartitioned {d : Descriptor} {namespaces : NamespaceType} {ns : namespaces.schema.Val}
      {id : StateId} {r' r'' : Reference keys} :
      r.Opens d namespaces.schema (.ok id) r' → r'.setNamespace id namespaces.schema ns = .ok r'' →
      Takes (.getPartitioned d namespaces ns) (.ok id) r''
  | notPartitioned {d : Descriptor} {namespaces : NamespaceType} {ns : namespaces.schema.Val}
      {e : StateError} {r' : Reference keys} :
      r.Opens d namespaces.schema (.error e) r' →
      Takes (.getPartitioned d namespaces ns) (.error e) r'
  | setNamespace {id : StateId} {schema : Schema} {ns : schema.Val} {r' : Reference keys} :
      r.setNamespace id schema ns = .ok r' → Takes (.setNamespace id schema ns) (.ok ()) r'
  | keepNamespace {id : StateId} {schema : Schema} {ns : schema.Val} {e : StateError} :
      r.setNamespace id schema ns = .error e → Takes (.setNamespace id schema ns) (.error e) r
  | call {id : StateId} {type : StateType} {c : type.Call} {x x' : ReferenceState keys}
      {outcome : Except StateError (type.Reply c)} :
      r.states[id]? = some x → x.Takes r.key r.group type c outcome x' →
      Takes (.call id type c) outcome (r.set id x')
  | callNone {id : StateId} {type : StateType} {c : type.Call} :
      r.states[id]? = none → Takes (.call id type c) (.error .unknownState) r

variable {r} {r' : Reference keys}

theorem Opens.format_eq {d : Descriptor} {schema : Schema} {outcome : Except StateError StateId}
    (opens : r.Opens d schema outcome r') : r'.format = r.format := by
  cases opens <;> rfl

/-- The reference sets the namespace of a state as the state does. -/
theorem setNamespace_eq {id : StateId} {x : ReferenceState keys} (held : r.states[id]? = some x)
    (schema : Schema) (ns : schema.Val) :
    r.setNamespace id schema ns = (x.setNamespace schema ns).map fun x => r.set id x := by
  rw [setNamespace, held]

/-- Another namespace of a state changes that state alone. -/
theorem setNamespace_eq_ok {id : StateId} {schema : Schema} {ns : schema.Val}
    (h : r.setNamespace id schema ns = .ok r') :
    ∃ x ns', r.states[id]? = some x ∧ r' = r.set id { x with ns := ns' } := by
  rw [setNamespace] at h
  cases held : r.states[id]? with
  | none => rw [held] at h; cases h
  | some x =>
      rw [held] at h
      dsimp only [ReferenceState.setNamespace] at h
      split at h
      · cases h
        exact ⟨x, _, rfl, rfl⟩
      · cases h

/-- The format stays what it is. -/
theorem Takes.format_eq {s : Step keys} {outcome : Except StateError s.Reply}
    (takes : r.Takes s outcome r') : r'.format = r.format := by
  -- what is created has the format, and nothing sets it
  cases takes with
  | create opens => exact opens.format_eq
  | getPartitioned opens named =>
      obtain ⟨x, ns, -, rfl⟩ := setNamespace_eq_ok named
      exact opens.format_eq
  | notPartitioned opens => exact opens.format_eq
  | setNamespace named =>
      obtain ⟨x, ns, -, rfl⟩ := setNamespace_eq_ok named
      rfl
  | _ => rfl

variable (r)

/-- The number of elements of every list is a 64-bit word. -/
def FitsMemory : Prop :=
  ∀ x ∈ r.states, ∀ g key ns, x.spec.type.FitsMemory (x.cells g key ns)

/-- The outcomes of a backend in a run are those of the reference, for as long as lists fit into any
memory. -/
def Follows (r : Reference keys) : List (Step keys) → Backend keys → Prop
  | [], _ => True
  | s :: rest, b => ∃ r', r.Takes s (s.perform.perform b).1 r' ∧
    (r'.FitsMemory → r'.Follows rest (s.perform.perform b).2)

end Reference

/-! ## What runs are made of -/

namespace Step

/-- States have no expiry, all values that are handed over are selected, and the serializers of
states and of their namespaces are faithful to the selected values. -/
def Within (used : Selection) (format : SerializerFormat) : Step keys → Prop
  | setKey key => used keys key
  | setKeyAndGroup key _ => used keys key
  | create d namespaces =>
    d.ttl.isEnabled = false ∧ (d.spec.settled format).Faithful used ∧
      namespaces.serializer.Faithful (used namespaces.schema)
  | getPartitioned d namespaces ns =>
    d.ttl.isEnabled = false ∧ (d.spec.settled format).Faithful used ∧
      namespaces.serializer.Faithful (used namespaces.schema) ∧ used namespaces.schema ns
  | setNamespace _ schema ns => used schema ns
  | call _ type c => type.Within used c
  | _ => True

end Step

end KeyedState
