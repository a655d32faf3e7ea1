import KeyedState.Config.Ttl
import KeyedState.Serializer
import KeyedState.State.Call

/-!
# Descriptors

A descriptor names a state and says of what type it is, how long its entries live,
under which name it can be queried, and with which serializers it is written. The
serializers may be left open until a backend first needs them; each is then set for
good, in the backend's format.
-/

namespace KeyedState

/-- How a state of some type is written and, for an aggregate, reduced. In a descriptor the
serializers may still be open (`F` is `Option`), in a state they are not (`F` is `Id`). -/
inductive StateSpec (F : Type → Type) where
  | value (v : Schema) (serializer : F (Serializer v.Val))
  | list (v : Schema) (serializer : F (Serializer v.Val))
  | map (k v : Schema) (keys : F (Serializer k.Val)) (values : F (Serializer v.Val))
  | reducing (v : Schema) (serializer : F (Serializer v.Val)) (reduce : v.Val → v.Val → v.Val)

namespace StateSpec

/-- The type of the state. -/
def type {F : Type → Type} : StateSpec F → StateType
  | value v _ => .value v
  | list v _ => .list v
  | map k v _ _ => .map k v
  | reducing v _ _ => .reducing v

/-- The serializer, or one of the format if it is open. -/
def chosen {s : Schema} (format : SerializerFormat) (serializer : Option (Serializer s.Val)) :
    Option (Serializer s.Val) :=
  some (serializer.getD (format.serializer s))

/-- Sets the open serializers. -/
def settle (format : SerializerFormat) : StateSpec Option → StateSpec Option
  | value v serializer => .value v (chosen format serializer)
  | list v serializer => .list v (chosen format serializer)
  | map k v keys values => .map k v (chosen format keys) (chosen format values)
  | reducing v serializer reduce => .reducing v (chosen format serializer) reduce

/-- The same with all serializers set, if they are. -/
def complete? : StateSpec Option → Option (StateSpec Id)
  | value v serializer => do return .value v (← serializer)
  | list v serializer => do return .list v (← serializer)
  | map k v keys values => do return .map k v (← keys) (← values)
  | reducing v serializer reduce => do return .reducing v (← serializer) reduce

end StateSpec

/-- The description of a named state. -/
structure Descriptor where
  name : String
  ttl : TtlConfig
  /-- The name under which the state can be queried, if it can. -/
  queryable : Option String
  spec : StateSpec Option

namespace Descriptor

/-- The type of the state. -/
def type (d : Descriptor) : StateType := d.spec.type

/-- The kind of the state. -/
def kind (d : Descriptor) : StateKind := d.type.kind

/-- No serializer is open. -/
def isInitialized (d : Descriptor) : Bool := d.spec.complete?.isSome

/-- Sets the open serializers. -/
def settle (d : Descriptor) (format : SerializerFormat) : Descriptor :=
  { d with spec := d.spec.settle format }

end Descriptor

end KeyedState
