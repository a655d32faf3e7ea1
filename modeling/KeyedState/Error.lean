import KeyedState.KeyGroup.Range

/-!
# Kinds of state, and what can go wrong

`StateKind` names the four kinds of named state. `StateError` lists the causes for
which an operation on keyed state is refused; `StateError.category` sorts them, and
`StateError.message` is the text that is reported.
-/

namespace KeyedState

/-- The kinds of named state. -/
inductive StateKind where
  | value
  | list
  | map
  | reducing
  deriving DecidableEq, Repr, Inhabited

/-- The kind as text. -/
def StateKind.text : StateKind → String
  | .value => "value"
  | .list => "list"
  | .map => "map"
  | .reducing => "reducing"

/-- The kind that a text names. -/
def StateKind.ofText? (name : String) : Option StateKind :=
  [value, list, map, reducing].find? fun kind => kind.text == name

/-- The two families of tracked quantities. -/
inductive Tracked where
  | latency
  | size
  deriving DecidableEq, Repr

/-- The family as text. -/
def Tracked.text : Tracked → String
  | .latency => "latency"
  | .size => "size"

/-- Why bytes could not be made from a value or a value from bytes. -/
inductive SerializationError where
  /-- The bytes do not have the format of the type. -/
  | malformed
  /-- A stream holds another key group than the one asked for. -/
  | wrongKeyGroup (held requested : KeyGroup)
  /-- An entry with an expiry time is too short to hold the time. -/
  | missingTimestamp (length : Nat)
  /-- A selective serializer does not write the value. -/
  | refusedWrite
  /-- A selective serializer does not read the value. -/
  | refusedRead
  deriving DecidableEq, Repr

/-- Why an operation on keyed state is refused. -/
inductive StateError where
  | emptyStateName
  | keySerializerMissing
  | keySerializerUnset
  | queryableWithTtl (name : String)
  | serializerUninitialized (name : String)
  | reopenedAs (name : String) (created requested : StateKind)
  | restoredAs (name : String) (created restored : StateKind)
  | metricGroupMissing
  | queryRegistryMissing (name : String)
  | queryNameTaken (name : String)
  | cannotWriteKeyGroup (storage : String) (g : KeyGroup)
  | cannotReadKeyGroup (storage : String) (g : KeyGroup)
  /-- There is no named state of the given number. -/
  | unknownState
  /-- There is no storage of the given number. -/
  | unknownStorage
  /-- There is no backend of the given number. -/
  | unknownBackend
  /-- A collaborator failed for the reason that it gives. -/
  | failed (reason : String)
  | noKeyGroups
  | rangeExceedsKeyGroups (groups : UInt32) (range : KeyGroupRange)
  | foreignKeyGroup (g : KeyGroup) (range : KeyGroupRange)
  | unknownQuery (name : String)
  | unservedKeyGroup (g : KeyGroup) (name : String) (range : KeyGroupRange)
  | zeroSampleInterval (family : Tracked)
  | zeroHistorySize (family : Tracked)
  | typeMismatch (name : String)
  | noCurrentKey
  | noNamespace (name : String)
  | serialization (cause : SerializationError)
  | io
  | registryClosed
  /-- A history of samples is too large to be set up. -/
  | historyTooLarge
  /-- A span of time has more seconds than a 64-bit word. -/
  | spanTooLong
  /-- The sum of the samples in a history is no 64-bit word. -/
  | sampleSumTooLarge
  /-- The function of a bulk iteration passed on a refusal. -/
  | userFunction (cause : StateError)
  /-- The function of a bulk iteration failed for a reason of its own. -/
  | userFunctionFailed (reason : String)
  deriving DecidableEq, Repr

/-- The sorts of causes. -/
inductive ErrorCategory where
  | configuration
  | illegalState
  | invalidArgument
  | typeMismatch
  | noCurrentKey
  | noNamespace
  | serialization
  | io
  | registryClosed
  | fault
  | userFunction
  deriving DecidableEq, Repr

/-- What stands in front of the text of a cause of each sort. -/
def ErrorCategory.label : ErrorCategory → String
  | .configuration => "configuration error: "
  | .illegalState => "illegal state: "
  | .invalidArgument => "invalid argument: "
  | .serialization => "serialization error: "
  | .io => "I/O error: "
  | .userFunction => "user function failed during key iteration: "
  | .typeMismatch | .noCurrentKey | .noNamespace | .registryClosed | .fault => ""

/-- The text of a serialization failure; the text of malformed bytes depends on the format and is
left open. -/
def SerializationError.text : SerializationError → String
  | .malformed => "malformed bytes"
  | .wrongKeyGroup held requested =>
    s!"stream holds key group {held} but key group {requested} was requested"
  | .missingTimestamp length => s!"TTL entry of {length} bytes is missing its timestamp header"
  | .refusedWrite => "picky: refused to write"
  | .refusedRead => "picky: refused to read"

namespace StateError

/-- The sort of a cause. -/
def category : StateError → ErrorCategory
  | emptyStateName | keySerializerMissing | keySerializerUnset | queryableWithTtl _
  | serializerUninitialized _ | reopenedAs _ _ _ | restoredAs _ _ _ | metricGroupMissing =>
    .configuration
  | queryRegistryMissing _ | queryNameTaken _ | cannotWriteKeyGroup _ _ | cannotReadKeyGroup _ _
  | unknownState | unknownStorage | unknownBackend | failed _ => .illegalState
  | noKeyGroups | rangeExceedsKeyGroups _ _ | foreignKeyGroup _ _ | unknownQuery _
  | unservedKeyGroup _ _ _ | zeroSampleInterval _ | zeroHistorySize _ => .invalidArgument
  | typeMismatch _ => .typeMismatch
  | noCurrentKey => .noCurrentKey
  | noNamespace _ => .noNamespace
  | serialization _ => .serialization
  | io => .io
  | registryClosed => .registryClosed
  | historyTooLarge | spanTooLong | sampleSumTooLarge => .fault
  | userFunction _ | userFunctionFailed _ => .userFunction

/-- A fault is no answer to the caller: all work on hand is abandoned. -/
def isFault (e : StateError) : Bool := e.category == .fault

/-- The text of a cause, without its sort. -/
def text : StateError → String
  | emptyStateName => "state descriptor must have a non-empty name"
  | keySerializerMissing =>
    "state key serializer has not been configured, partitioned state is unavailable"
  | keySerializerUnset => "State key serializer has not been configured"
  | queryableWithTtl name => s!"queryable state '{name}' cannot use TTL"
  | serializerUninitialized name => s!"serializer of state '{name}' has not been initialized"
  | reopenedAs name created requested =>
    s!"state '{name}' was created as {created.text} and cannot be reopened as {requested.text}"
  | restoredAs name created restored =>
    s!"state '{name}' was created as {created.text} and cannot be restored as {restored.text}"
  | metricGroupMissing => "state tracking is enabled but no metric group was provided"
  | queryRegistryMissing name =>
    s!"state '{name}' is queryable but the backend has no query registry attached"
  | queryNameTaken name => s!"queryable state '{name}' is already registered"
  | cannotWriteKeyGroup storage g => s!"backend '{storage}' cannot write key group {g}"
  | cannotReadKeyGroup storage g => s!"backend '{storage}' cannot read key group {g}"
  | unknownState => "no such state"
  | unknownStorage => "no such storage"
  | unknownBackend => "no such backend"
  | failed reason => reason
  | noKeyGroups => "number of key groups must be at least 1"
  | rangeExceedsKeyGroups groups range =>
    s!"number of key groups ({groups}) is smaller than the key group range {range.text}"
  | foreignKeyGroup g range => s!"key group {g} is outside of the backend's range {range.text}"
  | unknownQuery name => s!"no queryable state registered as '{name}'"
  | unservedKeyGroup g name range => s!"key group {g} is not served by '{name}' ({range.text})"
  | zeroSampleInterval family => s!"{family.text} tracking sample interval must be at least 1"
  | zeroHistorySize family => s!"{family.text} tracking history size must be at least 1"
  | typeMismatch name => s!"state '{name}' is registered at another type"
  | noCurrentKey => "no current key set"
  | noNamespace name => s!"no namespace set for state '{name}'"
  | serialization cause => cause.text
  | io => "broken stream"
  | registryClosed => "closeable registry is already closed"
  | historyTooLarge => "history of samples is too large"
  | spanTooLong => "span of time is too long"
  | sampleSumTooLarge => "sum of samples is too large"
  | userFunction cause => cause.category.label ++ cause.text
  | userFunctionFailed reason => reason

/-- The text of a cause, after its sort. -/
def message (e : StateError) : String := e.category.label ++ e.text

end StateError

end KeyedState
