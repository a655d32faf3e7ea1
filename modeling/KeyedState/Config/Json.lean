import KeyedState.Config.Basic
import KeyedState.Config.Ttl
import KeyedState.Json.Access

/-!
# Settings as JSON

Settings are read from an object or from the array of the fields in order. Fields
with a default may be missing; in arrays only from the end. Members with other names
are skipped, except in a span of time.
-/

namespace KeyedState

open Json (fieldValues readOr bareName)

namespace SerializerFormat

/-- The format with a name. -/
def ofName? : String → Option SerializerFormat
  | "bincode" => some .binary
  | "json" => some .json
  | _ => none

/-- A format by its name. -/
def ofJson (j : Json) : Option SerializerFormat := (bareName j).bind ofName?

/-- The name of the format. -/
def toJson (f : SerializerFormat) : Json := Json.str f.text

end SerializerFormat

namespace KeyGroupRange

/-- Both ends are needed; any two words are a range. -/
def ofJson (j : Json) : Option KeyGroupRange := do
  match ← fieldValues true ["start", "end"] j with
  | [some first, some last] => return ⟨← first.toUInt32?, ← last.toUInt32?⟩
  | _ => none

/-- Both ends, the first one first. -/
def toJson (r : KeyGroupRange) : Json :=
  Json.obj [("start", Json.nat r.first.toNat), ("end", Json.nat r.last.toNat)]

end KeyGroupRange

namespace ExecutionConfig

/-- Both fields have defaults. -/
def ofJson (j : Json) : Option ExecutionConfig := do
  match ← fieldValues true ["use_snapshot_compression", "serializer_format"] j with
  | [compress, format] =>
    return ⟨← readOr Json.toBool? initial.compress compress,
      ← readOr SerializerFormat.ofJson initial.format format⟩
  | _ => none

/-- Both fields, the defaults too. -/
def toJson (c : ExecutionConfig) : Json :=
  Json.obj [("use_snapshot_compression", .bool c.compress), ("serializer_format", c.format.toJson)]

end ExecutionConfig

namespace SamplingConfig

/-- All three fields have defaults. -/
def ofJson (j : Json) : Option SamplingConfig := do
  match ← fieldValues true ["enabled", "sample_interval", "history_size"] j with
  | [enabled, interval, history] =>
    return ⟨← readOr Json.toBool? initial.enabled enabled,
      ← readOr Json.toUInt32? initial.interval interval,
      ← readOr Json.toUInt64? initial.history history⟩
  | _ => none

/-- All three fields, the defaults too. -/
def toJson (c : SamplingConfig) : Json :=
  Json.obj [("enabled", .bool c.enabled), ("sample_interval", Json.nat c.interval.toNat),
    ("history_size", Json.nat c.history.toNat)]

end SamplingConfig

namespace BackendConfig

/-- The names of the fields, in order. -/
def fieldNames : List String :=
  ["number_of_key_groups", "key_group_range", "execution", "latency_tracking", "size_tracking"]

/-- The number of groups and the range are needed; the rest has defaults. -/
def ofJson (j : Json) : Option BackendConfig := do
  match ← fieldValues true fieldNames j with
  | [some groups, some range, execution, latency, size] =>
    return ⟨← groups.toUInt32?, ← KeyGroupRange.ofJson range,
      ← readOr ExecutionConfig.ofJson .initial execution,
      ← readOr SamplingConfig.ofJson .initial latency,
      ← readOr SamplingConfig.ofJson .initial size⟩
  | _ => none

/-- All fields, the defaults too. -/
def toJson (c : BackendConfig) : Json :=
  Json.obj (fieldNames.zip [Json.nat c.groups.toNat, c.range.toJson, c.execution.toJson,
    c.latency.toJson, c.size.toJson])

/-- The settings that a text spells. -/
def parse (text : String) : Except StateError BackendConfig :=
  Serializer.orMalformed ((Json.parse (Binary.Codec.utf8 text)).bind ofJson)

end BackendConfig

namespace Span

/-- Both fields are needed, and there are no others. -/
def ofJson (j : Json) : Option Span := do
  match ← fieldValues false ["secs", "nanos"] j with
  | [some seconds, some nanoseconds] => of? (← seconds.toUInt64?) (← nanoseconds.toUInt32?).toNat
  | _ => none

/-- Whole seconds, then the nanoseconds below one second. -/
def toJson (s : Span) : Json :=
  Json.obj [("secs", Json.nat s.seconds.toNat), ("nanos", Json.nat s.nanoseconds)]

end Span

namespace TtlUpdate

/-- The name of the update rule. -/
def text : TtlUpdate → String
  | .disabled => "Disabled"
  | .onWrite => "OnCreateAndWrite"
  | .onReadAndWrite => "OnReadAndWrite"

/-- An update rule by its name. -/
def ofJson (j : Json) : Option TtlUpdate := do
  let name ← bareName j
  [disabled, onWrite, onReadAndWrite].find? fun u => u.text == name

end TtlUpdate

namespace TtlVisibility

/-- The name of the visibility rule. -/
def text : TtlVisibility → String
  | .returnExpired => "ReturnExpiredIfNotCleanedUp"
  | .neverReturnExpired => "NeverReturnExpired"

/-- A visibility rule by its name. -/
def ofJson (j : Json) : Option TtlVisibility := do
  let name ← bareName j
  [returnExpired, neverReturnExpired].find? fun v => v.text == name

end TtlVisibility

namespace TtlConfig

/-- The names of the fields, in order. -/
def fieldNames : List String := ["ttl", "update_type", "visibility"]

/-- All three fields are needed. -/
def ofJson (j : Json) : Option TtlConfig := do
  match ← fieldValues true fieldNames j with
  | [some ttl, some update, some visibility] =>
    return ⟨← Span.ofJson ttl, ← TtlUpdate.ofJson update, ← TtlVisibility.ofJson visibility⟩
  | _ => none

/-- All three fields in order. -/
def toJson (c : TtlConfig) : Json :=
  Json.obj (fieldNames.zip [c.ttl.toJson, Json.str c.update.text, Json.str c.visibility.text])

/-- The policy that a text spells. -/
def parse (text : String) : Except StateError TtlConfig :=
  Serializer.orMalformed ((Json.parse (Binary.Codec.utf8 text)).bind ofJson)

end TtlConfig

end KeyedState
