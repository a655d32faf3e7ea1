import KeyedState.Config.Ttl
import KeyedState.Error
import KeyedState.Json.Access

/-!
# Expiry policies as messages

The members of a message give the span, what refreshes an entry, and whether expired
entries are returned. A span that is too long to be counted is a fault and not a
message that cannot be read.
-/

namespace KeyedState

/-- The span of the member `ms`, or else of `secs` and `nanos`, which are zero when absent. -/
def Span.ofMessage? (j : Json) : Option (Except StateError Span) := do
  match ← j.optional "ms" Json.toUInt64? with
  | some ms => return .ok (.ofMillis ms)
  | none =>
    let seconds ← j.fieldOr "secs" 0 Json.toUInt64?
    let nanoseconds ← j.fieldOr "nanos" 0 Json.toUInt32?
    return match Span.of? seconds nanoseconds.toNat with
      | some span => .ok span
      | none => .error .spanTooLong

/-- What refreshes an entry, by name. -/
def TtlUpdate.ofText? : String → Option TtlUpdate
  | "write" => some .onWrite
  | "read_write" => some .onReadAndWrite
  | "disabled" => some .disabled
  | _ => none

/-- The policy of a message: by default writes refresh an entry, and an expired one is not
returned. -/
def TtlConfig.ofMessage? (j : Json) : Option (Except StateError TtlConfig) := do
  let span ← Span.ofMessage? j
  let update ← j.fieldOr "update" .onWrite fun name => name.toText?.bind TtlUpdate.ofText?
  let returned ← j.fieldOr "expired" false Json.toBool?
  let visibility := if returned then .returnExpired else .neverReturnExpired
  return span.map fun span => ⟨span, update, visibility⟩

end KeyedState
