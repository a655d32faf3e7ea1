import KeyedState.Action
import KeyedState.Bytes

/-!
# Stores

A store answers five requests: to get, put or remove the value at an address, to
list the entries of a slot, and to clear a slot. A slot belongs to a key in a
namespace; it holds at most one value of its own and a value for each user key.
Layers around a store are stores again.
-/

namespace KeyedState

/-- The place of what one key holds in one namespace. -/
structure SlotAddress where
  group : KeyGroup
  key : Bytes
  ns : Bytes
  deriving DecidableEq, Repr

/-- The place of one value: in a slot, for a map under a user key. -/
structure Address where
  slot : SlotAddress
  userKey : Option Bytes
  deriving DecidableEq, Repr

/-- The place of the slot's own value. -/
def SlotAddress.whole (s : SlotAddress) : Address := ⟨s, none⟩

/-- The place of the value under a user key. -/
def SlotAddress.entry (s : SlotAddress) (userKey : Bytes) : Address := ⟨s, some userKey⟩

/-- How many bytes the parts of an address have. -/
def Address.length (a : Address) : Nat :=
  a.slot.key.length + a.slot.ns.length + (a.userKey.map List.length).getD 0

/-- The kinds of requests. -/
inductive Operation where
  | get
  | put
  | remove
  | entries
  | clear
  deriving DecidableEq, Repr

/-- The kind as text. -/
def Operation.text : Operation → String
  | .get => "get"
  | .put => "put"
  | .remove => "remove"
  | .entries => "entries"
  | .clear => "clear"

/-- A request to a store. -/
inductive Request where
  | get (a : Address)
  | put (a : Address) (value : Bytes)
  | remove (a : Address)
  | entries (s : SlotAddress)
  | clear (s : SlotAddress)
  deriving DecidableEq, Repr

namespace Request

/-- The kind of a request. -/
def operation : Request → Operation
  | get _ => .get
  | put _ _ => .put
  | remove _ => .remove
  | entries _ => .entries
  | clear _ => .clear

/-- What a request is answered with: the value that is or was there, the entries by user key, or
nothing. -/
abbrev Reply : Request → Type
  | get _ => Option Bytes
  | put _ _ => Unit
  | remove _ => Option Bytes
  | entries _ => List (Bytes × Bytes)
  | clear _ => Unit

end Request

/-- What answers requests on a state of its own. -/
structure Store (σ : Type) where
  perform : (r : Request) → Action σ r.Reply

namespace Store

variable {σ τ : Type} (store : Store σ)

/-- The payload at an address. -/
def get (a : Address) : Action σ (Option Bytes) := store.perform (.get a)

/-- Replaces the payload at an address. -/
def put (a : Address) (value : Bytes) : Action σ Unit := store.perform (.put a value)

/-- Deletes the payload at an address and gives it back. -/
def remove (a : Address) : Action σ (Option Bytes) := store.perform (.remove a)

/-- The payloads of a slot with their user keys. -/
def entries (s : SlotAddress) : Action σ (List (Bytes × Bytes)) := store.perform (.entries s)

/-- Deletes all payloads of a slot. -/
def clear (s : SlotAddress) : Action σ Unit := store.perform (.clear s)

/-- The store on a part of a larger state. -/
def within (p : Part τ σ) : Store τ where
  perform r := (store.perform r).within p

end Store

end KeyedState
