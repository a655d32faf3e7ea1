import KeyedState.Action

/-!
# Resources that are closed with a backend

A registry of resources. It is closed once, and closes its resources in reverse order
of registration, also when some of them fail. A resource that comes too late is
closed at once and refused.
-/

namespace KeyedState

/-- Something to close. Closing it fails if there is a failure to report. -/
structure Resource where
  id : String
  failure : Option StateError
  deriving DecidableEq, Repr

namespace Resource

/-- A resource that fails as told. -/
def of (id : String) (fails : Bool) : Resource :=
  ⟨id, if fails then some (.failed s!"close {id} failed") else none⟩

end Resource

/-- The registry: the resources by the numbers of their registrations, the oldest first, and those
closed so far, the latest last. The numbers have no bound here; a counter of 64 bits gives the same
ones for the first 2^64 registrations. -/
structure CloseableRegistry where
  isClosed : Bool
  nextId : Nat
  resources : List (Nat × Resource)
  closed : List Resource
  deriving DecidableEq, Repr

namespace CloseableRegistry

/-- Nothing is registered. -/
def empty : CloseableRegistry := ⟨false, 0, [], []⟩

/-- How many resources there are. -/
def size (r : CloseableRegistry) : Nat := r.resources.length

/-- Registers a resource and numbers the registration. -/
def register (resource : Resource) : Action CloseableRegistry Nat :=
  .of fun r =>
    if r.isClosed then (.error .registryClosed, { r with closed := r.closed ++ [resource] })
    else
      (.ok r.nextId,
        { r with nextId := r.nextId + 1, resources := r.resources ++ [(r.nextId, resource)] })

/-- Forgets a registration; whether there was one. -/
def unregister (id : Nat) (r : CloseableRegistry) : Bool × CloseableRegistry :=
  (r.resources.any fun entry => entry.1 == id,
    { r with resources := r.resources.eraseP fun entry => entry.1 == id })

/-- The first failure among resources closed in order. -/
def firstFailure : List Resource → Except StateError Unit
  | [] => .ok ()
  | resource :: rest =>
    match resource.failure with
    | none => firstFailure rest
    | some e => .error e

/-- Closes the registry and its resources; the first failure is reported. -/
def close : Action CloseableRegistry Unit :=
  .of fun r =>
    if r.isClosed then (.ok (), r)
    else
      let order := (r.resources.map Prod.snd).reverse
      (firstFailure order,
        { r with isClosed := true, resources := [], closed := r.closed ++ order })

end CloseableRegistry

end KeyedState
