import KeyedState.Backend.Basic
import KeyedState.Compression.Stream

/-!
# Streams of key groups, and the end of a backend

A backend writes and restores the key groups of its own range, through the
compression that its settings select. Disposing of it closes its resources, withdraws
what was published and forgets all states.
-/

namespace KeyedState.Backend

variable {keys : Schema}

/-- The compression of streams. -/
def compression (b : Backend keys) : Compression := .ofConfig b.execution

/-- A key group has to be one of the backend's own. -/
def checkGroup (b : Backend keys) (g : KeyGroup) : Except StateError Unit :=
  if b.range.contains g then .ok () else .error (.foreignKeyGroup g b.range)

/-- The content of a key group. -/
def groupContent (b : Backend keys) (g : KeyGroup) : Except StateError Bytes := do
  b.checkGroup g
  b.storage.write g

/-- The stream of a key group. -/
def writeKeyGroup (b : Backend keys) (g : KeyGroup) : Except StateError Bytes := do
  return b.compression.encode (← b.groupContent g)

/-- Writes a key group to a sink that takes only so many bytes. -/
def writeLimited (b : Backend keys) (g : KeyGroup) (limit : Nat) : Except StateError Unit := do
  let _ ← b.compression.deliver limit (← b.groupContent g)

/-- Restores a key group from the front of a stream. A fault of the stream matters only if it
comes before the end of the content that is read; what follows that is returned. -/
def readKeyGroup (g : KeyGroup) (stream : Bytes) : Action (Backend keys) Bytes := do
  let b ← get
  Action.lift (b.checkGroup g)
  (Storage.read g (b.compression.decode stream).bytes).within storagePart

/-- Closes the resources; states stay available. -/
def close : Action (Backend keys) Unit := CloseableRegistry.close.within closeablesPart

/-- Closes the resources, withdraws what was published, and forgets all states. Failures to close
are passed over. -/
def dispose (b : Backend keys) : Backend keys :=
  let b := (close.perform b).2
  { b with
    queries := b.queries.map QueryService.unregisterAll
    names := .empty }

end KeyedState.Backend
