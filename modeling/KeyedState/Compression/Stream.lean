import KeyedState.Compression.Frame
import KeyedState.Config.Basic

/-!
# Compression of streams

A backend passes the streams of its key groups on as they are or as framed, compressed
streams.
-/

namespace KeyedState

open KeyedState.Frame (Content)

/-- What happens to a stream on its way out and back in. -/
inductive Compression where
  | uncompressed
  | snappy
  deriving DecidableEq, Repr

namespace Compression

/-- The compression that the settings select. -/
def ofConfig (c : ExecutionConfig) : Compression := if c.compress then .snappy else .uncompressed

/-- The compression as text. -/
def text : Compression → String
  | .uncompressed => "none"
  | .snappy => "snappy"

/-- The stream that carries the content, in parts as they are passed on. -/
def encodeParts : Compression → Bytes → List Bytes
  | .uncompressed, data => [data]
  | .snappy, data => Frame.encodeParts data

/-- The stream that carries the content. -/
def encode (c : Compression) (data : Bytes) : Bytes := (c.encodeParts data).flatten

/-- What a reader gets from a stream. -/
def decode : Compression → Bytes → Content
  | .uncompressed, b => ⟨b, true⟩
  | .snappy, b => Frame.decode b

/-- All of the content, or the report of a fault. -/
def readAll (c : Compression) (b : Bytes) : Except StateError Bytes :=
  let content := c.decode b
  if content.intact then .ok content.bytes else .error .io

/-- Passes a stream on to a sink that takes `limit` bytes and then fails. While the content is
being written a failure is one of serialization; the last part of a compressed stream is passed
on by the final flush, whose failure is one of the sink. -/
def deliver (c : Compression) (limit : Nat) (data : Bytes) : Except StateError Bytes :=
  let parts := c.encodeParts data
  let early := match c with
    | .uncompressed => parts
    | .snappy => parts.dropLast
  if limit < early.flatten.length then .error (.serialization .malformed)
  else if limit < parts.flatten.length then .error .io
  else .ok parts.flatten

end Compression

end KeyedState
