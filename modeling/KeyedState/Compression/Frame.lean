import KeyedState.Compression.Crc32c
import KeyedState.Compression.Snappy

/-!
# Framed streams

A compressed stream is an identifier followed by chunks. Each chunk holds its type,
its length, and for data the masked checksum of at most 65536 bytes of content,
which stand there compressed or as they are. A reader goes through the chunks in
order; what it has read before the first broken chunk stays read.
-/

namespace KeyedState.Frame

/-- The most content that one chunk holds. -/
def chunkSize : Nat := 65536

/-- The first chunk of every stream that is not empty. -/
def identifier : Bytes := [0xFF, 0x06, 0x00, 0x00, 0x73, 0x4E, 0x61, 0x50, 0x70, 0x59]

/-- A chunk of the given type. -/
def chunk (type : UInt8) (body : Bytes) : Bytes := type :: littleEndian 3 body.length ++ body

/-- The chunk of a block: compressed if that saves more than an eighth and reads back, else as it
is. -/
def encodeBlock (block : Bytes) : Bytes :=
  let checksum := littleEndian 4 (Crc32c.masked block).toNat
  let packed := Snappy.compress block
  if packed.length < block.length - block.length / 8 ∧
      Snappy.decompress chunkSize packed = some block then
    chunk 0x00 (checksum ++ packed)
  else
    chunk 0x01 (checksum ++ block)

/-- The content in blocks, all full but the last. -/
def blocks (data : Bytes) : List Bytes :=
  if data.isEmpty then [] else data.take chunkSize :: blocks (data.drop chunkSize)
termination_by data.length
decreasing_by
  rename_i nonempty
  have : data.length ≠ 0 := by simpa using nonempty
  have : chunkSize = 65536 := rfl
  rw [List.length_drop]
  omega

/-- The stream of the content, in parts as they are passed on: a part with each block. There are
none for no content. -/
def encodeParts (data : Bytes) : List Bytes :=
  match blocks data with
  | [] => []
  | first :: rest => (identifier ++ encodeBlock first) :: rest.map encodeBlock

/-- The stream of the content. -/
def encode (data : Bytes) : Bytes := (encodeParts data).flatten

/-- What a reader gets from a stream: its content up to the first fault, and whether there is
none. -/
structure Content where
  bytes : Bytes
  intact : Bool
  deriving DecidableEq, Repr

/-- The content of the body of a data chunk, if its checksum is right. -/
def checked (checksum : Bytes) (content : Option Bytes) : Option Bytes := do
  let content ← content
  if ofLittleEndian checksum = (Crc32c.masked content).toNat then some content else none

/-- The content of a chunk. Data is compressed (0) or as it is (1); the identifier may be repeated
(255); types from 128 are skipped and others are unknown. -/
def chunkContent (type : UInt8) (body : Bytes) : Option Bytes :=
  if type = 0xFF then
    if chunk type body = identifier then some [] else none
  else if 0x80 ≤ type then some []
  else if 0x02 ≤ type then none
  else do
    let (checksum, data) ← splitExactly 4 body
    if type = 0x00 then checked checksum (Snappy.decompress chunkSize data)
    else if chunkSize < data.length then none
    else checked checksum (some data)

/-- The longest body of a chunk: a checksum and the longest compressed form of a full block. -/
def longestBody : Nat := 76490

/-- The chunk in front: its type, its body and what follows it. -/
def splitChunk (b : Bytes) : Option (UInt8 × Bytes × Bytes) := do
  match ← splitExactly 4 b with
  | (type :: length, rest) =>
    let n := ofLittleEndian length
    if longestBody < n then none
    else
      let (body, rest) ← splitExactly n rest
      return (type, body, rest)
  | _ => none

/-- Reads the chunks of a stream, of which the first has to be the identifier. The parts read so
far are kept last first. A chunk takes four bytes or more, so the length of the stream is fuel
enough. -/
def readChunks : Nat → (started : Bool) → Bytes → List Bytes → Content
  | _, _, [], done => ⟨done.reverse.flatten, true⟩
  | 0, _, _ :: _, done => ⟨done.reverse.flatten, false⟩
  | fuel + 1, started, b@(_ :: _), done =>
    match splitChunk b with
    | none => ⟨done.reverse.flatten, false⟩
    | some (type, body, rest) =>
      if !started && type != 0xFF then ⟨done.reverse.flatten, false⟩
      else
        match chunkContent type body with
        | none => ⟨done.reverse.flatten, false⟩
        | some content => readChunks fuel true rest (content :: done)

/-- Reads a stream. -/
def decode (b : Bytes) : Content := readChunks b.length false b []

end KeyedState.Frame
