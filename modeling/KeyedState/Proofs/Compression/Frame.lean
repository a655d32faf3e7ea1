import KeyedState.Compression.Stream

/-!
# Framed streams read back

The stream of any content reads back as the content, with no fault (`Frame.decode_encode`): the
content is cut into blocks, the chunk of a block reads back as the block, and chunks are read in
the order in which they were written. `Compression.decode_encode` is the same for either
setting of the compression.
-/

namespace KeyedState.Frame

/-! ## Blocks -/

/-- The blocks are the whole content, in order. -/
theorem flatten_blocks (data : Bytes) : (blocks data).flatten = data := by
  induction data using blocks.induct with
  | case1 data empty => rw [blocks, if_pos empty]; simpa using empty.symm
  -- a block is cut off the front, and the rest is shorter
  | case2 data nonempty ih =>
      rw [blocks, if_neg nonempty, List.flatten_cons, ih, List.take_append_drop]

/-- No block is longer than a chunk may be. -/
theorem length_of_mem_blocks {data block : Bytes} (member : block ∈ blocks data) :
    block.length ≤ chunkSize := by
  induction data using blocks.induct with
  | case1 data empty => rw [blocks, if_pos empty] at member; cases member
  | case2 data nonempty ih =>
      rw [blocks, if_neg nonempty] at member
      rcases List.mem_cons.1 member with rfl | member
      · exact List.length_take_le chunkSize data
      · exact ih member

/-! ## One chunk -/

/-- A chunk is split off by its length. -/
theorem splitChunk_chunk (type : UInt8) {body : Bytes} (short : body.length ≤ longestBody)
    (rest : Bytes) : splitChunk (chunk type body ++ rest) = some (type, body, rest) := by
  have bound : body.length < 256 ^ 3 := Nat.lt_of_le_of_lt short (by decide)
  have header : splitExactly 4 (type :: littleEndian 3 body.length ++ (body ++ rest)) =
      some (type :: littleEndian 3 body.length, body ++ rest) := by
    have split := splitExactly_append (type :: littleEndian 3 body.length) (body ++ rest)
    rwa [List.length_cons, length_littleEndian] at split
  rw [chunk, List.append_assoc, splitChunk, header]
  simp [ofLittleEndian_littleEndian bound, Nat.not_lt.2 short, splitExactly_append]

/-- The content of a data chunk passes its check. -/
theorem checked_masked (content : Bytes) :
    checked (littleEndian 4 (Crc32c.masked content).toNat) (some content) = some content := by
  have bound : (Crc32c.masked content).toNat < 256 ^ 4 := by
    have := (Crc32c.masked content).toNat_lt
    omega
  rw [checked, Option.bind_eq_bind, Option.bind_some, ofLittleEndian_littleEndian bound, if_pos rfl]

/-- A checksum comes off the front of a body. -/
theorem splitExactly_checksum (checksum : Nat) (data : Bytes) :
    splitExactly 4 (littleEndian 4 checksum ++ data) = some (littleEndian 4 checksum, data) := by
  have split := splitExactly_append (littleEndian 4 checksum) data
  rwa [length_littleEndian] at split

/-- The chunk of a block is split off and reads back as the block. -/
theorem encodeBlock_reads_back {block : Bytes} (short : block.length ≤ chunkSize) (rest : Bytes) :
    ∃ type body, splitChunk (encodeBlock block ++ rest) = some (type, body, rest) ∧
      chunkContent type body = some block := by
  have size : chunkSize = 65536 := rfl
  have longest : longestBody = 76490 := rfl
  simp only [encodeBlock]
  split
  -- packed only where that is shorter, so the chunk is no longer than one may be
  · next packed =>
      obtain ⟨saves, unpacks⟩ := packed
      refine ⟨_, _, splitChunk_chunk 0x00 ?_ rest, ?_⟩
      · rw [List.length_append, length_littleEndian]
        omega
      · simp [chunkContent, splitExactly_checksum, unpacks, checked_masked]
  · refine ⟨_, _, splitChunk_chunk 0x01 ?_ rest, ?_⟩
    · rw [List.length_append, length_littleEndian]
      omega
    · simp [chunkContent, splitExactly_checksum, Nat.not_lt.2 short, checked_masked]

/-- The chunk of a block is not empty. -/
theorem length_encodeBlock_pos (block : Bytes) : 0 < (encodeBlock block).length := by
  simp only [encodeBlock]
  split <;> simp [chunk]

/-! ## Streams -/

/-- A reader that meets a good chunk goes on behind it. -/
theorem readChunks_of_split {fuel : Nat} {started : Bool} {b body rest content : Bytes}
    {type : UInt8} {done : List Bytes} (split : splitChunk b = some (type, body, rest))
    (starts : started = true ∨ type = 0xFF) (good : chunkContent type body = some content)
    (nonempty : b ≠ []) :
    readChunks (fuel + 1) started b done = readChunks fuel true rest (content :: done) := by
  cases b with
  | nil => exact absurd rfl nonempty
  | cons x b =>
      rw [readChunks, split]
      rcases starts with rfl | rfl <;> simp [good]

/-- Chunks of blocks are read in their order, behind what was read before. -/
theorem readChunks_encodeBlocks (blocks done : List Bytes)
    (short : ∀ b ∈ blocks, b.length ≤ chunkSize) {fuel : Nat}
    (enough : (blocks.map encodeBlock).flatten.length ≤ fuel) :
    readChunks fuel true (blocks.map encodeBlock).flatten done =
      ⟨done.reverse.flatten ++ blocks.flatten, true⟩ := by
  induction blocks generalizing done fuel with
  | nil => cases fuel <;> simp [readChunks]
  | cons block rest ih =>
      have shortBlock := short block List.mem_cons_self
      have positive := length_encodeBlock_pos block
      rw [List.map_cons, List.flatten_cons, List.length_append] at enough
      -- each chunk has a byte, so the fuel lasts
      obtain ⟨fuel, rfl⟩ : ∃ n, fuel = n + 1 := ⟨fuel - 1, by omega⟩
      obtain ⟨type, body, split, good⟩ :=
        encodeBlock_reads_back shortBlock (rest.map encodeBlock).flatten
      have nonempty : encodeBlock block ++ (rest.map encodeBlock).flatten ≠ [] := by
        intro empty
        rw [(List.append_eq_nil_iff.1 empty).1] at positive
        cases positive
      rw [List.map_cons, List.flatten_cons, readChunks_of_split split (.inl rfl) good nonempty,
        ih (block :: done) (fun b member => short b (List.mem_cons_of_mem _ member)) (by omega)]
      simp

/-- The identifier is a chunk without content. -/
theorem splitChunk_identifier (rest : Bytes) :
    splitChunk (identifier ++ rest) = some (0xFF, [0x73, 0x4E, 0x61, 0x50, 0x70, 0x59], rest) :=
  have short : ([0x73, 0x4E, 0x61, 0x50, 0x70, 0x59] : Bytes).length ≤ longestBody := by decide
  splitChunk_chunk 0xFF short rest

/-- What was written reads back, without a fault. -/
theorem decode_encode (data : Bytes) : decode (encode data) = ⟨data, true⟩ := by
  have whole := flatten_blocks data
  have short : ∀ b ∈ blocks data, b.length ≤ chunkSize := fun b => length_of_mem_blocks
  rw [encode, encodeParts, decode]
  cases cut : blocks data with
  | nil =>
      rw [cut] at whole
      simp [readChunks, ← whole]
  | cons first rest =>
      rw [cut] at whole short
      -- the identifier stands once, in front of the first block
      have stream : ((identifier ++ encodeBlock first) :: rest.map encodeBlock).flatten =
          identifier ++ ((first :: rest).map encodeBlock).flatten := by simp
      have content : chunkContent 0xFF [0x73, 0x4E, 0x61, 0x50, 0x70, 0x59] = some [] := by decide
      simp only [stream]
      rw [List.length_append, show identifier.length = 9 + 1 from rfl, Nat.add_right_comm,
        readChunks_of_split (splitChunk_identifier _) (.inr rfl) content (by simp [identifier]),
        readChunks_encodeBlocks _ _ short (by omega), whole]
      simp

end KeyedState.Frame

namespace KeyedState.Compression

/-- Under either setting, what was passed on reads back, without a fault. -/
theorem decode_encode (c : Compression) (data : Bytes) :
    c.decode (c.encode data) = ⟨data, true⟩ := by
  cases c with
  | uncompressed => simp [decode, encode, encodeParts]
  | snappy => exact Frame.decode_encode data

end KeyedState.Compression
