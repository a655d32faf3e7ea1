import KeyedState.Bytes

/-!
# The 32-bit Murmur3 hash

The hash by which keys are spread over key groups. It takes the data in blocks of
four bytes, low byte first, absorbs each block into a 32-bit word, mixes in what
remains of one to three bytes and the length, and finishes with an avalanche. Every
step is a bijection of the word it works on.
-/

namespace KeyedState.Murmur3

/-- Rotation to the left by `n` bits, for `n` between 1 and 31. -/
def rotateLeft (x n : UInt32) : UInt32 := (x <<< n) ||| (x >>> (32 - n))

/-- A block before it is absorbed. -/
def scramble (k : UInt32) : UInt32 := rotateLeft (k * 0xCC9E2D51) 15 * 0x1B873593

/-- The state after a full block. -/
def absorb (h k : UInt32) : UInt32 := rotateLeft (h ^^^ scramble k) 13 * 5 + 0xE6546B64

/-- The word of at most four bytes, low byte first. -/
def blockWord (b : Bytes) : UInt32 := UInt32.ofNat (ofLittleEndian b)

/-- The state after all blocks and the rest of fewer than four bytes. -/
def absorbAll (h : UInt32) : Bytes → UInt32
  | a :: b :: c :: d :: rest => absorbAll (absorb h (blockWord [a, b, c, d])) rest
  | rest => if rest.isEmpty then h else h ^^^ scramble (blockWord rest)

/-- Exclusive or with the word shifted to the right by `n` bits. -/
def xorShift (h n : UInt32) : UInt32 := h ^^^ (h >>> n)

/-- The final avalanche. -/
def avalanche (h : UInt32) : UInt32 :=
  xorShift (xorShift (xorShift h 16 * 0x85EBCA6B) 13 * 0xC2B2AE35) 16

/-- The hash of `data` from the given seed. -/
def hash (seed : UInt32) (data : Bytes) : UInt32 :=
  avalanche (absorbAll seed data ^^^ UInt32.ofNat data.length)

/-- Reference values for the empty string, a rest of one byte and one full block. -/
example : hash 0 [] = 0 ∧ hash 1 [] = 0x514E28B7 ∧ hash 0 [0x21] = 0x72661CF4 ∧
    hash 0 [0x21, 0x43, 0x65, 0x87] = 0xF55B516B := by decide +kernel

end KeyedState.Murmur3
