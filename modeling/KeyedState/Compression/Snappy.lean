import KeyedState.Bytes

/-!
# Snappy blocks

A compressed block is the length of its content followed by elements. A literal
carries bytes; a copy repeats `length` bytes that start `offset` bytes back, and may
overlap what it writes. `decompress` is strict: offsets stay inside what was written,
and the content has the announced length.

`compress` looks for repetitions by a hash table of the last position of each
four-byte word, and skips ahead faster the longer it finds nothing.
-/

namespace KeyedState.Snappy

/-- A part of a compressed block. -/
inductive Element where
  | literal (bytes : Bytes)
  | copy (offset length : Nat)
  deriving DecidableEq, Repr

/-! ### Lengths in base 128 -/

/-- The digits of a number in base 128, low digit first; all but the last carry 128. -/
def encodeLength (n : Nat) : Bytes :=
  if n < 128 then [UInt8.ofNat n] else UInt8.ofNat (128 + n % 128) :: encodeLength (n / 128)
termination_by n

/-- The number whose digits stand in front, if those are at most as many as given. -/
def decodeLength : Nat → Bytes → Option (Nat × Bytes)
  | 0, _ | _, [] => none
  | digits + 1, b :: rest =>
    if b < 128 then some (b.toNat, rest)
    else (decodeLength digits rest).map fun (n, rest) => (b.toNat - 128 + 128 * n, rest)

/-- A length of 32 bits has at most this many digits. -/
def lengthDigits : Nat := 5

/-! ### Elements as bytes -/

/-- The tag of a literal of the given length, which is at least 1. -/
def literalTag (length : Nat) : Bytes :=
  let n := length - 1
  if n < 60 then [UInt8.ofNat (4 * n)]
  else if n < 256 then [4 * 60, UInt8.ofNat n]
  else (4 * 61) :: littleEndian 2 n

/-- A copy of at most eleven bytes from nearby takes two bytes, any other three. -/
def Element.encode : Element → Bytes
  | .literal bytes => literalTag bytes.length ++ bytes
  | .copy offset length =>
    if length ≤ 11 ∧ offset < 2048 then
      [UInt8.ofNat (32 * (offset / 256) + 4 * (length - 4) + 1), UInt8.ofNat offset]
    else
      UInt8.ofNat (4 * (length - 1) + 2) :: littleEndian 2 offset

/-- The length of a literal whose tag announces that `count` bytes hold it. -/
def extendedLength (count : Nat) (b : Bytes) : Option (Nat × Bytes) := do
  let (digits, rest) ← splitExactly count b
  return (ofLittleEndian digits + 1, rest)

/-- The element in front. -/
def Element.decode : Bytes → Option (Element × Bytes)
  | [] => none
  | tag :: rest => do
    let upper := tag.toNat / 4
    match tag.toNat % 4 with
    | 0 =>
      let (length, rest) ← if upper < 60 then some (upper + 1, rest)
        else extendedLength (upper - 59) rest
      let (bytes, rest) ← splitExactly length rest
      return (.literal bytes, rest)
    | 1 =>
      let (low, rest) ← splitExactly 1 rest
      return (.copy (tag.toNat / 32 * 256 + ofLittleEndian low) (4 + upper % 8), rest)
    | 2 =>
      let (offset, rest) ← splitExactly 2 rest
      return (.copy (ofLittleEndian offset) (upper + 1), rest)
    | _ =>
      let (offset, rest) ← splitExactly 4 rest
      return (.copy (ofLittleEndian offset) (upper + 1), rest)

/-! ### What elements write -/

/-- Appends `length` bytes, each a copy of the one `offset` bytes before it. -/
def repeatFrom (offset : Nat) : Nat → Array UInt8 → Array UInt8
  | 0, out => out
  | length + 1, out => repeatFrom offset length (out.push (out.getD (out.size - offset) 0))

/-- The output after one more element. -/
def Element.write (out : Array UInt8) : Element → Option (Array UInt8)
  | .literal bytes => some (out.appendList bytes)
  | .copy offset length =>
    if offset = 0 ∨ out.size < offset then none else some (repeatFrom offset length out)

/-- The output after all elements. Every element takes at least one byte, so the length of the
input is fuel enough. -/
def writeAll : Nat → Bytes → Array UInt8 → Option (Array UInt8)
  | _, [], out => some out
  | 0, _ :: _, _ => none
  | fuel + 1, b@(_ :: _), out =>
    match Element.decode b with
    | none => none
    | some (element, rest) =>
      match element.write out with
      | none => none
      | some out => writeAll fuel rest out

/-- The content of a block, if that is at most `limit` bytes. -/
def decompress (limit : Nat) (b : Bytes) : Option Bytes := do
  let (length, body) ← decodeLength lengthDigits b
  if limit < length then none
  else
    let out ← writeAll body.length body #[]
    if out.size = length then some out.toList else none

/-! ### Finding repetitions -/

/-- The four bytes from a position as a word, low byte first. -/
def wordAt (src : Array UInt8) (i : Nat) : UInt32 :=
  let byte := fun j => (src.getD (i + j) 0).toUInt32
  byte 0 ||| (byte 1 <<< 8) ||| (byte 2 <<< 16) ||| (byte 3 <<< 24)

/-- The logarithm of the size of the hash table for a block: 8 to 14, the first at which the table
has as many places as the block has bytes. -/
def tableBits (size : Nat) : Nat :=
  ((List.range' 8 6).find? fun bits => size ≤ 2 ^ bits).getD 14

/-- The block and the size of its hash table. -/
structure Source where
  bytes : Array UInt8
  bits : Nat

namespace Source

/-- The place in the table of the word at a position. -/
def place (src : Source) (i : Nat) : Nat :=
  ((wordAt src.bytes i * 0x1E35A7BD) >>> UInt32.ofNat (32 - src.bits)).toNat

/-- Positions from here on are not looked up. -/
def limit (src : Source) : Nat := src.bytes.size - 15

/-- The bytes from one position up to another. -/
def slice (src : Source) (first last : Nat) : Bytes := (src.bytes.extract first last).toList

/-- How many bytes agree from the two positions on. -/
def agreement (src : Source) (i j : Nat) : Nat → Nat
  | 0 => 0
  | fuel + 1 =>
    if i < src.bytes.size ∧ src.bytes.getD i 0 = src.bytes.getD j 0 then
      agreement src (i + 1) (j + 1) fuel + 1
    else
      0

end Source

/-- The last position of the words, by their place; position 0 where there is none. -/
abbrev Places := Array Nat

/-- What a search ends with: the position of a repeated word and an earlier position of it. -/
structure Match where
  position : Nat
  earlier : Nat

/-- Looks at positions from `i` on, `skip / 32` apart, for a word that occurred before. `next` is
the place of the word at `i`. -/
def search (src : Source) : Nat → Places → (i next skip : Nat) → Option Match × Places
  | 0, places, _, _, _ => (none, places)
  | fuel + 1, places, i, next, skip =>
    let step := skip / 32
    if src.limit < i + step then (none, places)
    else
      let earlier := places.getD next 0
      let places := places.setIfInBounds next i
      if wordAt src.bytes i = wordAt src.bytes earlier then (some ⟨i, earlier⟩, places)
      else search src fuel places (i + step) (src.place (i + step)) (skip + step)

/-- A copy in pieces of at most 64 bytes, none shorter than four. -/
def copyPieces (offset length : Nat) : List Element :=
  if 68 ≤ length then .copy offset 64 :: copyPieces offset (length - 64)
  else if 64 < length then [.copy offset 60, .copy offset (length - 60)]
  else [.copy offset length]
termination_by length

/-- The copies from a match on, as long as one follows right after the other, in front of those
found so far; and the position behind them. -/
def copyRun (src : Source) : Nat → Places → Match → List Element →
    Places × Nat × List Element
  | 0, places, m, done => (places, m.position, done)
  | fuel + 1, places, m, done =>
    let length := 4 + src.agreement (m.position + 4) (m.earlier + 4) src.bytes.size
    let i := m.position + length
    let done := (copyPieces (m.position - m.earlier) length).reverse ++ done
    if src.limit ≤ i then (places, i, done)
    else
      let places := places.setIfInBounds (src.place (i - 1)) (i - 1)
      let here := src.place i
      let earlier := places.getD here 0
      let places := places.setIfInBounds here i
      if wordAt src.bytes i = wordAt src.bytes earlier then
        copyRun src fuel places ⟨i, earlier⟩ done
      else
        (places, i, done)

/-- What is left from a position on as one literal, in front of the elements found so far. -/
def Source.remainder (src : Source) (start : Nat) (done : List Element) : List Element :=
  if start < src.bytes.size then .literal (src.slice start src.bytes.size) :: done else done

/-- The elements of the rest of the block from `start` on, where looking up begins at `i`, in
front of those found so far. -/
def findElements (src : Source) : Nat → Places → (start i : Nat) → List Element → List Element
  | 0, _, _, _, done => done
  | fuel + 1, places, start, i, done =>
    match search src src.bytes.size places i (src.place i) 32 with
    | (none, _) => src.remainder start done
    | (some m, places) =>
      let (places, i, done) :=
        copyRun src src.bytes.size places m (.literal (src.slice start m.position) :: done)
      if src.limit ≤ i then src.remainder i done
      else
        findElements src fuel places i (i + 1) done

/-- The elements that stand for a block; fewer than 17 bytes are one literal. -/
def elements (b : Bytes) : List Element :=
  if b.length < 17 then [.literal b]
  else
    let src : Source := ⟨b.toArray, tableBits b.length⟩
    (findElements src b.length (Array.replicate (2 ^ src.bits) 0) 0 1 []).reverse

/-- A block of at most 65536 bytes, compressed. -/
def compress (b : Bytes) : Bytes :=
  encodeLength b.length ++ (if b.isEmpty then [] else (elements b).flatMap Element.encode)

end KeyedState.Snappy
