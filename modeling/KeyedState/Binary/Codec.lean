import KeyedState.Bytes

/-!
# Binary codecs

A codec writes a value as bytes and reads one value off the front of a byte
string, keeping what follows. Its law travels with it: what was written reads
back in front of any suffix (`Codec.decode_encode`). A length is written as an
eight-byte word, so a value is only promised to read back when it `fits`.

The layout: words low byte first; a flag is one byte, 0 or 1; a character is its
UTF-8 bytes; text and sequences follow their length; an optional value follows a
flag; a product is its parts in order.
-/

namespace KeyedState.Binary

/-- A writer and a reader of `α`, and the law that ties them. -/
structure Codec (α : Type) where
  /-- The bytes of a value. -/
  encode : α → Bytes
  /-- One value off the front, and what follows it. -/
  decode : Bytes → Option (α × Bytes)
  /-- The values whose lengths fit into the words that hold them. -/
  fits : α → Prop
  /-- A written value reads back in front of any suffix. -/
  decode_encode : ∀ value suffix, fits value →
    decode (encode value ++ suffix) = some (value, suffix)

namespace Codec

variable {α β : Type}

/-- Reads a value and ignores what follows it. -/
def read (c : Codec α) (b : Bytes) : Option α := (c.decode b).map Prod.fst

/-- What was written reads back as the whole of the bytes. -/
theorem read_encode (c : Codec α) {value : α} (h : c.fits value) :
    c.read (c.encode value) = some value := by
  have := c.decode_encode value [] h
  simp only [List.append_nil] at this
  simp [read, this]

/-- The only value of the unit type takes no bytes. -/
def unit : Codec Unit where
  encode _ := []
  decode b := some ((), b)
  fits _ := True
  decode_encode _ _ _ := rfl

/-- The same bytes for another view of the values. -/
def iso (c : Codec α) (pack : α → β) (unpack : β → α)
    (pack_unpack : ∀ value, pack (unpack value) = value) : Codec β where
  encode value := c.encode (unpack value)
  decode b := (c.decode b).map fun (value, rest) => (pack value, rest)
  fits value := c.fits (unpack value)
  decode_encode value suffix h := by simp [c.decode_encode _ suffix h, pack_unpack]

/-- Accepts only the values of `c` that `view` maps to a value of `β`. -/
def partialIso (c : Codec α) (view : α → Option β) (unview : β → α)
    (view_unview : ∀ value, view (unview value) = some value) : Codec β where
  encode value := c.encode (unview value)
  decode b := (c.decode b).bind fun (value, rest) => (view value).map (·, rest)
  fits value := c.fits (unview value)
  decode_encode value suffix h := by simp [c.decode_encode _ suffix h, view_unview]

/-- A word of `width` bytes, low byte first. -/
def word (width : Nat) : Codec (BitVec (8 * width)) where
  encode value := littleEndian width value.toNat
  decode b := (splitExactly width b).map fun (front, rest) =>
    (BitVec.ofNat (8 * width) (ofLittleEndian front), rest)
  fits _ := True
  decode_encode value suffix _ := by
    have bound : value.toNat < 256 ^ width := by
      have := value.isLt
      rwa [Nat.pow_mul] at this
    have split := splitExactly_append (littleEndian width value.toNat) suffix
    rw [length_littleEndian] at split
    simp [split, ofLittleEndian_littleEndian bound]

/-- One byte. -/
def u8 : Codec UInt8 := (word 1).iso UInt8.ofBitVec UInt8.toBitVec fun _ => rfl

/-- A 32-bit word. -/
def u32 : Codec UInt32 := (word 4).iso UInt32.ofBitVec UInt32.toBitVec fun _ => rfl

/-- A 64-bit word. -/
def u64 : Codec UInt64 := (word 8).iso UInt64.ofBitVec UInt64.toBitVec fun _ => rfl

/-- A flag is the byte 0 or the byte 1; other bytes are refused. -/
def bool : Codec Bool :=
  u8.partialIso (fun b => if b = 0 then some false else if b = 1 then some true else none)
    (fun b => if b then 1 else 0) (by decide)

/-- Two values, one after the other. -/
def pair (a : Codec α) (b : Codec β) : Codec (α × β) where
  encode value := a.encode value.1 ++ b.encode value.2
  decode bytes := do
    let (first, rest) ← a.decode bytes
    let (second, rest) ← b.decode rest
    return ((first, second), rest)
  fits value := a.fits value.1 ∧ b.fits value.2
  decode_encode value suffix h := by
    simp [List.append_assoc, a.decode_encode _ _ h.1, b.decode_encode _ _ h.2]

/-- An absent value is the byte 0; a present one follows the byte 1. -/
def option (c : Codec α) : Codec (Option α) where
  encode
    | none => bool.encode false
    | some value => bool.encode true ++ c.encode value
  decode bytes := do
    let (present, rest) ← bool.decode bytes
    if present then
      let (value, rest) ← c.decode rest
      return (some value, rest)
    else
      return (none, rest)
  fits value := ∀ x ∈ value, c.fits x
  decode_encode value suffix h := by
    cases value with
    | none => simp [bool.decode_encode false suffix trivial]
    | some x =>
      simp [List.append_assoc, bool.decode_encode true _ trivial,
        c.decode_encode x suffix (h x rfl)]

/-- Reads `count` values; those read so far are kept last first. -/
def decodeMany (c : Codec α) : Nat → List α → Bytes → Option (List α × Bytes)
  | 0, done, b => some (done.reverse, b)
  | count + 1, done, b =>
    match c.decode b with
    | none => none
    | some (value, rest) => decodeMany c count (value :: done) rest

/-- Values written one after the other read back in their order, behind those read before. -/
theorem decodeMany_encode (c : Codec α) (values done : List α) (suffix : Bytes)
    (h : ∀ value ∈ values, c.fits value) :
    decodeMany c values.length done (values.flatMap c.encode ++ suffix) =
      some (done.reverse ++ values, suffix) := by
  induction values generalizing done with
  | nil => simp [decodeMany]
  | cons value values ih =>
    have first := c.decode_encode value (values.flatMap c.encode ++ suffix) (h value (by simp))
    simp only [List.flatMap_cons, List.length_cons, List.append_assoc, decodeMany, first]
    rw [ih (value :: done) fun x hx => h x (by simp [hx])]
    simp

/-- A length, as a 64-bit word. -/
def length : Codec Nat where
  encode n := u64.encode (UInt64.ofNat n)
  decode b := (u64.decode b).map fun (n, rest) => (n.toNat, rest)
  fits n := n < 2 ^ 64
  decode_encode n suffix h := by
    have : (UInt64.ofNat n).toNat = n := by
      rw [UInt64.toNat_ofNat']; exact Nat.mod_eq_of_lt h
    simp [u64.decode_encode _ suffix trivial, this]

/-- The number of the values, then each of them. -/
def list (c : Codec α) : Codec (List α) where
  encode values := length.encode values.length ++ values.flatMap c.encode
  decode bytes := (length.decode bytes).bind fun (count, rest) => c.decodeMany count [] rest
  fits values := values.length < 2 ^ 64 ∧ ∀ value ∈ values, c.fits value
  decode_encode values suffix h := by
    rw [List.append_assoc, length.decode_encode _ _ h.1]
    simpa using c.decodeMany_encode values [] suffix h.2

/-- A byte string follows its length. -/
def bytes : Codec Bytes where
  encode value := length.encode value.length ++ value
  decode b := (length.decode b).bind fun (count, rest) => splitExactly count rest
  fits value := value.length < 2 ^ 64
  decode_encode value suffix h := by
    rw [List.append_assoc, length.decode_encode _ _ h]
    exact splitExactly_append value suffix

/-- The UTF-8 bytes of a text. -/
def utf8 (s : String) : Bytes := s.toUTF8.data.toList

/-- The text with the given UTF-8 bytes, if they are UTF-8. -/
def ofUtf8 (b : Bytes) : Option String := String.fromUTF8? ⟨b.toArray⟩

/-- Every text reads back from its bytes. -/
theorem ofUtf8_utf8 (s : String) : ofUtf8 (utf8 s) = some s := by
  simpa [ofUtf8, utf8, String.fromUTF8?] using ⟨s.isValidUTF8, rfl⟩

/-- Text is its UTF-8 bytes after their number. -/
def string : Codec String := bytes.partialIso ofUtf8 utf8 ofUtf8_utf8

/-- One character off the front of a UTF-8 byte string; the first four bytes decide it. -/
def decodeChar (b : Bytes) : Option (Char × Bytes) :=
  ((b.take 4).toByteArray.utf8DecodeChar? 0).map fun c => (c, b.drop c.utf8Size)

/-- The first character comes off in front of any suffix. -/
theorem decodeChar_append (c : Char) (suffix : Bytes) :
    decodeChar (String.utf8EncodeChar c ++ suffix) = some (c, suffix) := by
  have size : (String.utf8EncodeChar c).length = c.utf8Size := String.length_utf8EncodeChar c
  have small : c.utf8Size ≤ 4 := c.utf8Size_le_four
  have front : (String.utf8EncodeChar c ++ suffix).take 4 =
      String.utf8EncodeChar c ++ suffix.take (4 - c.utf8Size) := by
    rw [List.take_append, List.take_of_length_le (by omega), size]
  rw [decodeChar, front, List.toByteArray_append, ByteArray.utf8DecodeChar?_utf8EncodeChar_append,
    Option.map_some, ← size, List.drop_left]

/-- A character is its UTF-8 bytes, without a length. -/
def char : Codec Char where
  encode := String.utf8EncodeChar
  decode := decodeChar
  fits _ := True
  decode_encode c suffix _ := decodeChar_append c suffix

end Codec

/-- A numbered choice: each value belongs to one alternative and is written by it. -/
structure Alternatives (α : Type) where
  /-- The number of the alternative that a value belongs to. -/
  index : α → Nat
  /-- The bytes of a value within its alternative. -/
  encode : α → Bytes
  /-- Reads a value of the alternative with the given number. -/
  decode : Nat → Bytes → Option (α × Bytes)
  fits : α → Prop
  decode_encode : ∀ value suffix, fits value →
    decode (index value) (encode value ++ suffix) = some (value, suffix)

namespace Alternatives

variable {α β : Type}

/-- There is nothing to choose from. -/
def empty : Alternatives Empty where
  index value := nomatch value
  encode value := nomatch value
  decode _ _ := none
  fits _ := True
  decode_encode value := nomatch value

/-- One more alternative in front, which gets the number 0. -/
def cons (c : Codec α) (rest : Alternatives β) : Alternatives (α ⊕ β) where
  index
    | .inl _ => 0
    | .inr value => rest.index value + 1
  encode
    | .inl value => c.encode value
    | .inr value => rest.encode value
  decode
    | 0, b => (c.decode b).map fun (value, rest) => (.inl value, rest)
    | i + 1, b => (rest.decode i b).map fun (value, rest) => (.inr value, rest)
  fits
    | .inl value => c.fits value
    | .inr value => rest.fits value
  decode_encode value suffix h := by
    cases value with
    | inl value => simp [c.decode_encode value suffix h]
    | inr value => simp [rest.decode_encode value suffix h]

/-- The number of the alternative as a 32-bit word, then the value within it. -/
def codec (a : Alternatives α) : Codec α where
  encode value := Codec.u32.encode (UInt32.ofNat (a.index value)) ++ a.encode value
  decode b := (Codec.u32.decode b).bind fun (i, rest) => a.decode i.toNat rest
  fits value := a.index value < 2 ^ 32 ∧ a.fits value
  decode_encode value suffix h := by
    have : (UInt32.ofNat (a.index value)).toNat = a.index value := by
      rw [UInt32.toNat_ofNat']; exact Nat.mod_eq_of_lt h.1
    simp [List.append_assoc, Codec.u32.decode_encode _ _ trivial, this,
      a.decode_encode value suffix h.2]

end Alternatives

end KeyedState.Binary
