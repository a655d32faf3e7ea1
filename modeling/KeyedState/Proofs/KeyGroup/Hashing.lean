import KeyedState.KeyGroup.Assignment
import Mathlib.Data.List.Basic
import Mathlib.Data.Nat.ModEq
import Mathlib.Data.Nat.Prime.Basic

/-!
# What the hash tells apart

The hash of a byte string is a 32-bit word, so most byte strings share theirs with others. But no
step on the way to it loses anything of the word it works on: multiplications by odd words
(`mul_injective_of_odd`), rotations (`rotateLeft_injective`) and shifts that are combined with the
word itself (`xorShift_injective`) can all be undone. Once two states differ, they stay apart
whatever is absorbed after that (`absorbAll_inj_state`), and what makes them differ is a single
block (`absorbAll_inj_block`).

Main statement: `hash_tells_blocks_apart`.
-/

namespace KeyedState.Murmur3

open Binary (Codec)

/-! ## Steps on a word -/

/-- Multiplication by an odd word can be undone. -/
theorem mul_injective_of_odd {c : UInt32} (odd : c.toNat % 2 = 1) :
    Function.Injective fun x => x * c := by
  intro x y same
  have coprime : Nat.gcd (2 ^ 32) c.toNat = 1 :=
    Nat.Coprime.pow_left 32 (Nat.coprime_two_left.2 (Nat.odd_iff.2 odd))
  have product : x.toNat * c.toNat ≡ y.toNat * c.toNat [MOD 2 ^ 32] := by
    have products := congrArg UInt32.toNat same
    rwa [UInt32.toNat_mul, UInt32.toNat_mul] at products
  have value := Nat.ModEq.cancel_right_of_coprime coprime product
  exact UInt32.toNat_inj.1 (value.eq_of_lt_of_lt x.toNat_lt y.toNat_lt)

/-- The bit at a place goes up by the given number of places, around the end of the word. -/
theorem getLsbD_rotateLeft {width n i : Nat} (x : BitVec width) (hn : n < width) (hi : i < width) :
    (x.rotateLeft n).getLsbD ((i + n) % width) = x.getLsbD i := by
  rw [BitVec.getLsbD_rotateLeft_of_le hn]
  rcases Nat.lt_or_ge (i + n) width with inside | around
  · rw [Nat.mod_eq_of_lt inside, decide_eq_false (by omega), decide_eq_true inside,
      Nat.add_sub_cancel]
    rfl
  · have place : (i + n) % width = i + n - width := by
      rw [Nat.mod_eq_sub_mod around, Nat.mod_eq_of_lt (by omega)]
    rw [place, decide_eq_true (by omega)]
    show x.getLsbD _ = _
    congr 1
    omega

theorem xorShift_xor (x y n : UInt32) :
    xorShift (x ^^^ y) n = xorShift x n ^^^ xorShift y n := by
  rw [xorShift, xorShift, xorShift, UInt32.shiftRight_xor]
  ac_rfl

section Shifts

variable {n : UInt32} (positive : 0 < n.toNat) (bounded : n.toNat < 32)
include positive bounded

theorem toBitVec_rotateLeft (x : UInt32) :
    (rotateLeft x n).toBitVec = x.toBitVec.rotateLeft n.toNat := by
  have rest : (32 - n).toNat = 32 - n.toNat := by
    apply UInt32.toNat_sub_of_le
    rw [UInt32.le_iff_toNat_le]
    exact Nat.le_of_lt bounded
  have width : BitVec.toNat (32 : BitVec 32) = 32 := rfl
  rw [rotateLeft, BitVec.rotateLeft_def, Nat.mod_eq_of_lt bounded]
  simp only [UInt32.toBitVec_or, UInt32.toBitVec_shiftLeft, UInt32.toBitVec_shiftRight,
    BitVec.shiftLeft_eq', BitVec.ushiftRight_eq', BitVec.toNat_umod, UInt32.toNat_toBitVec, rest,
    width]
  rw [Nat.mod_eq_of_lt bounded, Nat.mod_eq_of_lt (by omega)]

/-- A rotation can be undone. -/
theorem rotateLeft_injective : Function.Injective fun x => rotateLeft x n := by
  intro x y same
  have words : x.toBitVec.rotateLeft n.toNat = y.toBitVec.rotateLeft n.toNat := by
    rw [← toBitVec_rotateLeft positive bounded x, ← toBitVec_rotateLeft positive bounded y]
    exact congrArg UInt32.toBitVec same
  apply UInt32.toBitVec_inj.1
  apply BitVec.eq_of_getLsbD_eq
  intro i hi
  rw [← getLsbD_rotateLeft x.toBitVec bounded hi, words, getLsbD_rotateLeft _ bounded hi]

/-- No word but zero stays the same when it is shifted to the right. -/
theorem eq_zero_of_xorShift {x : UInt32} (zero : xorShift x n = 0) : x = 0 := by
  have shifted : x.toNat = x.toNat / 2 ^ n.toNat := by
    have values := congrArg UInt32.toNat (UInt32.xor_eq_zero_iff.1 zero)
    rwa [UInt32.toNat_shiftRight, Nat.mod_eq_of_lt bounded, Nat.shiftRight_eq_div_pow] at values
  by_contra nonzero
  have smaller : x.toNat / 2 ^ n.toNat < x.toNat :=
    Nat.div_lt_self (Nat.pos_of_ne_zero fun zero => nonzero (UInt32.toNat_inj.1 zero))
      (Nat.one_lt_two_pow (Nat.ne_of_gt positive))
  omega

/-- Exclusive or with the shifted word can be undone. -/
theorem xorShift_injective : Function.Injective fun x => xorShift x n := by
  intro x y same
  -- what two words differ in is shifted like a word of its own
  have difference : xorShift (x ^^^ y) n = 0 := by
    rw [xorShift_xor]
    exact UInt32.xor_eq_zero_iff.2 same
  exact UInt32.xor_eq_zero_iff.1 (eq_zero_of_xorShift positive bounded difference)

end Shifts

theorem scramble_injective : Function.Injective scramble := by
  have first : Function.Injective fun k : UInt32 => k * 0xCC9E2D51 := mul_injective_of_odd rfl
  have turned : Function.Injective fun k => rotateLeft k 15 :=
    rotateLeft_injective (by decide) (by decide)
  have second : Function.Injective fun k : UInt32 => k * 0x1B873593 := mul_injective_of_odd rfl
  exact second.comp (turned.comp first)

/-- What becomes of a state into which a block has been mixed can be undone. -/
theorem stir_injective :
    Function.Injective fun x : UInt32 => rotateLeft x 13 * 5 + 0xE6546B64 := by
  have turned : Function.Injective fun x => rotateLeft x 13 :=
    rotateLeft_injective (by decide) (by decide)
  have scaled : Function.Injective fun x : UInt32 => x * 5 := mul_injective_of_odd rfl
  intro x y same
  exact turned (scaled ((UInt32.add_left_inj _).1 same))

section Absorb

variable {h h' k k' : UInt32}

theorem absorb_inj_state : absorb h k = absorb h' k ↔ h = h' := by
  rw [absorb, absorb, stir_injective.eq_iff, UInt32.xor_left_inj]

theorem absorb_inj_block : absorb h k = absorb h k' ↔ k = k' := by
  rw [absorb, absorb, stir_injective.eq_iff, UInt32.xor_right_inj, scramble_injective.eq_iff]

end Absorb

theorem avalanche_injective : Function.Injective avalanche := by
  have by16 : Function.Injective fun h => xorShift h 16 :=
    xorShift_injective (by decide) (by decide)
  have by13 : Function.Injective fun h => xorShift h 13 :=
    xorShift_injective (by decide) (by decide)
  have first : Function.Injective fun h : UInt32 => h * 0x85EBCA6B := mul_injective_of_odd rfl
  have second : Function.Injective fun h : UInt32 => h * 0xC2B2AE35 := mul_injective_of_odd rfl
  exact by16.comp (second.comp (by13.comp (first.comp by16)))

/-! ## Blocks -/

/-- A byte string is shorter than a block, or it is a block and what follows it. -/
@[elab_as_elim]
theorem blocks_induction {motive : Bytes → Prop}
    (short : ∀ rest, rest.length < 4 → motive rest)
    (full : ∀ block rest, block.length = 4 → motive rest → motive (block ++ rest))
    (data : Bytes) : motive data := by
  induction length : data.length using Nat.strongRecOn generalizing data with
  | ind n ih =>
    subst length
    rcases Nat.lt_or_ge data.length 4 with less | enough
    · exact short data less
    · rw [← List.take_append_drop 4 data]
      apply full
      · rw [List.length_take, Nat.min_eq_left enough]
      · exact ih _ (by rw [List.length_drop]; omega) _ rfl

section Blocks

variable {h h' seed : UInt32} {front block block' rest : Bytes}

theorem absorbAll_nil : absorbAll h [] = h := rfl

/-- A rest is mixed into the state. So is no rest at all, whose word is zero and is scrambled to
zero. -/
theorem absorbAll_of_short (short : rest.length < 4) :
    absorbAll h rest = h ^^^ scramble (blockWord rest) := by
  unfold absorbAll
  split
  · simp only [List.length_cons] at short
    omega
  · split
    · next void =>
      rw [List.isEmpty_iff.1 void]
      exact UInt32.xor_zero.symm
    · rfl

theorem absorbAll_of_full (full : block.length = 4) :
    absorbAll h (block ++ rest) = absorbAll (absorb h (blockWord block)) rest := by
  obtain ⟨a, b, c, d, rfl⟩ := List.length_eq_four.1 full
  -- at once, the two states would be compared by unfolding the arithmetic of words
  conv => lhs; unfold absorbAll
  rfl

/-- Full blocks are absorbed before what follows them. -/
theorem absorbAll_append (aligned : 4 ∣ front.length) :
    absorbAll h (front ++ rest) = absorbAll (absorbAll h front) rest := by
  induction front using blocks_induction generalizing h with
  | short front less =>
    obtain rfl : front = [] :=
      List.eq_nil_of_length_eq_zero (Nat.eq_zero_of_dvd_of_lt aligned less)
    rw [List.nil_append, absorbAll_nil]
  | full block front full ih =>
    rw [List.length_append, full] at aligned
    rw [List.append_assoc, absorbAll_of_full full, absorbAll_of_full full]
    exact ih ((Nat.dvd_add_right (Nat.dvd_refl 4)).1 aligned)

/-- States that differ stay apart, whatever they absorb. -/
theorem absorbAll_inj_state : absorbAll h rest = absorbAll h' rest ↔ h = h' := by
  induction rest using blocks_induction generalizing h h' with
  | short rest less =>
    rw [absorbAll_of_short less, absorbAll_of_short less]
    exact UInt32.xor_left_inj _
  | full block rest full ih =>
    rw [absorbAll_of_full full, absorbAll_of_full full, ih, absorb_inj_state]

theorem ofLittleEndian_lt_two_pow (bounded : block.length ≤ 4) : ofLittleEndian block < 2 ^ 32 :=
  calc
    ofLittleEndian block < 256 ^ block.length := ofLittleEndian_lt block
    _ ≤ 256 ^ 4 := Nat.pow_le_pow_right (by decide) bounded
    _ = 2 ^ 32 := by decide

theorem blockWord_inj (same : block.length = block'.length) (bounded : block.length ≤ 4) :
    blockWord block = blockWord block' ↔ block = block' := by
  refine ⟨fun words => ?_, fun equal => congrArg blockWord equal⟩
  have digits : ofLittleEndian block = ofLittleEndian block' := by
    have values := congrArg UInt32.toNat words
    rwa [blockWord, blockWord, UInt32.toNat_ofNat_of_lt' (ofLittleEndian_lt_two_pow bounded),
      UInt32.toNat_ofNat_of_lt' (ofLittleEndian_lt_two_pow (same ▸ bounded))] at values
  rw [← littleEndian_ofLittleEndian block, ← littleEndian_ofLittleEndian block', same, digits]

/-- Blocks of one length that differ are absorbed into states that differ. -/
theorem absorbAll_inj_block (same : block.length = block'.length) (bounded : block.length ≤ 4) :
    absorbAll h block = absorbAll h block' ↔ block = block' := by
  rcases Nat.lt_or_eq_of_le bounded with short | full
  · rw [absorbAll_of_short short, absorbAll_of_short (same ▸ short), UInt32.xor_right_inj,
      scramble_injective.eq_iff, blockWord_inj same bounded]
  · rw [← List.append_nil block, ← List.append_nil block', absorbAll_of_full full,
      absorbAll_of_full (same ▸ full), absorbAll_inj_state, absorb_inj_block,
      blockWord_inj same bounded, List.append_nil, List.append_nil]

/-- A full block is absorbed before what follows it; behind any other nothing follows. -/
theorem absorbAll_block_append (whole : block.length = 4 ∨ rest = []) :
    absorbAll h (block ++ rest) = absorbAll (absorbAll h block) rest := by
  rcases whole with full | rfl
  · exact absorbAll_append ⟨1, full⟩
  · rw [List.append_nil, absorbAll_nil]

/-! ## Hashes -/

/-- Byte strings of one length have one hash if and only if they are absorbed into one state. -/
theorem hash_inj_of_length {a b : Bytes} (same : a.length = b.length) :
    hash seed a = hash seed b ↔ absorbAll seed a = absorbAll seed b := by
  rw [hash, hash, avalanche_injective.eq_iff, same, UInt32.xor_left_inj]

/-- Blocks behind the same full blocks and before the same rest are told apart. -/
theorem hash_inj_block (aligned : 4 ∣ front.length) (same : block.length = block'.length)
    (bounded : block.length ≤ 4) (whole : block.length = 4 ∨ rest = []) :
    hash seed (front ++ (block ++ rest)) = hash seed (front ++ (block' ++ rest)) ↔
      block = block' := by
  have length : (front ++ (block ++ rest)).length = (front ++ (block' ++ rest)).length := by
    simp only [List.length_append, same]
  rw [hash_inj_of_length length, absorbAll_append aligned, absorbAll_append aligned,
    absorbAll_block_append whole, absorbAll_block_append (same ▸ whole), absorbAll_inj_state,
    absorbAll_inj_block same bounded]

end Blocks

/-- Byte strings of one length that differ, but neither before nor behind the block of the given
index. The last block may be one of fewer than four bytes. -/
structure DifferInBlock (n : Nat) (a b : Bytes) : Prop where
  length : a.length = b.length
  before : a.take (4 * n) = b.take (4 * n)
  behind : a.drop (4 * n + 4) = b.drop (4 * n + 4)
  differ : a ≠ b

namespace DifferInBlock

variable {n : Nat} {a b : Bytes}

theorem cut (n : Nat) (a : Bytes) :
    a.take (4 * n) ++ ((a.drop (4 * n)).take 4 ++ a.drop (4 * n + 4)) = a := by
  rw [← List.drop_drop, List.take_append_drop, List.take_append_drop]

/-- A block behind the end would leave no place to differ in. -/
theorem lt_length (apart : DifferInBlock n a b) : 4 * n < a.length := by
  by_contra ended
  have ended := Nat.not_lt.1 ended
  apply apart.differ
  rw [← List.take_of_length_le ended, apart.before, List.take_of_length_le (apart.length ▸ ended)]

theorem hash_ne (apart : DifferInBlock n a b) (seed : UInt32) : hash seed a ≠ hash seed b := by
  have aligned : 4 ∣ (a.take (4 * n)).length := by
    rw [List.length_take, Nat.min_eq_left (Nat.le_of_lt apart.lt_length)]
    exact Nat.dvd_mul_right 4 n
  have length : ((a.drop (4 * n)).take 4).length = ((b.drop (4 * n)).take 4).length := by
    simp only [List.length_take, List.length_drop, apart.length]
  have whole : ((a.drop (4 * n)).take 4).length = 4 ∨ a.drop (4 * n + 4) = [] := by
    rw [List.length_take, List.length_drop, List.drop_eq_nil_iff]
    omega
  intro same
  -- cut at the block, the strings have their fronts and their rests in common
  rw [← cut n a, ← cut n b, ← apart.before, ← apart.behind,
    hash_inj_block aligned length (List.length_take_le 4 _) whole] at same
  apply apart.differ
  rw [← cut n a, ← cut n b, apart.before, same, apart.behind]

end DifferInBlock

theorem encode_u32_injective : Function.Injective Codec.u32.encode := by
  intro v w same
  have read := congrArg Codec.u32.read same
  rw [Codec.read_encode Codec.u32 trivial, Codec.read_encode Codec.u32 trivial] at read
  exact Option.some.inj read

/-- No two words in the same place have one hash. -/
theorem hash_encode_u32_injective (seed : UInt32) {front : Bytes} (aligned : 4 ∣ front.length)
    (rest : Bytes) :
    Function.Injective fun v => hash seed (front ++ (Codec.u32.encode v ++ rest)) := by
  have width : ∀ v : UInt32, (Codec.u32.encode v).length = 4 := fun v =>
    length_littleEndian 4 v.toNat
  intro v w same
  have length := (width v).trans (width w).symm
  apply encode_u32_injective
  exact (hash_inj_block aligned length (Nat.le_of_eq (width v)) (.inl (width v))).1 same

theorem hash_u32_eq (v : Schema.u32.Val) :
    Schema.u32.hash v = hash 0 ([] ++ (Codec.u32.encode (UInt32.ofBitVec v) ++ [])) := by
  rw [List.nil_append, List.append_nil]
  rfl

/-- **The hash loses nothing on a single block.** Whatever the seed, byte strings of one length that
differ in one block, be it a full one or a rest of fewer than four bytes, have different hashes. So
have two 32-bit words with the same full blocks in front of them and the same bytes behind, and two
keys that are 32-bit words. -/
theorem hash_tells_blocks_apart :
    (∀ seed n a b, DifferInBlock n a b → hash seed a ≠ hash seed b) ∧
    (∀ (seed : UInt32) (front rest : Bytes), 4 ∣ front.length → ∀ v w : UInt32, v ≠ w →
      hash seed (front ++ Codec.u32.encode v ++ rest) ≠
        hash seed (front ++ Codec.u32.encode w ++ rest)) ∧
    ∀ v w : Schema.u32.Val, v ≠ w → Schema.u32.hash v ≠ Schema.u32.hash w := by
  refine ⟨fun seed n a b apart => apart.hash_ne seed, ?_, ?_⟩
  · intro seed front rest aligned v w apart
    rw [List.append_assoc, List.append_assoc]
    exact (hash_encode_u32_injective seed aligned rest).ne apart
  · intro v w apart same
    have aligned : 4 ∣ ([] : Bytes).length := Nat.dvd_zero 4
    rw [hash_u32_eq, hash_u32_eq] at same
    exact apart (UInt32.ofBitVec.inj (hash_encode_u32_injective 0 aligned [] same))

/-- A block in the middle, a rest of two bytes, two words of which the one is the other's bytes in
another order, and two keys. -/
theorem hash_tells_blocks_apart_middle :
    (DifferInBlock 1 [1, 2, 3, 4, 5, 6, 7, 8, 9] [1, 2, 3, 4, 5, 0, 7, 0, 9] ∧
      hash 7 [1, 2, 3, 4, 5, 6, 7, 8, 9] ≠ hash 7 [1, 2, 3, 4, 5, 0, 7, 0, 9]) ∧
    (DifferInBlock 1 [1, 2, 3, 4, 5, 6] [1, 2, 3, 4, 5, 7] ∧
      hash 7 [1, 2, 3, 4, 5, 6] ≠ hash 7 [1, 2, 3, 4, 5, 7]) ∧
    (4 ∣ ([1, 2, 3, 4] : Bytes).length ∧ (0x01020304 : UInt32) ≠ 0x04030201 ∧
      hash 7 ([1, 2, 3, 4] ++ Codec.u32.encode 0x01020304 ++ [9]) ≠
        hash 7 ([1, 2, 3, 4] ++ Codec.u32.encode 0x04030201 ++ [9])) ∧
    ((0 : Schema.u32.Val) ≠ 0x80000000 ∧
      Schema.u32.hash (0 : Schema.u32.Val) ≠ Schema.u32.hash (0x80000000 : Schema.u32.Val)) := by
  obtain ⟨blocks, words, keys⟩ := hash_tells_blocks_apart
  have middle : DifferInBlock 1 [1, 2, 3, 4, 5, 6, 7, 8, 9] [1, 2, 3, 4, 5, 0, 7, 0, 9] :=
    ⟨rfl, rfl, rfl, by decide⟩
  have last : DifferInBlock 1 [1, 2, 3, 4, 5, 6] [1, 2, 3, 4, 5, 7] := ⟨rfl, rfl, rfl, by decide⟩
  have aligned : 4 ∣ ([1, 2, 3, 4] : Bytes).length := by decide
  exact ⟨⟨middle, blocks 7 1 _ _ middle⟩, ⟨last, blocks 7 1 _ _ last⟩,
    ⟨aligned, by decide, words 7 [1, 2, 3, 4] [9] aligned _ _ (by decide)⟩,
    ⟨by decide, keys 0 0x80000000 (by decide)⟩⟩

end KeyedState.Murmur3
