import InOrder.Isa
import Mathlib.Algebra.Group.Int.Defs
import Mathlib.Algebra.Group.Nat.Defs
import Mathlib.Data.Bool.Basic

/-!
# Jumps in words

The offset of a jump is scattered over its word: bit `i`, for `0 < i < 21`, stands in bit `place i`.
Seven bits of opcode and five of the register fill the rest, so every word with the opcode of a
jump is the jump to its register by its offset.

* `getLsbD_jumpImmediate` and `getLsbD_encodeJump`: the two directions, bit by bit.
* `jumps_exact`: decoding undoes encoding for every offset that fits, and cuts down any other;
  encoding undoes decoding for every jump.
-/

namespace InOrder.Isa

/-- Where bit `i` of the offset stands in the word of a jump. -/
def place (i : Nat) : Nat :=
  if i < 11 then i + 20 else if i = 11 then 20 else if i < 20 then i else 31

/-- The offset that is left of `offset` in a jump: bit 0 is cleared, and of the rest the low 21 bits
are read as a signed number. -/
def carried (offset : Int) : Int := (offset - offset % 2).bmod (2 ^ 21)

theorem getLsbD_jumpImmediate (w : UInt32) {i : Nat} (hi : i < 21) :
    (jumpImmediate w).getLsbD i = (decide (i ≠ 0) && w.toBitVec.getLsbD (place i)) := by
  unfold jumpImmediate place
  simp only [BitVec.getLsbD_append, BitVec.getLsbD_extractLsb']
  grind

/-- The word of a jump: the opcode, the register, and the offset in its places. -/
theorem getLsbD_encodeJump (rd : UInt32) (offset : Int) {i : Nat} :
    (i < 7 → (encodeJump rd offset).toBitVec.getLsbD i = jumpOpcode.toBitVec.getLsbD i) ∧
      (i < 5 → (encodeJump rd offset).toBitVec.getLsbD (i + 7) = rd.toBitVec.getLsbD i) ∧
      (0 < i → i < 21 → (encodeJump rd offset).toBitVec.getLsbD (place i) =
        (BitVec.ofInt 21 offset).getLsbD i) := by
  unfold encodeJump place
  simp only [BitVec.getLsbD_append, BitVec.getLsbD_extractLsb']
  grind

/-- Above the register every bit is one of the offset. -/
theorem exists_place {k : Nat} (hk : 12 ≤ k) (hlt : k < 32) :
    ∃ i, 0 < i ∧ i < 21 ∧ place i = k := by
  unfold place
  by_cases hlow : k < 20
  · exact ⟨k, by grind⟩
  by_cases hbit : k = 20
  · exact ⟨11, by grind⟩
  by_cases htop : k = 31
  · exact ⟨20, by grind⟩
  · exact ⟨k - 20, by grind⟩

/-! ## Encoding, then decoding -/

/-- The opcode of a word is in its low seven bits. -/
theorem opcode_eq_iff (w : UInt32) : opcode w = jumpOpcode ↔
    ∀ i < 7, w.toBitVec.getLsbD i = jumpOpcode.toBitVec.getLsbD i := by
  have hmask : ∀ i < 32, (0x7f : UInt32).toBitVec.getLsbD i = decide (i < 7) := by decide
  have hlow : ∀ i < 32, 7 ≤ i → jumpOpcode.toBitVec.getLsbD i = false := by decide
  rw [opcode, ← UInt32.toBitVec_inj]
  constructor
  · intro h i hi
    rw [← h, UInt32.toBitVec_and, BitVec.getLsbD_and, hmask i (by omega), decide_eq_true hi,
      Bool.and_true]
  · intro h
    refine BitVec.eq_of_getLsbD_eq fun i hi => ?_
    rw [UInt32.toBitVec_and, BitVec.getLsbD_and, hmask i hi]
    by_cases hseven : i < 7
    · rw [decide_eq_true hseven, Bool.and_true, h i hseven]
    · rw [decide_eq_false hseven, Bool.and_false, hlow i hi (by omega)]

theorem opcode_encodeJump (rd : UInt32) (offset : Int) :
    opcode (encodeJump rd offset) = jumpOpcode :=
  (opcode_eq_iff _).mpr fun _ hi => (getLsbD_encodeJump rd offset).1 hi

/-- To take off the remainder by two is to clear bit 0. -/
theorem getLsbD_ofInt_even (offset : Int) (i : Nat) :
    (BitVec.ofInt 21 (offset - offset % 2)).getLsbD i =
      (decide (i ≠ 0) && (BitVec.ofInt 21 offset).getLsbD i) := by
  have heven : (BitVec.ofInt 21 (offset - offset % 2)).toNat =
      2 * ((BitVec.ofInt 21 offset).toNat / 2) := by
    rw [BitVec.toNat_ofInt, BitVec.toNat_ofInt]
    omega
  rw [← BitVec.testBit_toNat, ← BitVec.testBit_toNat, heven]
  cases i with
  | zero => simp
  | succ i => simp [Nat.testBit_succ]

theorem jumpImmediate_encodeJump (rd : UInt32) (offset : Int) :
    jumpImmediate (encodeJump rd offset) = BitVec.ofInt 21 (offset - offset % 2) := by
  refine BitVec.eq_of_getLsbD_eq fun i hi => ?_
  rw [getLsbD_jumpImmediate _ hi, getLsbD_ofInt_even]
  by_cases hzero : i = 0
  · rw [hzero]
    rfl
  · rw [(getLsbD_encodeJump rd offset).2.2 (Nat.pos_of_ne_zero hzero) hi]

theorem classify_encodeJump (rd : UInt32) (offset : Int) :
    classify (encodeJump rd offset) = .jump (carried offset) := by
  rw [classify, if_pos (opcode_encodeJump rd offset), jumpImmediate_encodeJump,
    BitVec.toInt_ofInt]
  rfl

/-- What fits is carried as it is. -/
theorem carried_eq {offset : Int} (heven : offset % 2 = 0) (hlow : -2 ^ 20 ≤ offset)
    (hhigh : offset < 2 ^ 20) : carried offset = offset := by
  rw [carried, heven, Int.sub_zero]
  exact Int.bmod_eq_of_le (by omega) (by omega)

/-! ## Decoding, then encoding -/

/-- The register of a word is in the five bits above its opcode. -/
theorem getLsbD_register (w : UInt32) {i : Nat} (hi : i < 5) :
    (w >>> 7 &&& 31).toBitVec.getLsbD i = w.toBitVec.getLsbD (i + 7) := by
  have hmask : ∀ i < 5, (31 : UInt32).toBitVec.getLsbD i = true := by decide
  have hshift : (w >>> 7).toBitVec = w.toBitVec >>> 7 := UInt32.toBitVec_shiftRight w 7
  rw [UInt32.toBitVec_and, BitVec.getLsbD_and, hmask i hi, Bool.and_true, hshift,
    BitVec.getLsbD_ushiftRight, Nat.add_comm]

theorem encodeJump_jumpImmediate {w : UInt32} (h : opcode w = jumpOpcode) :
    encodeJump (w >>> 7 &&& 31) (jumpImmediate w).toInt = w := by
  have hbits {i : Nat} := getLsbD_encodeJump (w >>> 7 &&& 31) (jumpImmediate w).toInt (i := i)
  rw [← UInt32.toBitVec_inj]
  refine BitVec.eq_of_getLsbD_eq fun k hk => ?_
  by_cases hopcode : k < 7
  · rw [hbits.1 hopcode, (opcode_eq_iff w).mp h k hopcode]
  by_cases hregister : k < 12
  · obtain ⟨i, rfl⟩ := Nat.exists_eq_add_of_le' (Nat.le_of_not_lt hopcode)
    rw [hbits.2.1 (by omega), getLsbD_register w (by omega)]
  · obtain ⟨i, hpos, hi, rfl⟩ := exists_place (Nat.le_of_not_lt hregister) hk
    rw [hbits.2.2 hpos hi, BitVec.ofInt_toInt, getLsbD_jumpImmediate w hi,
      decide_eq_true (Nat.ne_of_gt hpos), Bool.true_and]

theorem classify_eq_jump_iff (w : UInt32) (offset : Int) :
    classify w = .jump offset ↔ opcode w = jumpOpcode ∧ (jumpImmediate w).toInt = offset := by
  unfold classify
  by_cases hopcode : opcode w = jumpOpcode
  · simp [hopcode]
  · rw [if_neg hopcode]
    split <;> simp [hopcode]

theorem classify_eq_suspend_iff (w : UInt32) : classify w = .suspend ↔ w = suspendWord := by
  unfold classify
  split
  · rename_i hopcode
    have hne : w ≠ suspendWord := by
      rintro rfl
      exact absurd hopcode (by decide)
    simp [hne]
  · split <;> simp [*]

/-- **Jumps are encoded and decoded without loss.** The jump to any register by any offset is
decoded as the jump by what is carried of the offset, which is all of it if it is even and within
reach. Every word with the opcode of a jump, and no other, is a jump, and is what encodes its
register and its offset. The word that suspends is none of them. -/
theorem jumps_exact (rd : UInt32) (offset : Int) (w : UInt32) :
    classify (encodeJump rd offset) = .jump (carried offset) ∧
      (offset % 2 = 0 → -2 ^ 20 ≤ offset → offset < 2 ^ 20 →
        classify (encodeJump rd offset) = .jump offset) ∧
      ((∃ o, classify w = .jump o) ↔ opcode w = jumpOpcode) ∧
      (∀ o, classify w = .jump o → encodeJump (w >>> 7 &&& 31) o = w) ∧
      (classify w = .suspend ↔ w = suspendWord) ∧
      ¬ (opcode w = jumpOpcode ∧ w = suspendWord) := by
  refine ⟨classify_encodeJump rd offset, ?_, ?_, ?_, classify_eq_suspend_iff w, ?_⟩
  · intro heven hlow hhigh
    rw [classify_encodeJump, carried_eq heven hlow hhigh]
  · simp only [classify_eq_jump_iff, exists_and_left, exists_eq', and_true]
  · intro o ho
    obtain ⟨hopcode, rfl⟩ := (classify_eq_jump_iff w o).mp ho
    exact encodeJump_jumpImmediate hopcode
  · rintro ⟨hopcode, rfl⟩
    exact absurd hopcode (by decide)

/-- The furthest jump backwards is carried whole. The word that jumps to register 1 by -8 encodes
those, and an offset out of reach comes round. -/
theorem jumps_exact_backwards :
    classify (encodeJump 31 (-1048576)) = .jump (-1048576) ∧
      encodeJump ((0xff9ff0ef : UInt32) >>> 7 &&& 31) (-8) = 0xff9ff0ef ∧
      classify (encodeJump 1 1048577) = .jump (-1048576) := by
  obtain ⟨-, hreach, -⟩ := jumps_exact 31 (-1048576) 0
  obtain ⟨-, -, -, hword, -⟩ := jumps_exact 0 0 0xff9ff0ef
  obtain ⟨hround, -⟩ := jumps_exact 1 1048577 0
  have hdecoded : classify 0xff9ff0ef = .jump (-8) := by decide +kernel
  have hcarried : carried 1048577 = -1048576 := by decide
  exact ⟨hreach (by decide) (by decide) (by decide), hword (-8) hdecoded, hcarried ▸ hround⟩

end InOrder.Isa
