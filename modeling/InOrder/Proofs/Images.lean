import InOrder.Payload.Bundle
import InOrder.Payload.Line
import InOrder.Payload.Redirect
import Mathlib.Data.Nat.Bitwise

/-!
# Flips in images

The image of a payload holds all of it: whatever bits an image of the right length has, the payload
that is read from it has that image (`Payload.Faithful`). So the payload that is made when a bit is
flipped differs from the one before in that bit of its image and in no other
(`Payload.differsAt_of_flip?`).

The other way round, a payload is what is read from its image: of a line or a bundle always
(`Line.decode_encode`, `Bundle.decode_encode`), of a redirect if its reason is the one that its code
names (`Redirect.decode_encode`).
-/

namespace InOrder

/-! ## Words in byte strings -/

namespace Bytes

variable {bs : List UInt8} {i : Nat}

/-- The byte at a place, and what follows it. -/
theorem u8At_cons_drop (h : i < bs.length) : u8At bs i :: bs.drop (i + 1) = bs.drop i := by
  rw [List.drop_eq_getElem_cons h, u8At, List.getD_eq_getElem _ _ h]

/-- The number that some bytes spell, written back. -/
theorem ofNat_leading {n : Nat} (h : i + n ≤ bs.length) :
    ofNat n (leading n (bs.drop i)) = (bs.drop i).take n := by
  have hlength : ((bs.drop i).take n).length = n := by
    rw [List.length_take, List.length_drop]
    omega
  have hback := ofNat_toNat ((bs.drop i).take n)
  rw [hlength] at hback
  rw [leading_eq_toNat_take, hback]

theorem leading_lt (n : Nat) (bs : List UInt8) : leading n bs < Nat.pow 256 n := by
  rw [leading_eq_toNat_take]
  refine Nat.lt_of_lt_of_le (toNat_lt _) (Nat.pow_le_pow_right (by decide) ?_)
  exact List.length_take_le n bs

/-- The word at a place, and what follows it. -/
theorem ofUInt32_append_drop (h : i + 4 ≤ bs.length) :
    ofUInt32 (u32At bs i) ++ bs.drop (i + 4) = bs.drop i := by
  have hword : (u32At bs i).toNat = leading 4 (bs.drop i) :=
    UInt32.toNat_ofNat_of_lt' (leading_lt 4 _)
  rw [ofUInt32, hword, ofNat_leading h, ← List.drop_drop, List.take_append_drop]

/-- The long word at a place, and what follows it. -/
theorem ofUInt64_append_drop (h : i + 8 ≤ bs.length) :
    ofUInt64 (u64At bs i) ++ bs.drop (i + 8) = bs.drop i := by
  have hword : (u64At bs i).toNat = leading 8 (bs.drop i) :=
    UInt64.toNat_ofNat_of_lt' (leading_lt 8 _)
  rw [ofUInt64, hword, ofNat_leading h, ← List.drop_drop, List.take_append_drop]

/-- A number that was written at the front is read there. -/
theorem leading_ofNat {n x : Nat} (hx : x < Nat.pow 256 n) (bs : List UInt8) :
    leading n (ofNat n x ++ bs) = x := by
  rw [leading_eq_toNat_take, List.take_left' (length_ofNat n x), toNat_ofNat, Nat.mod_eq_of_lt hx]

@[simp] theorem leading_ofUInt32 (w : UInt32) (bs : List UInt8) :
    leading 4 (ofUInt32 w ++ bs) = w.toNat := leading_ofNat w.toNat_lt bs

@[simp] theorem leading_ofUInt64 (w : UInt64) (bs : List UInt8) :
    leading 8 (ofUInt64 w ++ bs) = w.toNat := leading_ofNat w.toNat_lt bs

/-- A byte is not changed where another one is set. -/
theorem u8At_set_of_ne {bs : List UInt8} {i j : Nat} (h : i ≠ j) (b : UInt8) :
    u8At (bs.set i b) j = u8At bs j := by
  rw [u8At, u8At, List.getD_eq_getElem?_getD, List.getD_eq_getElem?_getD, List.getElem?_set_ne h]

@[simp] theorem length_ofUInt32 (w : UInt32) : (ofUInt32 w).length = 4 := length_ofNat 4 _

@[simp] theorem length_ofUInt64 (w : UInt64) : (ofUInt64 w).length = 8 := length_ofNat 8 _

end Bytes

/-! ## Payloads and their images -/

/-- Every image of the length of a payload's is that of the payload that is read from it. -/
class Payload.Faithful (α : Type) [Payload α] : Prop where
  encode_decode : ∀ (a : α) (image : List UInt8), image.length = (Payload.encode a).length →
    Payload.encode (Payload.decode image : α) = image

theorem Line.encode_decode {image : List UInt8} (h : 37 ≤ image.length) :
    (Line.decode image).encode = image := by
  simp only [Line.encode, Line.decode, List.append_assoc]
  rw [Bytes.ofUInt64_append_drop (by omega), Bytes.ofUInt64_append_drop (by omega),
    Bytes.ofUInt64_append_drop (by omega), Bytes.ofUInt64_append_drop (by omega),
    Bytes.ofUInt32_append_drop (by omega), Bytes.u8At_cons_drop (by omega), List.drop_zero]

theorem Redirect.encode_decode {image : List UInt8} (h : image.length = 30) :
    (Redirect.decode image).encode = image := by
  have hend : image.drop 30 = [] := List.drop_eq_nil_of_le (Nat.le_of_eq h)
  have hlength : 22 + 8 ≤ image.length := Nat.le_of_eq h.symm
  have hlast := Bytes.ofUInt64_append_drop hlength
  rw [hend, List.append_nil] at hlast
  simp only [Redirect.encode, Redirect.decode, Reason.code_ofCode, List.append_assoc]
  rw [hlast, Bytes.ofUInt64_append_drop (by omega), Bytes.ofUInt64_append_drop (by omega),
    Bytes.ofUInt32_append_drop (by omega), Bytes.u8At_cons_drop (by omega),
    Bytes.u8At_cons_drop (by omega), List.drop_zero]

/-- A micro-op is read from the front of a byte string. -/
theorem MicroOp.encode_decode {bs : List UInt8} (h : 38 ≤ bs.length) :
    (MicroOp.decode bs).encode ++ bs.drop 38 = bs := by
  simp only [MicroOp.encode, MicroOp.decode, List.append_assoc, List.cons_append]
  rw [Bytes.ofUInt64_append_drop (by omega), Bytes.u8At_cons_drop (by omega),
    Bytes.ofUInt32_append_drop (by omega), Bytes.ofUInt64_append_drop (by omega),
    Bytes.ofUInt64_append_drop (by omega), Bytes.ofUInt64_append_drop (by omega),
    Bytes.u8At_cons_drop (by omega), List.drop_zero]

@[simp] theorem MicroOp.length_encode (o : MicroOp) : o.encode.length = imageBytes := by
  simp [encode, imageBytes]

theorem MicroOp.length_encode_row (os : List MicroOp) :
    (os.flatMap encode).length = imageBytes * os.length := by
  induction os with
  | nil => rfl
  | cons o os ih =>
    rw [List.flatMap_cons, List.length_append, length_encode, ih, List.length_cons, Nat.mul_succ,
      Nat.add_comm]

/-- The micro-ops of a row, one after the other. -/
theorem MicroOp.encode_decode_row : ∀ {n : Nat} {bs : List UInt8}, bs.length = imageBytes * n →
    ((List.range n).map fun i => MicroOp.decode (bs.drop (imageBytes * i))).flatMap
      MicroOp.encode = bs
  | 0, bs, h => (List.eq_nil_of_length_eq_zero h).symm
  | n + 1, bs, h => by
    have hlength : (bs.drop imageBytes).length = imageBytes * n := by
      rw [List.length_drop, h, Nat.mul_succ, Nat.add_sub_cancel]
    have hrest := encode_decode_row hlength
    simp only [List.drop_drop] at hrest
    have hstep : ∀ i, imageBytes * (i + 1) = imageBytes + imageBytes * i := fun i => by
      rw [Nat.mul_succ, Nat.add_comm]
    rw [List.range_succ_eq_map, List.map_cons, List.map_map, List.flatMap_cons]
    simp only [Function.comp_def, Nat.succ_eq_add_one, hstep, hrest, Nat.mul_zero, List.drop_zero]
    exact MicroOp.encode_decode (by rw [h, imageBytes]; omega)

theorem Bundle.encode_decode {image : List UInt8} {n : Nat}
    (h : image.length = 5 + MicroOp.imageBytes * n) : (Bundle.decode image).encode = image := by
  have hslots : (image.length - 5) / MicroOp.imageBytes = n := by
    rw [h, Nat.add_sub_cancel_left]
    exact Nat.mul_div_cancel_left n (by decide)
  have hlength : (image.drop 5).length = MicroOp.imageBytes * n := by
    rw [List.length_drop, h, Nat.add_sub_cancel_left]
  have hrow := MicroOp.encode_decode_row hlength
  simp only [List.drop_drop] at hrow
  simp only [Bundle.encode, Bundle.decode, hslots, hrow]
  rw [Bytes.ofUInt32_append_drop (by omega), Bytes.u8At_cons_drop (by omega), List.drop_zero]

instance : Payload.Faithful Line where
  encode_decode l image h := Line.encode_decode (by
    rw [h]
    simp only [Payload.encode, Line.encode, List.length_cons, List.length_append,
      Bytes.length_ofUInt32, Bytes.length_ofUInt64]
    omega)

instance : Payload.Faithful Redirect where
  encode_decode r image h := Redirect.encode_decode (by
    rw [h]
    simp [Payload.encode, Redirect.encode])

instance : Payload.Faithful Bundle where
  encode_decode b image h := Bundle.encode_decode (n := b.slots.length) (by
    rw [h]
    simp only [Payload.encode, Bundle.encode, List.length_cons, List.length_append,
      Bytes.length_ofUInt32, MicroOp.length_encode_row]
    omega)

/-! ## What is read back -/

theorem Line.decode_encode (l : Line) : Line.decode l.encode = l := by
  simp [Line.decode, Line.encode, Bytes.u8At, Bytes.u32At, Bytes.u64At, List.drop_append,
    List.drop_eq_nil_of_le]

theorem Redirect.decode_encode {r : Redirect} (h : Reason.ofCode r.reason.code = r.reason) :
    Redirect.decode r.encode = r := by
  have hlast : Bytes.leading 8 (Bytes.ofUInt64 r.newPredictionSeq) = r.newPredictionSeq.toNat := by
    rw [← List.append_nil (Bytes.ofUInt64 _), Bytes.leading_ofUInt64]
  simp [Redirect.decode, Redirect.encode, Bytes.u8At, Bytes.u32At, Bytes.u64At, List.drop_append,
    List.drop_eq_nil_of_le, h, hlast]

theorem MicroOp.decode_encode (o : MicroOp) (bs : List UInt8) :
    MicroOp.decode (o.encode ++ bs) = o := by
  simp [MicroOp.decode, MicroOp.encode, Bytes.u8At, Bytes.u32At, Bytes.u64At, List.drop_append,
    List.drop_eq_nil_of_le, List.getElem?_append_right]

theorem MicroOp.decode_encode_row : ∀ os : List MicroOp,
    ((List.range os.length).map fun i =>
      MicroOp.decode ((os.flatMap MicroOp.encode).drop (imageBytes * i))) = os
  | [] => rfl
  | o :: os => by
    have hrest := decode_encode_row os
    have hdrop : ∀ i, ((o :: os).flatMap MicroOp.encode).drop (imageBytes * (i + 1)) =
        (os.flatMap MicroOp.encode).drop (imageBytes * i) := fun i => by
      rw [List.flatMap_cons, Nat.mul_succ, Nat.add_comm, ← List.drop_drop,
        List.drop_left' (length_encode o)]
    rw [List.length_cons, List.range_succ_eq_map, List.map_cons, List.map_map]
    simp only [Function.comp_def, Nat.succ_eq_add_one, hdrop, hrest]
    rw [Nat.mul_zero, List.drop_zero, List.flatMap_cons, decode_encode]

theorem Bundle.decode_encode (b : Bundle) : Bundle.decode b.encode = b := by
  have hslots : (b.encode.length - 5) / MicroOp.imageBytes = b.slots.length := by
    have hlength : b.encode.length = 5 + MicroOp.imageBytes * b.slots.length := by
      simp only [encode, List.length_cons, List.length_append, Bytes.length_ofUInt32,
        MicroOp.length_encode_row]
      omega
    rw [hlength, Nat.add_sub_cancel_left]
    exact Nat.mul_div_cancel_left _ (by decide)
  have hdrop : ∀ i, b.encode.drop (5 + MicroOp.imageBytes * i) =
      (b.slots.flatMap MicroOp.encode).drop (MicroOp.imageBytes * i) := fun i => by
    rw [← List.drop_drop]
    simp [encode]
  unfold decode
  simp only [hslots, hdrop, MicroOp.decode_encode_row]
  simp [encode, Bytes.u8At, Bytes.u32At]

/-! ## Flips -/

namespace Payload

/-- A bit of an image, from the lowest of the first byte on. -/
def imageBit (image : List UInt8) (i : Nat) : Option Bool :=
  image[i / 8]?.map fun b => b.toNat.testBit (i % 8)

/-- Two images of one length differ in one bit. -/
def DiffersAt (bit : Nat) (image image' : List UInt8) : Prop :=
  image'.length = image.length ∧ bit < 8 * image.length ∧
    ∀ i, imageBit image' i = if i = bit then (imageBit image i).map not else imageBit image i

/-- To flip a bit of a byte is to change that bit. -/
theorem testBit_flipByte (b : UInt8) {i : Nat} (hi : i < 8) (j : Nat) :
    (flipByte b i).toNat.testBit j = (b.toNat.testBit j ^^ decide (i = j)) := by
  have hone : ∀ i < 8, ((1 : UInt8) <<< UInt8.ofNat i).toNat = 2 ^ i := by decide
  rw [flipByte, UInt8.toNat_xor, Nat.testBit_xor, hone i hi, Nat.testBit_two_pow]

/-- To flip a bit of an image is to change that bit. -/
theorem differsAt_of_flipImage? {image image' : List UInt8} {bit : Nat}
    (h : flipImage? image bit = some image') : DiffersAt bit image image' := by
  unfold flipImage? at h
  split at h
  · rename_i b hb
    obtain rfl := Option.some.inj h
    obtain ⟨hbyte, -⟩ := List.getElem?_eq_some_iff.mp hb
    refine ⟨List.length_set, by omega, fun i => ?_⟩
    by_cases hsame : i / 8 = bit / 8
    · have hiff : bit % 8 = i % 8 ↔ i = bit := by omega
      rw [imageBit, imageBit, hsame, List.getElem?_set_self hbyte, hb, Option.map_some,
        Option.map_some, testBit_flipByte b (Nat.mod_lt bit (by decide))]
      by_cases heq : i = bit
      · rw [if_pos heq, decide_eq_true (hiff.mpr heq), Bool.xor_true, Option.map_some]
      · rw [if_neg heq, decide_eq_false (mt hiff.mp heq), Bool.xor_false]
    · have hne : i ≠ bit := fun heq => hsame (by rw [heq])
      rw [imageBit, imageBit, List.getElem?_set_ne (Ne.symm hsame), if_neg hne]
  · nomatch h

variable {α : Type} [Payload α]

/-- **The payload that a flip makes differs in that bit of its image**, and in no other. -/
theorem differsAt_of_flip? [Payload.Faithful α] {a a' : α} {bit : Nat}
    (h : flip? a bit = some a') : DiffersAt bit (encode a) (encode a') := by
  obtain ⟨image, himage, rfl⟩ := Option.map_eq_some_iff.mp h
  have hdiffers := differsAt_of_flipImage? himage
  rwa [Payload.Faithful.encode_decode a image hdiffers.1]

/-- There is nothing to flip behind the end of the image. -/
theorem flip?_eq_none_iff {a : α} {bit : Nat} : flip? a bit = none ↔ bitCount a ≤ bit := by
  rw [flip?, Option.map_eq_none_iff, flipImage?, bitCount]
  constructor
  · intro h
    split at h
    · nomatch h
    · rename_i hbyte
      have := List.getElem?_eq_none_iff.mp hbyte
      omega
  · intro h
    have hbyte : (encode a)[bit / 8]? = none := List.getElem?_eq_none_iff.mpr (by omega)
    rw [hbyte]

end Payload

end InOrder
