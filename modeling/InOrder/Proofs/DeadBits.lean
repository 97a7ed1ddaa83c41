import InOrder.Proofs.Contents
import InOrder.Proofs.Images
import InOrder.Proofs.Lane.Sifted

/-!
# Dead bits

Some bits of a payload are not read, or are read to no effect:

* all bits of a bubble;
* the seven upper bits of a latch;
* the latch of a micro-op that says whether its slot is empty, since the count of a bundle says so;
* all bits of a slot that is not in use.

A flip of such a bit can make a bubble into a payload, but what is then in it is of stream 0. So a
flip of a dead bit leaves what is of a stream as it was (`Line.sift_flip`, `Bundle.sift_flip`), and a
redirect does what it did (`Redirect.SameEffect.flip`).
-/

namespace InOrder

/-! ## Flips in parts of an image -/

namespace Payload

variable {xs : List UInt8} {bit : Nat}

/-- A flip in the first part of an image. -/
theorem flipImage?_append_left (ys : List UInt8) (h : bit < 8 * xs.length) :
    flipImage? (xs ++ ys) bit = (flipImage? xs bit).map (· ++ ys) := by
  have hbyte : bit / 8 < xs.length := by omega
  simp [flipImage?, List.getElem?_append_left hbyte, List.set_append_left _ _ hbyte, hbyte]

/-- A flip in the second part of an image. -/
theorem flipImage?_append_right {n : Nat} (h : xs.length = n) (ys : List UInt8) (bit : Nat) :
    flipImage? (xs ++ ys) (8 * n + bit) = (flipImage? ys bit).map (xs ++ ·) := by
  have hbyte : (8 * n + bit) / 8 = xs.length + bit / 8 := by omega
  have hrest : (8 * n + bit) % 8 = bit % 8 := by omega
  rw [flipImage?, flipImage?, hbyte, hrest, List.getElem?_append_right (Nat.le_add_right _ _),
    Nat.add_sub_cancel_left]
  cases ys[bit / 8]? <;> simp

/-- A flip in the first byte. -/
theorem flipImage?_cons (b : UInt8) (ys : List UInt8) (h : bit < 8) :
    flipImage? (b :: ys) bit = some (flipByte b bit :: ys) := by
  have hzero : bit / 8 = 0 := by omega
  have hsame : bit % 8 = bit := by omega
  simp [flipImage?, hzero, hsame]

/-- A flip behind the first byte leaves it as it is. -/
theorem u8At_flipImage? {image image' : List UInt8} (h : flipImage? image bit = some image')
    (hbit : 8 ≤ bit) : Bytes.u8At image' 0 = Bytes.u8At image 0 := by
  unfold flipImage? at h
  split at h
  · obtain rfl := Option.some.inj h
    exact Bytes.u8At_set_of_ne (by omega) _
  · exact absurd h (by simp)

theorem length_flipImage? {image image' : List UInt8} (h : flipImage? image bit = some image') :
    image'.length = image.length := (differsAt_of_flipImage? h).1

/-- A flip hits a bit of a payload, or leaves the payload as it is. -/
theorem flip_induction {α : Type} [Payload α] {P : α → Prop} {a : α} {bit : Nat} (hsame : P a)
    (hhit : ∀ a', bit < bitCount a → flip? a bit = some a' → P a') : P (flip a bit).1 := by
  unfold flip
  cases hmiss : flip? a bit with
  | none => exact hsame
  | some a' =>
    refine hhit a' (Nat.lt_of_not_le fun hle => ?_) hmiss
    simp [flip?_eq_none_iff.mpr hle] at hmiss

end Payload

/-! ## Latches -/

namespace Flag

/-- The latch with a bit flipped. -/
def flipped (f : Flag) (i : Nat) : Flag := ⟨Payload.flipByte f.raw i⟩

/-- All bits of a latch but the lowest. -/
def DeadBit (i : Nat) : Prop := 0 < i ∧ i < 8

instance (i : Nat) : Decidable (DeadBit i) := instDecidableAnd

theorem isSet_eq_testBit (f : Flag) : f.isSet = f.raw.toNat.testBit 0 := by
  have hbit : (f.raw &&& 1).toNat = f.raw.toNat % 2 := by
    rw [UInt8.toNat_and]
    exact Nat.and_one_is_mod _
  have hzero : f.raw &&& 1 = 0 ↔ (f.raw &&& 1).toNat = 0 := UInt8.toNat_inj.symm
  rw [isSet, Nat.testBit_zero, ← hbit, Bool.eq_iff_iff, bne_iff_ne, Ne, hzero, decide_eq_true_iff]
  omega

/-- **The upper bits of a latch are dead.** -/
theorem isSet_flipped {f : Flag} {i : Nat} (h : DeadBit i) : (f.flipped i).isSet = f.isSet := by
  have hne : i ≠ 0 := Nat.pos_iff_ne_zero.mp h.1
  rw [isSet_eq_testBit, isSet_eq_testBit, flipped, Payload.testBit_flipByte _ h.2]
  simp [hne]

theorem refreshed_flipped {f : Flag} {i : Nat} (h : DeadBit i) :
    (f.flipped i).refreshed = f.refreshed := by rw [refreshed, refreshed, isSet_flipped h]

end Flag

/-! ## Lines -/

namespace Line

variable {l l' : Line} {bit : Nat}

/-- The bits of a line that are not read. -/
def DeadBit (l : Line) (bit : Nat) : Prop := Payload.isBubble l = true ∨ Flag.DeadBit bit

instance (l : Line) (bit : Nat) : Decidable (l.DeadBit bit) := instDecidableOr

theorem flip_latch (h : Payload.flip? l bit = some l') (hbit : bit < 8) :
    l' = { l with bubble := l.bubble.flipped bit } := by
  have hflip : Payload.flip? l bit = some (decode { l with bubble := l.bubble.flipped bit }.encode) :=
    congrArg (Option.map decode) (Payload.flipImage?_cons l.bubble.raw _ hbit)
  rw [decode_encode] at hflip
  exact Option.some.inj (h.symm.trans hflip)

theorem bubble_flip (h : Payload.flip? l bit = some l') (hbit : 8 ≤ bit) : l'.bubble = l.bubble := by
  obtain ⟨image, himage, rfl⟩ := Option.map_eq_some_iff.mp h
  exact congrArg Flag.mk (Payload.u8At_flipImage? himage hbit)

/-- **A flip of a dead bit leaves the lines of streams as they were.** -/
theorem sift_flip (hdead : bit < Payload.bitCount l → l.DeadBit bit)
    (hblank : Payload.isBubble l = true → l.streamSeq = 0) (t : UInt32) :
    sift (linesOf t (present [(Payload.flip l bit).1])) = sift (linesOf t (present [l])) := by
  refine Payload.flip_induction (P := fun l' => sift (linesOf t (present [l'])) = _) rfl
    fun l' hin h => ?_
  rcases hdead hin with hbubble | hlatch
  · -- if the flip makes a line of the bubble, it is one of no stream
    rw [present_bubble hbubble]
    refine sift_eq_nil fun l₁ hl₁ => ?_
    obtain ⟨hmem, hlive⟩ := mem_present.mp (List.mem_filter.mp hl₁).1
    rw [List.mem_singleton.mp hmem] at hlive ⊢
    by_cases hbit : bit < 8
    · rw [flip_latch h hbit]
      exact hblank hbubble
    · have hbubble' : l'.bubble.isSet = true := by
        rw [bubble_flip h (Nat.le_of_not_lt hbit)]
        exact hbubble
      exact absurd (hbubble'.symm.trans hlive) (by simp)
  · have hsame : Payload.isBubble l' = Payload.isBubble l := by
      rw [flip_latch h hlatch.2]
      exact Flag.isSet_flipped hlatch
    cases hbubble : Payload.isBubble l with
    | true => rw [present_bubble hbubble, present_bubble (hsame.trans hbubble)]
    | false =>
      rw [present_singleton hbubble, present_singleton (hsame.trans hbubble),
        flip_latch h hlatch.2]
      by_cases ht : l.thread = t <;> simp [linesOf, ht, sift, Streamed.refresh, refreshed]

end Line

/-! ## Redirects -/

namespace Redirect

variable {r r' : Redirect} {bit : Nat}

/-- The bits of a redirect that are not read. -/
def DeadBit (r : Redirect) (bit : Nat) : Prop := Payload.isBubble r = true ∨ Flag.DeadBit bit

instance (r : Redirect) (bit : Nat) : Decidable (r.DeadBit bit) := instDecidableOr

/-- The redirects do the same: neither redirects, or they differ in the latch of bubbles alone. -/
structure SameEffect (r r' : Redirect) : Prop where
  isLive : r'.isLive = r.isLive
  eq : r.isLive = true → ∃ bubble, r' = { r with bubble }

theorem SameEffect.refl (r : Redirect) : r.SameEffect r := ⟨rfl, fun _ => ⟨r.bubble, rfl⟩⟩

theorem flip_latch (hnamed : Reason.ofCode r.reason.code = r.reason)
    (h : Payload.flip? r bit = some r') (hbit : bit < 8) :
    r' = { r with bubble := r.bubble.flipped bit } := by
  have hflip : Payload.flip? r bit = some (decode { r with bubble := r.bubble.flipped bit }.encode) :=
    congrArg (Option.map decode) (Payload.flipImage?_cons r.bubble.raw _ hbit)
  rw [decode_encode (r := { r with bubble := r.bubble.flipped bit }) hnamed] at hflip
  exact Option.some.inj (h.symm.trans hflip)

theorem bubble_flip (h : Payload.flip? r bit = some r') (hbit : 8 ≤ bit) : r'.bubble = r.bubble := by
  obtain ⟨image, himage, rfl⟩ := Option.map_eq_some_iff.mp h
  exact congrArg Flag.mk (Payload.u8At_flipImage? himage hbit)

/-- **After a flip of a dead bit a redirect does what it did.** -/
theorem SameEffect.flip (hdead : bit < Payload.bitCount r → r.DeadBit bit)
    (hblank : Payload.isBubble r = true → r.reason = .noBranch)
    (hnamed : Payload.isBubble r = false → Reason.ofCode r.reason.code = r.reason) :
    r.SameEffect (Payload.flip r bit).1 := by
  refine Payload.flip_induction (.refl r) fun r' hin h => ?_
  have hdead := hdead hin
  have hname : Reason.ofCode r.reason.code = r.reason := by
    cases hbubble : Payload.isBubble r with
    | true => rw [hblank hbubble]; rfl
    | false => exact hnamed hbubble
  by_cases hbit : bit < 8
  · obtain rfl := flip_latch hname h hbit
    refine ⟨?_, fun _ => ⟨_, rfl⟩⟩
    rcases hdead with hbubble | hlatch
    · simp [Redirect.isLive, hblank hbubble]
    · simp [Redirect.isLive, Flag.isSet_flipped hlatch]
  · have hsame := bubble_flip h (Nat.le_of_not_lt hbit)
    rcases hdead with hbubble | hlatch
    · have hset : r.bubble.isSet = true := hbubble
      refine ⟨by simp [Redirect.isLive, hsame, hset], fun hlive => ?_⟩
      simp [Redirect.isLive, hset] at hlive
    · exact absurd hlatch.2 hbit

end Redirect

/-! ## Bundles -/

namespace MicroOp

/-- The bits of a micro-op in use that are not read: all of the latch that says whether its slot is
empty, and the upper bits of the latch that says whether it was predicted. -/
def DeadBit (bit : Nat) : Prop := bit < 8 ∨ 8 * 29 ≤ bit ∧ Flag.DeadBit (bit - 8 * 29)

instance (bit : Nat) : Decidable (DeadBit bit) := instDecidableOr

/-- A flip of a dead bit leaves a micro-op that is alike. -/
theorem refreshed_flip {o : MicroOp} {bit : Nat} {image : List UInt8}
    (h : Payload.flipImage? o.encode bit = some image) (hdead : DeadBit bit) :
    (decode image).refreshed = o.refreshed := by
  have hdecode : ∀ o' : MicroOp, decode o'.encode = o' := fun o' => by
    simpa using decode_encode o' []
  rcases hdead with hbit | ⟨hbit, hlatch⟩
  · have himage : Payload.flipImage? o.encode bit =
        some { o with bubble := o.bubble.flipped bit }.encode :=
      Payload.flipImage?_cons o.bubble.raw _ hbit
    rw [← Option.some.inj (himage.symm.trans h), hdecode]
    rfl
  · have himage : Payload.flipImage? o.encode (8 * 29 + (bit - 8 * 29)) = some { o with
        predictedTaken := o.predictedTaken.flipped (bit - 8 * 29) }.encode := by
      have hfront : (o.bubble.raw :: (Bytes.ofUInt64 o.pc ++ Bytes.ofUInt64 o.seqNum ++
          Bytes.ofUInt64 o.streamSeq ++ Bytes.ofUInt32 o.inst)).length = 29 := by simp
      have hright := Payload.flipImage?_append_right hfront
        (o.predictedTaken.raw :: Bytes.ofUInt64 o.predictedTarget) (bit - 8 * 29)
      rw [Payload.flipImage?_cons _ _ hlatch.2] at hright
      exact hright
    rw [Nat.add_sub_cancel' hbit] at himage
    rw [← Option.some.inj (himage.symm.trans h), hdecode]
    simp [refreshed, Flag.refreshed_flipped hlatch]

/-- A flip in a row of micro-ops is one in the micro-op of a slot. -/
theorem flipImage?_row {j : Nat} (hj : j < 8 * imageBytes) : ∀ {os : List MicroOp} {i : Nat}
    {o : MicroOp}, os[i]? = some o →
    Payload.flipImage? (os.flatMap encode) (8 * imageBytes * i + j) =
      (Payload.flipImage? o.encode j).map fun image => (os.set i (decode image)).flatMap encode
  | o :: os, 0, _, h => by
    obtain rfl := Option.some.inj h
    have hin : j < 8 * o.encode.length := by rwa [length_encode]
    rw [Nat.mul_zero, Nat.zero_add, List.flatMap_cons, Payload.flipImage?_append_left _ hin]
    cases himage : Payload.flipImage? o.encode j with
    | none => rfl
    | some image =>
      have hlength : image.length = 38 :=
        (Payload.length_flipImage? himage).trans (length_encode o)
      have hback := encode_decode (Nat.le_of_eq hlength.symm)
      rw [List.drop_eq_nil_of_le (Nat.le_of_eq hlength), List.append_nil] at hback
      simp [hback]
  | o :: os, i + 1, _, h => by
    have hrest := flipImage?_row hj (show os[i]? = some _ from h)
    have hplace : 8 * imageBytes * (i + 1) + j =
        8 * imageBytes + (8 * imageBytes * i + j) := by rw [Nat.mul_succ]; omega
    rw [hplace, List.flatMap_cons, Payload.flipImage?_append_right (length_encode o), hrest,
      Option.map_map]
    simp [Function.comp_def]

end MicroOp

namespace Bundle

variable {b b' : Bundle} {bit : Nat}

/-- The slots begin at bit 40 of the image of a bundle. -/
def slotsAt : Nat := 8 * 5

/-- The slot in which a bit of the image lies. -/
def slotOf (bit : Nat) : Nat := (bit - slotsAt) / (8 * MicroOp.imageBytes)

/-- Where it lies in the image of the micro-op in that slot. -/
def placeOf (bit : Nat) : Nat := (bit - slotsAt) % (8 * MicroOp.imageBytes)

/-- The bits of a bundle that are not read. -/
def DeadBit (b : Bundle) (bit : Nat) : Prop :=
  Payload.isBubble b = true ∨
    slotsAt ≤ bit ∧ (b.count.toNat ≤ slotOf bit ∨ MicroOp.DeadBit (placeOf bit))

instance (b : Bundle) (bit : Nat) : Decidable (b.DeadBit bit) := instDecidableOr

theorem flip_count (h : Payload.flip? b bit = some b') (hbit : bit < 8) :
    b' = { b with count := Payload.flipByte b.count bit } := by
  have hflip : Payload.flip? b bit =
      some (decode { b with count := Payload.flipByte b.count bit }.encode) :=
    congrArg (Option.map decode) (Payload.flipImage?_cons b.count _ hbit)
  rw [decode_encode] at hflip
  exact Option.some.inj (h.symm.trans hflip)

theorem count_flip (h : Payload.flip? b bit = some b') (hbit : 8 ≤ bit) : b'.count = b.count := by
  obtain ⟨image, himage, rfl⟩ := Option.map_eq_some_iff.mp h
  exact Payload.u8At_flipImage? himage hbit

theorem eq_slotsAt_add (hbit : slotsAt ≤ bit) :
    bit = slotsAt + (8 * MicroOp.imageBytes * slotOf bit + placeOf bit) := by
  rw [slotOf, placeOf, Nat.div_add_mod, Nat.add_sub_cancel' hbit]

theorem placeOf_lt (bit : Nat) : placeOf bit < 8 * MicroOp.imageBytes := Nat.mod_lt _ (by decide)

theorem bitCount_eq (b : Bundle) :
    Payload.bitCount b = slotsAt + 8 * MicroOp.imageBytes * b.slots.length := by
  simp only [Payload.bitCount, Payload.encode, encode, slotsAt, List.length_cons,
    List.length_append, Bytes.length_ofUInt32, MicroOp.length_encode_row]
  rw [Nat.mul_assoc]
  omega

/-- A flip behind the head of a bundle is one in the micro-op of a slot. -/
theorem flip_slot (h : Payload.flip? b bit = some b') (hbit : slotsAt ≤ bit) :
    ∃ o image, b.slots[slotOf bit]? = some o ∧
      Payload.flipImage? o.encode (placeOf bit) = some image ∧
      b' = { b with slots := b.slots.set (slotOf bit) (MicroOp.decode image) } := by
  have hhead : (b.count :: Bytes.ofUInt32 b.thread).length = 5 := by simp
  have hplace := eq_slotsAt_add hbit
  cases hslot : b.slots[slotOf bit]? with
  | none =>
    have hout := Nat.mul_le_mul_left (8 * MicroOp.imageBytes) (List.getElem?_eq_none_iff.mp hslot)
    have hmiss : Payload.flip? b bit = none := by
      rw [Payload.flip?_eq_none_iff, bitCount_eq]
      omega
    rw [hmiss] at h
    exact absurd h (by simp)
  | some o =>
    obtain ⟨whole, hwhole, rfl⟩ := Option.map_eq_some_iff.mp h
    have hflip := Payload.flipImage?_append_right hhead (b.slots.flatMap MicroOp.encode)
      (8 * MicroOp.imageBytes * slotOf bit + placeOf bit)
    rw [show 8 * 5 = slotsAt from rfl, ← hplace, MicroOp.flipImage?_row (placeOf_lt bit) hslot]
      at hflip
    have hsame := hflip.symm.trans hwhole
    cases himage : Payload.flipImage? o.encode (placeOf bit) with
    | none => simp [himage] at hsame
    | some image =>
      refine ⟨o, image, rfl, himage, ?_⟩
      rw [himage] at hsame
      rw [← Option.some.inj hsame]
      exact decode_encode { b with slots := b.slots.set _ (MicroOp.decode image) }

theorem share_tagged (b : Bundle) (t : UInt32) :
    share t b.tagged = if b.thread = t then b.insts else [] := by
  by_cases ht : b.thread = t
  · simp [share, tagged, ht, List.filter_map, Function.comp_def]
  · simp [share, tagged, ht, List.filter_map, Function.comp_def]

/-- **A flip of a dead bit leaves the micro-ops of streams as they were.** -/
theorem sift_flip (hdead : bit < Payload.bitCount b → b.DeadBit bit)
    (hblank : Payload.isBubble b = true → ∀ o ∈ b.slots, o.streamSeq = 0) (t : UInt32) :
    sift (share t (Payload.flip b bit).1.tagged) = sift (share t b.tagged) := by
  refine Payload.flip_induction (P := fun b' : Bundle => sift (share t b'.tagged) = _) rfl
    fun b' hin h => ?_
  rcases hdead hin with hbubble | ⟨hbit, hdead⟩
  · rw [tagged_of_bubble hbubble]
    by_cases hbit : bit < 8
    · obtain rfl := flip_count h hbit
      refine sift_eq_nil fun o ho => ?_
      rw [share_tagged] at ho
      split at ho
      · exact hblank hbubble o (List.mem_of_mem_take ho)
      · exact absurd ho (by simp)
    · have hbubble' : Payload.isBubble b' = true := by
        rw [show Payload.isBubble b' = (b'.count == 0) from rfl,
          count_flip h (Nat.le_of_not_lt hbit)]
        exact hbubble
      rw [tagged_of_bubble hbubble']
  · obtain ⟨o, image, hslot, himage, rfl⟩ := flip_slot h hbit
    rw [share_tagged, share_tagged]
    by_cases ht : b.thread = t
    · rw [if_pos ht, if_pos ht, insts, insts]
      rcases hdead with hout | hdead
      · rw [List.take_set_of_le hout]
      · -- the micro-op in the slot is the same when its latches are set afresh
        have hsame : (b.slots.set (slotOf bit) (MicroOp.decode image)).map MicroOp.refreshed =
            b.slots.map MicroOp.refreshed := by
          obtain ⟨hlt, rfl⟩ := List.getElem?_eq_some_iff.mp hslot
          rw [List.map_set, MicroOp.refreshed_flip himage hdead, ← List.map_set,
            List.set_getElem_self]
        refine sift_congr ?_
        rw [List.map_take, List.map_take]
        exact congrArg (List.take b.count.toNat) hsame
    · rw [if_neg ht, if_neg ht]

end Bundle

end InOrder
