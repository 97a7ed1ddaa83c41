import InOrder.Proofs.Images

/-!
# Payloads and their images, one for one

The payloads of a kind and the byte strings of certain lengths are two forms of the same thing
(`Payload.Corresponds`): lines and strings of at least 37 bytes, bundles of `w` slots and strings of
`5 + 38 * w` bytes, redirects with a reason that a code names and strings of 30 bytes. None of these
strings is out of reach, so every flip of a bit gives a payload of the same kind.

Images are compared bit by bit (`Payload.imageBit_ext`). What a flip does to the bits of the image
is said once, for a bit inside the image or behind its end (`Payload.Corresponds.imageBit_flip`),
and that two flips commute and that a flip undoes itself is read off from there.

* `Payload.images_exact`: images and payloads correspond, and flips are exact.
-/

namespace InOrder

namespace Payload

/-! ## Images as bits -/

/-- A byte is what its bits are. -/
theorem byte_ext {b c : UInt8} (h : ∀ j < 8, b.toNat.testBit j = c.toNat.testBit j) : b = c := by
  have hhigh : ∀ (d : UInt8) (j : Nat), 8 ≤ j → d.toNat.testBit j = false := fun d j hj =>
    Nat.testBit_lt_two_pow (Nat.lt_of_lt_of_le d.toNat_lt (Nat.pow_le_pow_right (by decide) hj))
  refine UInt8.toNat_inj.mp (Nat.eq_of_testBit_eq fun j => ?_)
  by_cases hj : j < 8
  · exact h j hj
  · rw [hhigh b j (by omega), hhigh c j (by omega)]

/-- **An image is what its bits are.** -/
theorem imageBit_ext {image image' : List UInt8} (hlength : image.length = image'.length)
    (hbits : ∀ i, imageBit image i = imageBit image' i) : image = image' := by
  refine List.ext_getElem hlength fun n hn hn' => byte_ext fun j hj => ?_
  have hbit := hbits (8 * n + j)
  have hplace : (8 * n + j) / 8 = n ∧ (8 * n + j) % 8 = j := by omega
  rwa [imageBit, imageBit, hplace.1, hplace.2, List.getElem?_eq_getElem hn,
    List.getElem?_eq_getElem hn', Option.map_some, Option.map_some, Option.some.injEq] at hbit

/-- There are no bits behind the end of an image. -/
theorem imageBit_eq_none {image : List UInt8} {i : Nat} (h : 8 * image.length ≤ i) :
    imageBit image i = none := by
  rw [imageBit, List.getElem?_eq_none (by omega), Option.map_none]

/-- Images that differ in a bit are not the same. -/
theorem DiffersAt.ne {bit : Nat} {image image' : List UInt8} (h : DiffersAt bit image image') :
    image' ≠ image := by
  obtain ⟨-, hinside, hbits⟩ := h
  rintro rfl
  have hbyte : bit / 8 < image'.length := by omega
  have hbit := hbits bit
  rw [if_pos rfl, imageBit, List.getElem?_eq_getElem hbyte, Option.map_some, Option.map_some,
    Option.some.injEq] at hbit
  exact Bool.not_ne_self _ hbit.symm

variable {α : Type} [Payload α] {a b : α} {bit : Nat}

/-- A flip behind the end of the image changes nothing. -/
theorem flip_of_le (h : bitCount a ≤ bit) : flip a bit = (a, false) := by
  rw [flip, flip?_eq_none_iff.mpr h]

/-! ## Two forms of the same thing -/

/-- The payloads that `good` admits and the byte strings of the lengths that `fits` admits stand for
each other. -/
structure Corresponds (good : α → Prop) (fits : Nat → Prop) : Prop where
  decode_encode : ∀ a, good a → decode (encode a) = a
  encode_decode : ∀ image, fits image.length → encode (decode image : α) = image
  fits_encode : ∀ a, good a → fits (encode a).length
  good_decode : ∀ image, fits image.length → good (decode image)

namespace Corresponds

variable {good : α → Prop} {fits : Nat → Prop}

/-- A flip inside the image gives the payload of the image with that bit flipped. -/
theorem flip_of_lt (h : Corresponds good fits) (ha : good a) (hbit : bit < bitCount a) :
    ∃ b, flip a bit = (b, true) ∧ good b ∧ DiffersAt bit (encode a) (encode b) := by
  cases hflip : flipImage? (encode a) bit with
  | none =>
    have hnone : flip? a bit = none := by rw [flip?, hflip, Option.map_none]
    exact absurd (flip?_eq_none_iff.mp hnone) (Nat.not_le.mpr hbit)
  | some image =>
    have hdiffers := differsAt_of_flipImage? hflip
    have hfits : fits image.length := hdiffers.1 ▸ h.fits_encode a ha
    refine ⟨decode image, ?_, h.good_decode image hfits, ?_⟩
    · rw [flip, flip?, hflip, Option.map_some]
    · rwa [h.encode_decode image hfits]

/-- A flip keeps the kind of a payload. -/
theorem good_flip (h : Corresponds good fits) (ha : good a) (bit : Nat) :
    good (flip a bit).1 := by
  rcases Nat.lt_or_ge bit (bitCount a) with hbit | hbit
  · obtain ⟨b, hflip, hb, -⟩ := h.flip_of_lt ha hbit
    rwa [hflip]
  · rwa [flip_of_le hbit]

/-- A flip keeps the length of the image. -/
theorem length_flip (h : Corresponds good fits) (ha : good a) (bit : Nat) :
    (encode (flip a bit).1).length = (encode a).length := by
  rcases Nat.lt_or_ge bit (bitCount a) with hbit | hbit
  · obtain ⟨b, hflip, -, hdiffers⟩ := h.flip_of_lt ha hbit
    rw [hflip, hdiffers.1]
  · rw [flip_of_le hbit]

/-- **What a flip does to each bit of the image.** Behind the end there is no bit to change. -/
theorem imageBit_flip (h : Corresponds good fits) (ha : good a) (bit i : Nat) :
    imageBit (encode (flip a bit).1) i = (imageBit (encode a) i).map (decide (i = bit) ^^ ·) := by
  rcases Nat.lt_or_ge bit (bitCount a) with hbit | hbit
  · obtain ⟨b, hflip, -, hdiffers⟩ := h.flip_of_lt ha hbit
    rw [hflip, hdiffers.2.2]
    by_cases heq : i = bit <;> simp [heq]
  · rw [flip_of_le hbit]
    by_cases heq : i = bit
    · rw [heq, imageBit_eq_none hbit, Option.map_none]
    · simp [heq]

/-- Payloads are the same if the bits of their images are. -/
theorem ext (h : Corresponds good fits) (ha : good a) (hb : good b)
    (hlength : (encode a).length = (encode b).length)
    (hbits : ∀ i, imageBit (encode a) i = imageBit (encode b) i) : a = b := by
  rw [← h.decode_encode a ha, ← h.decode_encode b hb, imageBit_ext hlength hbits]

theorem flip_flip (h : Corresponds good fits) (ha : good a) (bit : Nat) :
    (flip (flip a bit).1 bit).1 = a := by
  have hb := h.good_flip ha bit
  refine h.ext (h.good_flip hb bit) ha ?_ fun i => ?_
  · rw [h.length_flip hb, h.length_flip ha]
  · rw [h.imageBit_flip hb, h.imageBit_flip ha, Option.map_map]
    simp [Function.comp_def]

theorem flip_comm (h : Corresponds good fits) (ha : good a) (bit bit' : Nat) :
    (flip (flip a bit).1 bit').1 = (flip (flip a bit').1 bit).1 := by
  have hb := h.good_flip ha bit
  have hb' := h.good_flip ha bit'
  refine h.ext (h.good_flip hb bit') (h.good_flip hb' bit) ?_ fun i => ?_
  · rw [h.length_flip hb, h.length_flip hb', h.length_flip ha, h.length_flip ha]
  · rw [h.imageBit_flip hb, h.imageBit_flip hb', h.imageBit_flip ha, h.imageBit_flip ha,
      Option.map_map, Option.map_map]
    simp only [Function.comp_def, Bool.xor_left_comm]

end Corresponds

/-- What flips do to a payload, and that the result is of the kind that `good` admits. -/
structure FlipsExactly (good : α → Prop) (a : α) : Prop where
  inside : ∀ bit < bitCount a, ∃ b, flip a bit = (b, true) ∧ b ≠ a ∧ good b ∧
    DiffersAt bit (encode a) (encode b) ∧ bitCount b = bitCount a ∧ flip b bit = (a, true)
  comm : ∀ bit bit', (flip (flip a bit).1 bit').1 = (flip (flip a bit').1 bit).1
  outside : ∀ bit, bitCount a ≤ bit → flip a bit = (a, false)

theorem Corresponds.flipsExactly {good : α → Prop} {fits : Nat → Prop} (h : Corresponds good fits)
    (ha : good a) : FlipsExactly good a where
  inside bit hbit := by
    obtain ⟨b, hflip, hb, hdiffers⟩ := h.flip_of_lt ha hbit
    have hcount : bitCount b = bitCount a := congrArg (8 * ·) hdiffers.1
    have hback : (flip b bit).1 = a := by
      have htwice := h.flip_flip ha bit
      rwa [hflip] at htwice
    obtain ⟨c, hflip', -, -⟩ := h.flip_of_lt hb (hcount ▸ hbit)
    obtain rfl : c = a := by rwa [hflip'] at hback
    exact ⟨b, hflip, fun heq => hdiffers.ne (congrArg encode heq), hb, hdiffers, hcount, hflip'⟩
  comm := h.flip_comm ha
  outside _ := flip_of_le

end Payload

/-! ## The three kinds of payloads -/

/-- A code names the reason of the redirect. -/
def Redirect.Named (r : Redirect) : Prop := ∃ code, r.reason = .ofCode code

theorem Redirect.Named.ofCode_code {r : Redirect} (h : r.Named) :
    Reason.ofCode r.reason.code = r.reason := by
  obtain ⟨code, hcode⟩ := h
  rw [hcode, Reason.code_ofCode]

theorem Line.corresponds : Payload.Corresponds (fun _ : Line => True) (37 ≤ ·) where
  decode_encode l _ := l.decode_encode
  encode_decode _ := Line.encode_decode
  fits_encode l _ := by
    simp only [Payload.encode, Line.encode, List.length_cons, List.length_append,
      Bytes.length_ofUInt32, Bytes.length_ofUInt64]
    omega
  good_decode _ _ := trivial

theorem Bundle.corresponds (w : Nat) :
    Payload.Corresponds (fun b : Bundle => b.width = w) (· = 5 + MicroOp.imageBytes * w) where
  decode_encode b _ := b.decode_encode
  encode_decode _ := Bundle.encode_decode
  fits_encode b hb := by
    simp only [Payload.encode, Bundle.encode, List.length_cons, List.length_append,
      Bytes.length_ofUInt32, MicroOp.length_encode_row]
    rw [← hb, Bundle.width]
    omega
  good_decode image h := by
    show ((List.range ((image.length - 5) / MicroOp.imageBytes)).map _).length = w
    rw [List.length_map, List.length_range, h, Nat.add_sub_cancel_left]
    exact Nat.mul_div_cancel_left w (by decide)

theorem Redirect.corresponds : Payload.Corresponds Redirect.Named (· = 30) where
  decode_encode _ hr := Redirect.decode_encode hr.ofCode_code
  encode_decode _ := Redirect.encode_decode
  fits_encode r _ := by simp [Payload.encode, Redirect.encode]
  good_decode image _ := ⟨Bytes.u8At image 1, rfl⟩

/-- **Images are one for one, and flips are exact.** Lines, bundles of each width and redirects with
a reason that a code names correspond to the byte strings of their lengths. A flip of a bit inside
the image gives another payload of the same kind and length, whose image differs in that bit alone,
and the same flip takes it back; flips commute; behind the end of the image nothing is flipped. -/
theorem Payload.images_exact :
    Corresponds (fun _ : Line => True) (37 ≤ ·) ∧
    (∀ w, Corresponds (fun b : Bundle => b.width = w) (· = 5 + 38 * w)) ∧
    Corresponds Redirect.Named (· = 30) ∧
    (∀ l : Line, FlipsExactly (fun _ => True) l) ∧
    (∀ b : Bundle, FlipsExactly (fun b' => b'.width = b.width) b) ∧
    ∀ r : Redirect, r.Named → FlipsExactly Redirect.Named r :=
  ⟨Line.corresponds, Bundle.corresponds, Redirect.corresponds,
    fun _ => Line.corresponds.flipsExactly trivial,
    fun b => (Bundle.corresponds b.width).flipsExactly rfl,
    fun _ => Redirect.corresponds.flipsExactly⟩

/-- A halt of which the code is hit has a reason that is unknown, and the same flip takes it
back. -/
theorem images_exact_halt : Redirect.Named (.live .halt 0 0x100 1 0) ∧
    ∃ r : Redirect, Payload.flip (.live .halt 0 0x100 1 0) 12 = (r, true) ∧
      r.reason = .unknown 24 ∧ r.Named ∧ Payload.flip r 12 = (.live .halt 0 0x100 1 0, true) := by
  have hnamed : Redirect.Named (.live .halt 0 0x100 1 0) := ⟨8, by decide⟩
  obtain ⟨-, -, -, -, -, hflips⟩ := Payload.images_exact
  obtain ⟨r, hflip, -, hr, -, -, hback⟩ := (hflips _ hnamed).inside 12 (by decide)
  have hreason : (Payload.flip (Redirect.live .halt 0 0x100 1 0) 12).1.reason = .unknown 24 := by
    decide
  rw [hflip] at hreason
  exact ⟨hnamed, r, hflip, hreason, hr, hback⟩

end InOrder
