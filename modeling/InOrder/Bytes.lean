/-!
# Little-endian words

`ofNat n x` is the low `n` bytes of `x`, lowest first, and `toNat bs` the number that the bytes
`bs` spell. A word read past the end of a byte string has zeros there, since missing high bytes
add nothing.

* `toNat_ofNat`: reading back what was written gives `x` modulo `256 ^ n`.
* `ofNat_toNat`: a byte string of length `n` is the low `n` bytes of its number.
-/

namespace InOrder.Bytes

/-- The low `n` bytes of `x`. -/
def ofNat : Nat → Nat → List UInt8
  | 0, _ => []
  | n + 1, x => UInt8.ofNat x :: ofNat n (x / 256)

/-- The number that the bytes spell. -/
def toNat : List UInt8 → Nat
  | [] => 0
  | b :: bs => b.toNat + 256 * toNat bs

/-- The number that the first `n` bytes spell. -/
def leading : Nat → List UInt8 → Nat
  | 0, _ => 0
  | _, [] => 0
  | n + 1, b :: bs => b.toNat + 256 * leading n bs

/-- The four bytes of a word. -/
def ofUInt32 (w : UInt32) : List UInt8 := ofNat 4 w.toNat

/-- The eight bytes of a long word. -/
def ofUInt64 (w : UInt64) : List UInt8 := ofNat 8 w.toNat

/-- The byte at `i`, zero past the end. -/
def u8At (bs : List UInt8) (i : Nat) : UInt8 := bs.getD i 0

/-- The word of four bytes at `i`. -/
def u32At (bs : List UInt8) (i : Nat) : UInt32 := UInt32.ofNat (leading 4 (bs.drop i))

/-- The long word of eight bytes at `i`. -/
def u64At (bs : List UInt8) (i : Nat) : UInt64 := UInt64.ofNat (leading 8 (bs.drop i))

@[simp] theorem length_ofNat (n x : Nat) : (ofNat n x).length = n := by
  induction n generalizing x with
  | zero => rfl
  | succ n ih => simp [ofNat, ih]

theorem leading_eq_toNat_take (n : Nat) (bs : List UInt8) : leading n bs = toNat (bs.take n) := by
  induction n generalizing bs with
  | zero => rfl
  | succ n ih =>
    cases bs with
    | nil => rfl
    | cons b bs => simp [leading, toNat, ih]

theorem toNat_ofNat (n x : Nat) : toNat (ofNat n x) = x % Nat.pow 256 n := by
  induction n generalizing x with
  | zero => exact (Nat.mod_one x).symm
  | succ n ih =>
    have h : (UInt8.ofNat x).toNat = x % 256 := UInt8.toNat_ofNat'
    have hpow : Nat.pow 256 (n + 1) = 256 * Nat.pow 256 n := Nat.pow_succ'
    rw [ofNat, toNat, ih, h, hpow, Nat.mod_mul]

theorem toNat_lt (bs : List UInt8) : toNat bs < Nat.pow 256 bs.length := by
  induction bs with
  | nil => simp [toNat]
  | cons b bs ih =>
    have hb : b.toNat < 256 := b.toNat_lt
    have hpow : Nat.pow 256 (b :: bs).length = Nat.pow 256 bs.length * 256 :=
      Nat.pow_succ 256 bs.length
    rw [hpow, toNat]
    omega

theorem ofNat_toNat (bs : List UInt8) : ofNat bs.length (toNat bs) = bs := by
  induction bs with
  | nil => rfl
  | cons b bs ih =>
    have hb : b.toNat < 256 := b.toNat_lt
    have hd : (b.toNat + 256 * toNat bs) / 256 = toNat bs := by omega
    simp only [List.length_cons, ofNat, toNat, hd, ih, List.cons.injEq, and_true]
    apply UInt8.toNat_inj.mp
    rw [UInt8.toNat_ofNat']
    omega

end InOrder.Bytes
