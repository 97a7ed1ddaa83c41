import InOrder.Stage.Execute
import Mathlib.Logic.Function.Basic

/-!
# What a signature tells apart

The factor of the signature is odd, so it has an inverse among the words, and each step can be taken
back (`Signature.absorbWord_injective`). So a difference in one instruction is not lost, whatever
retires after it: `Signature.ofList_ne`.
-/

namespace InOrder

namespace Signature

/-- The word by which the factor is undone. -/
def cofactor : UInt64 := 0xce965057aff6957b

theorem factor_mul_cofactor : factor * cofactor = 1 := by decide

/-- To multiply by the factor loses nothing. -/
theorem mul_factor_injective : Function.Injective (· * factor) := by
  intro a b h
  have hback := congrArg (· * cofactor) h
  simpa only [UInt64.mul_assoc, factor_mul_cofactor, UInt64.mul_one] using hback

/-- **A step can be taken back**, if the word is known. -/
theorem absorbWord_injective (w : UInt64) : Function.Injective (absorbWord · w) := by
  intro a b h
  have hxor : a ^^^ w = b ^^^ w := mul_factor_injective h
  exact (UInt64.xor_left_inj w).mp hxor

/-- **A step tells words apart.** -/
theorem absorbWord_ne (s : UInt64) {w w' : UInt64} (h : w ≠ w') :
    absorbWord s w ≠ absorbWord s w' := by
  intro hsame
  have hxor : s ^^^ w = s ^^^ w' := mul_factor_injective hsame
  exact h ((UInt64.xor_right_inj s).mp hxor)

theorem absorb_injective (r : Retired) : Function.Injective (absorb · r) :=
  (absorbWord_injective r.inst.toUInt64).comp (absorbWord_injective r.pc)

/-- What retires afterwards does not hide a difference. -/
theorem foldl_absorb_injective (rs : List Retired) : Function.Injective (rs.foldl absorb ·) := by
  induction rs with
  | nil => exact fun _ _ h => h
  | cons r rs ih => exact ih.comp (absorb_injective r)

/-- **Runs that differ in one instruction word have different signatures.** -/
theorem ofList_ne {r r' : Retired} (hpc : r'.pc = r.pc) (hinst : r'.inst ≠ r.inst)
    (before after : List Retired) :
    ofList (before ++ r' :: after) ≠ ofList (before ++ r :: after) := by
  have hword : r'.inst.toUInt64 ≠ r.inst.toUInt64 := fun hsame =>
    hinst (UInt32.toUInt64_inj.mp hsame)
  rw [ofList, ofList, List.foldl_append, List.foldl_append, List.foldl_cons, List.foldl_cons]
  refine fun hsame => absorbWord_ne (absorbWord (ofList before) r.pc) hword ?_
  have hstep := foldl_absorb_injective after hsame
  rwa [absorb, absorb, hpc] at hstep

end Signature

end InOrder
