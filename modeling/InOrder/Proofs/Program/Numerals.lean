import InOrder.Program.Text
import Mathlib.Data.List.Forall2
import Mathlib.Data.Nat.Digits.Defs
import Mathlib.Tactic.Ring

/-!
# Numbers as they are written

The documented form of a number in a program has a mark of its base, or none, and digits. The reader
also takes a plus sign between the two, so the form `Hex.Numeral` has a parameter that allows it.

* `Hex.readDigits?_eq_some_iff`: the digits that are read are those that spell the number.
* `Hex.numeral_marked_iff` and `Hex.numeral_unmarked_iff`: what is read, once the mark is taken off,
  is a number with the sign allowed.
* `Hex.numeral_false_iff`: without the sign allowed, it is one in which there is none.
-/

namespace InOrder

namespace Hex

/-- The digits in lower case, each at the place of its value. -/
def lowerDigits : List Char := "0123456789abcdef".toList

/-- The digits in upper case, each at the place of its value. -/
def upperDigits : List Char := "0123456789ABCDEF".toList

/-- `c` is the digit of value `v`, in one case or the other. -/
def IsDigit (c : Char) (v : Nat) : Prop := lowerDigits[v]? = some c ∨ upperDigits[v]? = some c

/-- The characters `cs` are digits, the most significant first, and spell `n`. -/
def Spells (cs : List Char) (n : Nat) : Prop :=
  cs ≠ [] ∧ ∃ vs, List.Forall₂ IsDigit cs vs ∧ Nat.ofDigits 16 vs.reverse = n

/-- A number as it is written: a mark of its base or none, a plus sign if there may be one, and its
digits. -/
def Numeral (plus : Bool) (cs : List Char) (n : Nat) : Prop :=
  ∃ mark sign ds, cs = mark ++ sign ++ ds ∧ mark ∈ [[], ['0', 'x'], ['0', 'X']] ∧
    (sign = [] ∨ plus = true ∧ sign = ['+']) ∧ Spells ds n

theorem lt_of_value? {c : Char} {v : Nat} (h : value? c = some v) : c.toNat < 103 ∧ v < 16 := by
  have hcode : ∀ {a b : Char}, a ≤ b ↔ a.toNat ≤ b.toNat := Iff.rfl
  simp only [value?, hcode, Char.reduceToNat] at h
  grind

theorem value?_eq_some_iff {c : Char} {v : Nat} : value? c = some v ↔ IsDigit c v := by
  constructor
  · intro h
    have hspelt : ∀ n < 103, ∀ v < 16, value? (Char.ofNat n) = some v →
        lowerDigits[v]? = some (Char.ofNat n) ∨ upperDigits[v]? = some (Char.ofNat n) := by
      decide +kernel
    obtain ⟨hc, hv⟩ := lt_of_value? h
    have hchar := hspelt c.toNat hc v hv
    rw [Char.ofNat_toNat] at hchar
    exact hchar h
  · have hread : ∀ v : Fin 16, value? (lowerDigits.get v) = some v.val ∧
        value? (upperDigits.get v) = some v.val := by decide
    rintro (h | h)
    · obtain ⟨hv, rfl⟩ := List.getElem?_eq_some_iff.mp h
      exact (hread ⟨v, hv⟩).1
    · obtain ⟨hv, rfl⟩ := List.getElem?_eq_some_iff.mp h
      exact (hread ⟨v, hv⟩).2

theorem readFrom?_eq_some_iff {cs : List Char} {acc n : Nat} : readFrom? acc cs = some n ↔
    ∃ vs, List.Forall₂ IsDigit cs vs ∧ n = acc * 16 ^ vs.length + Nat.ofDigits 16 vs.reverse := by
  induction cs generalizing acc with
  | nil => simp [readFrom?, eq_comm]
  | cons c cs ih =>
    have hshift : ∀ v (vs : List Nat),
        (16 * acc + v) * 16 ^ vs.length + Nat.ofDigits 16 vs.reverse =
          acc * 16 ^ (v :: vs).length + Nat.ofDigits 16 (v :: vs).reverse := by
      intro v vs
      rw [List.reverse_cons, Nat.ofDigits_append, Nat.ofDigits_singleton, List.length_reverse,
        List.length_cons]
      ring
    rw [readFrom?]
    constructor
    · intro h
      cases hv : value? c with
      | none => simp [hv] at h
      | some v =>
        simp only [hv] at h
        obtain ⟨vs, hvs, hn⟩ := ih.mp h
        exact ⟨v :: vs, .cons (value?_eq_some_iff.mp hv) hvs, hn.trans (hshift v vs)⟩
    · rintro ⟨vs, hvs, hn⟩
      cases hvs with
      | @cons _ v _ vs hv hvs =>
        rw [value?_eq_some_iff.mpr hv]
        exact ih.mpr ⟨vs, hvs, hn.trans (hshift v vs).symm⟩

theorem readDigits?_eq_some_iff {cs : List Char} {n : Nat} :
    readDigits? cs = some n ↔ Spells cs n := by
  unfold Spells
  cases cs with
  | nil => simp [readDigits?]
  | cons c cs =>
    rw [readDigits?, readFrom?_eq_some_iff]
    · simp [eq_comm]
    · simp

/-- What a numeral consists of. -/
def numeralChars : List Char := lowerDigits ++ upperDigits ++ ['x', 'X', '+']

theorem mem_digits_of_spells {cs : List Char} {n : Nat} (h : Spells cs n) {c : Char} (hc : c ∈ cs) :
    c ∈ lowerDigits ++ upperDigits := by
  obtain ⟨-, vs, hvs, -⟩ := h
  obtain ⟨i, hi, rfl⟩ := List.getElem_of_mem hc
  rcases hvs.get hi (hvs.length_eq ▸ hi) with h | h
  · exact List.mem_append_left _ (List.mem_of_getElem? h)
  · exact List.mem_append_right _ (List.mem_of_getElem? h)

theorem Numeral.mem {plus : Bool} {cs : List Char} {n : Nat} (h : Numeral plus cs n) {c : Char}
    (hc : c ∈ cs) : c ∈ numeralChars := by
  obtain ⟨mark, sign, ds, rfl, hmark, hsign, hds⟩ := h
  rcases List.mem_append.mp hc with hc | hc
  · rcases List.mem_append.mp hc with hc | hc
    · have hmarks : ∀ m ∈ ([[], ['0', 'x'], ['0', 'X']] : List (List Char)), m ⊆ numeralChars := by
        decide
      exact hmarks mark hmark hc
    · rcases hsign with rfl | ⟨-, rfl⟩
      · exact absurd hc List.not_mem_nil
      · rw [List.mem_singleton.mp hc]
        decide
  · exact List.mem_append_left _ (mem_digits_of_spells hds hc)

/-- The sign is all that is allowed in addition. -/
theorem numeral_false_iff {cs : List Char} {n : Nat} :
    Numeral false cs n ↔ Numeral true cs n ∧ '+' ∉ cs := by
  constructor
  · rintro ⟨mark, sign, ds, rfl, hmark, hsign, hds⟩
    obtain rfl : sign = [] := by simpa using hsign
    refine ⟨⟨mark, [], ds, rfl, hmark, .inl rfl, hds⟩, fun hmem => ?_⟩
    rw [List.append_nil] at hmem
    rcases List.mem_append.mp hmem with hmem | hmem
    · have hmarks : ∀ m ∈ ([[], ['0', 'x'], ['0', 'X']] : List (List Char)), '+' ∉ m := by decide
      exact hmarks mark hmark hmem
    · exact absurd (mem_digits_of_spells hds hmem) (by decide)
  · rintro ⟨⟨mark, sign, ds, rfl, hmark, rfl | ⟨-, rfl⟩, hds⟩, hno⟩
    · exact ⟨mark, [], ds, rfl, hmark, .inl rfl, hds⟩
    · exact absurd (by simp) hno

/-- No character of a numeral has another meaning on its line. -/
theorem Numeral.plain {plus : Bool} {cs : List Char} {n : Nat} (h : Numeral plus cs n) {c : Char}
    (hc : c ∈ cs) : Text.isBlank c = false ∧ c ≠ '#' ∧ c ≠ '@' := by
  have hplain : numeralChars.all fun c => !Text.isBlank c && c != '#' && c != '@' := by decide
  simpa [and_assoc] using List.all_eq_true.mp hplain c (h.mem hc)

theorem Numeral.ne_nil {plus : Bool} {cs : List Char} {n : Nat} (h : Numeral plus cs n) :
    cs ≠ [] := by
  obtain ⟨mark, sign, ds, rfl, -, -, hne, -⟩ := h
  simp [hne]

theorem read?_eq_some_iff {cs : List Char} {n : Nat} : read? cs = some n ↔
    ∃ sign ds, cs = sign ++ ds ∧ (sign = [] ∨ sign = ['+']) ∧ Spells ds n := by
  constructor
  · intro h
    unfold read? at h
    split at h
    · rename_i ds
      exact ⟨['+'], ds, rfl, .inr rfl, readDigits?_eq_some_iff.mp h⟩
    · exact ⟨[], cs, rfl, .inl rfl, readDigits?_eq_some_iff.mp h⟩
  · rintro ⟨sign, ds, rfl, rfl | rfl, hds⟩
    · have hsigned : ∀ rest, ds ≠ '+' :: rest := by
        rintro rest rfl
        exact absurd (mem_digits_of_spells hds List.mem_cons_self) (by decide)
      rw [List.nil_append, read?, readDigits?_eq_some_iff.mpr hds]
      exact hsigned
    · exact readDigits?_eq_some_iff.mpr hds

/-- Behind a mark stands what is read. -/
theorem numeral_marked_iff {x : Char} {cs : List Char} {n : Nat} (hx : x = 'x' ∨ x = 'X') :
    Numeral true ('0' :: x :: cs) n ↔ read? cs = some n := by
  rw [read?_eq_some_iff]
  constructor
  · rintro ⟨mark, sign, ds, heq, hmark, hsign, hds⟩
    have hsign := hsign.imp_right And.right
    have hmarks : mark = [] ∨ mark = ['0', 'x'] ∨ mark = ['0', 'X'] := by simpa using hmark
    rcases hmarks with rfl | rfl | rfl
    · -- a letter of a mark is no digit
      have hmem : x ∈ ds := by
        rcases hsign with rfl | rfl
        · rw [← show _ = ds from heq]
          simp
        · exact absurd (List.cons.inj heq).1 (by decide)
      have hdigit := mem_digits_of_spells hds hmem
      rcases hx with rfl | rfl <;> exact absurd hdigit (by decide)
    all_goals exact ⟨sign, ds, by simpa using (List.cons.inj (List.cons.inj heq).2).2, hsign, hds⟩
  · rintro ⟨sign, ds, rfl, hsign, hds⟩
    refine ⟨['0', x], sign, ds, rfl, ?_, hsign.imp_right (⟨rfl, ·⟩), hds⟩
    rcases hx with rfl | rfl <;> decide

theorem numeral_unmarked_iff {cs : List Char} {n : Nat} (hx : ∀ r, cs ≠ '0' :: 'x' :: r)
    (hX : ∀ r, cs ≠ '0' :: 'X' :: r) : Numeral true cs n ↔ read? cs = some n := by
  rw [read?_eq_some_iff]
  constructor
  · rintro ⟨mark, sign, ds, rfl, hmark, hsign, hds⟩
    have hmarks : mark = [] ∨ mark = ['0', 'x'] ∨ mark = ['0', 'X'] := by simpa using hmark
    rcases hmarks with rfl | rfl | rfl
    · exact ⟨sign, ds, rfl, hsign.imp_right And.right, hds⟩
    · exact absurd rfl (hx (sign ++ ds))
    · exact absurd rfl (hX (sign ++ ds))
  · rintro ⟨sign, ds, rfl, hsign, hds⟩
    exact ⟨[], sign, ds, rfl, by decide, hsign.imp_right (⟨rfl, ·⟩), hds⟩

end Hex

end InOrder
