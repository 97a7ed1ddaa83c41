import InOrder.Proofs.Contents
import Mathlib.Order.Filter.AtTopBot.Basic

/-!
# Registers and queues in the course of time

A register is followed through the cycles of a run: `r k` is the register before cycle `k`, and
`w k` is what is written in that cycle. What is written comes to the output after as many cycles as
the register has slots in its row (`Register.Runs.arrives`), and a register to which nothing is
written any more holds nothing from some cycle on (`Register.Runs.eventually_held`). In the same way
a queue that serves an entry in each cycle serves all of them (`Serves.serves`), and is empty from
some cycle on if nothing comes in any more (`Serves.eventually_nil`).

What is said of all cycles from some cycle on is said with the filter `atTop`.
-/

namespace InOrder

open Filter

namespace Register

variable {α : Type} {r : Nat → Register α} {w : Nat → Option α}

/-- The register of each cycle comes of the one before, and of what is written to it. -/
def Runs (r : Nat → Register α) (w : Nat → Option α) : Prop :=
  ∀ k, r (k + 1) = ((r k).write? (w k)).advance

namespace Runs

theorem row_succ (h : Runs r w) (k : Nat) :
    (r (k + 1)).row = (r k).row.tail ++ [((r k).write? (w k)).input] := by
  rw [h k, row_cycle]

theorem length_row (h : Runs r w) (k : Nat) : (r k).row.length = (r 0).row.length := by
  induction k with
  | zero => rfl
  | succ k ih => rw [h k, length_row_cycle, ih]

/-- What is not at the output moves one slot towards it. -/
theorem shift (h : Runs r w) {k i : Nat} {a : α} (ha : (r k).row[i + 1]? = some a) :
    (r (k + 1)).row[i]? = some a := by
  have htail : (r k).row.tail[i]? = some a := ha
  rw [h.row_succ, List.getElem?_append_left (List.getElem?_eq_some_iff.mp htail).1, htail]

/-- What is written is in the row from then on, until it comes to the output. -/
theorem row_of_write (h : Runs r w) {k : Nat} {a : α} (ha : w k = some a) {j : Nat} :
    ∀ {i : Nat}, i + j + 1 = (r 0).row.length → (r (k + 1 + j)).row[i]? = some a := by
  induction j with
  | zero =>
    intro i hi
    have hlength : (r k).row.tail.length + 1 = (r 0).row.length := h.length_row k
    rw [h.row_succ, show i = (r k).row.tail.length by omega, List.getElem?_concat_length, ha]
    rfl
  | succ j ih =>
    intro i hi
    exact h.shift (ih (by omega))

/-- **What is written comes to the output.** -/
theorem arrives (h : Runs r w) {k : Nat} {a : α} (ha : w k = some a) :
    (r (k + (r 0).row.length)).output = a := by
  obtain ⟨j, hj⟩ : ∃ j, (r 0).row.length = j + 1 := ⟨(r 0).line.middle.length, rfl⟩
  have hrow := h.row_of_write ha (j := j) (i := 0) (by omega)
  rw [hj, ← Nat.add_assoc, Nat.add_right_comm]
  exact Option.some.inj hrow

variable [Payload α]

/-- While what was written is in the row, the register is not empty. -/
theorem isEmpty_of_write (h : Runs r w) {k : Nat} {a : α} (ha : w k = some a)
    (hlive : Payload.isBubble a = false) {j : Nat} (hj : j < (r 0).row.length) :
    (r (k + 1 + j)).isEmpty = false := by
  obtain ⟨i, hi⟩ : ∃ i, i + j + 1 = (r 0).row.length :=
    ⟨(r 0).row.length - (j + 1), by omega⟩
  have hmem := List.mem_of_getElem? (h.row_of_write ha hi)
  cases hempty : (r (k + 1 + j)).isEmpty with
  | false => rfl
  | true =>
    have hheld : a ∈ (r (k + 1 + j)).held := by
      rw [held_eq]
      exact mem_present.mpr ⟨hmem, hlive⟩
    rw [held_of_isEmpty hempty] at hheld
    exact absurd hheld (by simp)

theorem clean (h : Runs r w) (h₀ : (r 0).Clean) (k : Nat) : (r k).Clean := by
  induction k with
  | zero => exact h₀
  | succ k ih =>
    rw [h k]
    exact clean_cycle ih (w k)

/-- Where nothing was written for some cycles there are bubbles in as many slots. -/
theorem bubble_of_quiet (h : Runs r w) (h₀ : (r 0).Clean) {a : Nat} (hquiet : ∀ k ≥ a, w k = none)
    (j : Nat) : ∀ {i : Nat} {x : α}, (r (a + j)).row[i]? = some x → (r 0).row.length ≤ i + j →
      Payload.isBubble x = true := by
  induction j with
  | zero =>
    intro i x hx hi
    have hlt := (List.getElem?_eq_some_iff.mp hx).1
    rw [h.length_row] at hlt
    omega
  | succ j ih =>
    intro i x hx hi
    rw [← Nat.add_assoc, h.row_succ, hquiet (a + j) (Nat.le_add_right a j)] at hx
    rcases Nat.lt_or_ge i (r (a + j)).row.tail.length with hlt | hge
    · rw [List.getElem?_append_left hlt, List.getElem?_tail] at hx
      exact ih hx (by omega)
    · rw [List.getElem?_append_right hge] at hx
      have hinput : x = (r (a + j)).input := by
        have hmem := List.mem_of_getElem? hx
        rw [List.mem_singleton] at hmem
        exact hmem
      rw [hinput]
      exact (h.clean h₀ (a + j)).input

/-- A register to which nothing is written any more holds nothing when its row has gone by. -/
theorem held_eq_nil (h : Runs r w) (h₀ : (r 0).Clean) {a : Nat} (hquiet : ∀ k ≥ a, w k = none)
    {k : Nat} (hk : a + (r 0).row.length ≤ k) : (r k).held = [] := by
  obtain ⟨j, rfl⟩ := Nat.exists_eq_add_of_le (Nat.le_trans (Nat.le_add_right a _) hk)
  rw [held_eq, List.eq_nil_iff_forall_not_mem]
  intro x hx
  obtain ⟨hmem, hlive⟩ := mem_present.mp hx
  obtain ⟨i, hi⟩ := List.getElem?_of_mem hmem
  rw [h.bubble_of_quiet h₀ hquiet j hi (by omega)] at hlive
  exact absurd hlive (by simp)

/-- **A register to which nothing is written any more is empty from some cycle on.** -/
theorem eventually_held (h : Runs r w) (h₀ : (r 0).Clean) (hquiet : ∀ᶠ k in atTop, w k = none) :
    ∀ᶠ k in atTop, (r k).held = [] := by
  obtain ⟨a, ha⟩ := eventually_atTop.mp hquiet
  exact eventually_atTop.mpr ⟨a + (r 0).row.length, fun k hk => h.held_eq_nil h₀ ha hk⟩

end Runs

end Register

/-! ## Queues -/

/-- From cycle `a` on the queue `q` gives its oldest entry away in each cycle, and `x` comes in. -/
def Serves {α : Type} (a : Nat) (q x : Nat → List α) : Prop :=
  ∀ k ≥ a, q (k + 1) = (q k ++ x k).tail

namespace Serves

variable {α : Type} {a : Nat} {q x : Nat → List α}

/-- **Every entry is served.** -/
theorem serves (h : Serves a q x) {b : α} {i : Nat} :
    ∀ {k : Nat}, a ≤ k → (q k ++ x k)[i]? = some b → ∃ j ≥ k, (q j ++ x j).head? = some b := by
  induction i with
  | zero =>
    intro k _ hb
    exact ⟨k, Nat.le_refl k, by rw [List.head?_eq_getElem?, hb]⟩
  | succ i ih =>
    intro k hk hb
    have hnext : (q (k + 1))[i]? = some b := by rw [h k hk, List.getElem?_tail, hb]
    have hwith : (q (k + 1) ++ x (k + 1))[i]? = some b := by
      rw [List.getElem?_append_left (List.getElem?_eq_some_iff.mp hnext).1, hnext]
    obtain ⟨j, hj, hserved⟩ := ih (Nat.le_succ_of_le hk) hwith
    exact ⟨j, Nat.le_of_succ_le hj, hserved⟩

/-- **A queue into which nothing comes any more is empty from some cycle on.** -/
theorem eventually_nil (h : Serves a q x) (hquiet : ∀ᶠ k in atTop, x k = []) :
    ∀ᶠ k in atTop, q k = [] := by
  obtain ⟨b, hb⟩ := eventually_atTop.mp hquiet
  -- after cycle `max a b` each cycle takes one entry away
  have hlength : ∀ j, (q (max a b + j)).length = (q (max a b)).length - j := by
    intro j
    induction j with
    | zero => rfl
    | succ j ih =>
      have ha : a ≤ max a b + j := Nat.le_trans (Nat.le_max_left a b) (Nat.le_add_right _ j)
      have hquiet := hb (max a b + j) (Nat.le_trans (Nat.le_max_right a b) (Nat.le_add_right _ j))
      rw [← Nat.add_assoc, h _ ha, hquiet, List.append_nil, List.length_tail, ih, Nat.sub_sub]
  refine eventually_atTop.mpr ⟨max a b + (q (max a b)).length, fun k hk => ?_⟩
  obtain ⟨j, rfl⟩ := Nat.exists_eq_add_of_le (Nat.le_trans (Nat.le_add_right _ _) hk)
  rw [← List.length_eq_zero_iff, hlength j]
  omega

end Serves

end InOrder
