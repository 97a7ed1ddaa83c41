import InOrder.Activity

/-!
# What the activity recorder counts

The recorder keeps its count as the operations go. Between cycles it is the number of busy cycles
among the last ones, as many as are remembered, and of the marks held (`Activity.Tallied`). So
nothing is active when the marks are taken away and no cycle that is remembered was busy.
-/

namespace InOrder

namespace Activity

/-- The count is right, and nothing is noted in this cycle yet. -/
structure Tallied (length : Nat) (a : Activity) : Prop where
  length : a.past.length = length
  current : a.current = false
  nodup : a.marks.Nodup
  count : a.count = a.past.count true + a.marks.length

variable {n : Nat} {a : Activity}

theorem Tallied.new (name : String) (n : Nat) : (Activity.new name n).Tallied n where
  length := List.length_replicate
  current := rfl
  nodup := List.nodup_nil
  count := by simp [Activity.new, List.count_replicate]

theorem Tallied.mark (h : a.Tallied n) (holder : Holder) : (a.mark holder).Tallied n := by
  unfold Activity.mark
  split
  · exact h
  · rename_i hnew
    refine ⟨h.length, h.current, List.nodup_cons.mpr ⟨hnew, h.nodup⟩, ?_⟩
    show a.count + 1 = a.past.count true + (a.marks.length + 1)
    rw [h.count]
    rfl

theorem Tallied.unmark (h : a.Tallied n) (holder : Holder) : (a.unmark holder).Tallied n := by
  unfold Activity.unmark
  split
  · rename_i hmem
    refine ⟨h.length, h.current, h.nodup.erase holder, ?_⟩
    have hlength := List.length_erase_of_mem hmem
    have hpos := List.length_pos_of_mem hmem
    show a.count - 1 = a.past.count true + (a.marks.erase holder).length
    rw [h.count, hlength]
    omega
  · exact h

theorem Tallied.mem_unmark (h : a.Tallied n) {holder other : Holder} :
    other ∈ (a.unmark holder).marks ↔ other ≠ holder ∧ other ∈ a.marks := by
  rw [← h.nodup.mem_erase_iff]
  unfold Activity.unmark
  split
  · rfl
  · rename_i hnone
    rw [List.erase_of_not_mem hnone]

theorem past_unmark (a : Activity) (holder : Holder) : (a.unmark holder).past = a.past := by
  unfold unmark
  split <;> rfl

/-- To take marks away does not touch what was noted, nor other marks. -/
theorem Tallied.unmarks (hs : List Holder) : ∀ {a : Activity}, a.Tallied n →
    (hs.foldl Activity.unmark a).Tallied n ∧ (hs.foldl Activity.unmark a).past = a.past ∧
      ∀ other, other ∈ (hs.foldl Activity.unmark a).marks ↔ other ∉ hs ∧ other ∈ a.marks := by
  induction hs with
  | nil => exact fun h => ⟨h, rfl, fun other => by simp⟩
  | cons holder hs ih =>
    intro a h
    obtain ⟨htallied, hpast, hmarks⟩ := ih (h.unmark holder)
    refine ⟨htallied, hpast.trans (past_unmark a holder), fun other => ?_⟩
    rw [List.foldl_cons, hmarks, h.mem_unmark, List.mem_cons, not_or]
    exact and_left_comm.trans and_assoc.symm

/-- **No mark is left when all are taken away**, and what was noted stays. -/
theorem Tallied.unmarkAll (h : a.Tallied n) :
    a.unmarkAll.Tallied n ∧ a.unmarkAll.past = a.past ∧ a.unmarkAll.marks = [] := by
  obtain ⟨htallied, hpast, hmarks⟩ := h.unmarks Holder.all
  refine ⟨htallied, hpast, ?_⟩
  rw [List.eq_nil_iff_forall_not_mem]
  intro holder hmem
  have hnone := ((hmarks holder).mp hmem).1
  cases holder <;> exact hnone (by decide)

/-- A cycle is noted at the end, and the oldest is forgotten. -/
theorem Tallied.advance (h : a.Tallied n) (busy : Bool) :
    ((a.noteIf busy).advance).Tallied n ∧
      (a.noteIf busy).advance.past = (a.past ++ [busy]).tail ∧
      (a.noteIf busy).advance.marks = a.marks := by
  have hnoted : a.noteIf busy =
      { a with current := busy, count := a.count + if busy then 1 else 0 } := by
    have hcurrent := h.current
    cases a
    cases busy <;> simp_all [noteIf, note]
  have hlength := h.length
  have hcount := h.count
  rw [hnoted, Activity.advance]
  cases hpast : a.past with
  | nil =>
    rw [hpast] at hlength hcount
    refine ⟨⟨hlength, rfl, h.nodup, ?_⟩, rfl, rfl⟩
    show (if busy = true then _ else _) = 0 + a.marks.length
    cases busy <;> simp_all
  | cons oldest kept =>
    rw [hpast] at hlength hcount
    refine ⟨⟨?_, rfl, h.nodup, ?_⟩, rfl, rfl⟩
    · simpa using hlength
    · simp only [List.cons_append, List.count_append, List.count_cons, List.count_nil] at hcount ⊢
      cases oldest <;> cases busy <;> simp_all
      omega

/-- **Nothing is active if and only if no mark is held and no cycle remembered was busy.** -/
theorem Tallied.isActive_eq_false_iff (h : a.Tallied n) :
    a.isActive = false ↔ a.marks = [] ∧ ∀ busy ∈ a.past, busy = false := by
  have hzero : a.isActive = false ↔ a.count = 0 := by simp [isActive]
  rw [hzero, h.count, Nat.add_eq_zero_iff, List.count_eq_zero, List.length_eq_zero_iff]
  constructor
  · intro ⟨hpast, hmarks⟩
    refine ⟨hmarks, fun busy hbusy => ?_⟩
    cases busy with
    | false => rfl
    | true => exact absurd hbusy hpast
  · intro ⟨hmarks, hpast⟩
    exact ⟨fun hbusy => Bool.noConfusion (hpast true hbusy), hmarks⟩

end Activity

end InOrder
