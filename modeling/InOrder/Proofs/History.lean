/-!
# Histories

A history is the sequence of what was done, oldest first. What it says of the present is said by one
of its entries, together with what came before and what has come since (`Somewhere`). When something
more is done it is the last entry, or comes after the one that counts (`somewhere_concat`).
-/

namespace InOrder

variable {α : Type}

/-- Some entry of a history is such, with what came before it and what came after. -/
def Somewhere (p : List α → α → List α → Prop) (history : List α) : Prop :=
  ∃ before a later, history = before ++ a :: later ∧ p before a later

variable {p : List α → α → List α → Prop}

@[simp] theorem not_somewhere_nil : ¬ Somewhere p [] := by
  rintro ⟨before, a, later, hsplit, -⟩
  exact List.cons_ne_nil a later (List.append_eq_nil_iff.mp hsplit.symm).2

theorem somewhere_cons {a : α} {history : List α} :
    Somewhere p (a :: history) ↔
      p [] a history ∨ Somewhere (fun before => p (a :: before)) history := by
  constructor
  · rintro ⟨_ | ⟨c, before⟩, b, later, hsplit, hb⟩
    · obtain ⟨rfl, rfl⟩ := List.cons.inj hsplit
      exact .inl hb
    · obtain ⟨rfl, hrest⟩ := List.cons.inj hsplit
      exact .inr ⟨before, b, later, hrest, hb⟩
  · rintro (ha | ⟨before, b, later, rfl, hb⟩)
    · exact ⟨[], a, history, rfl, ha⟩
    · exact ⟨a :: before, b, later, rfl, hb⟩

/-- **What is added is the last entry, and comes after every other.** -/
theorem somewhere_concat {a : α} {history : List α} :
    Somewhere p (history ++ [a]) ↔
      p history a [] ∨ Somewhere (fun before b later => p before b (later ++ [a])) history := by
  constructor
  · rintro ⟨before, b, later, hsplit, hb⟩
    rcases List.eq_nil_or_concat later with rfl | ⟨rest, c, rfl⟩
    · obtain ⟨rfl, heq⟩ := List.append_inj' hsplit rfl
      obtain rfl := List.singleton_inj.mp heq
      exact .inl hb
    · rw [List.concat_eq_append] at hsplit hb
      rw [← List.cons_append, ← List.append_assoc] at hsplit
      obtain ⟨hrest, heq⟩ := List.append_inj' hsplit rfl
      obtain rfl := List.singleton_inj.mp heq
      exact .inr ⟨before, b, rest, hrest, hb⟩
  · rintro (ha | ⟨before, b, later, rfl, hb⟩)
    · exact ⟨history, a, [], rfl, ha⟩
    · exact ⟨before, b, later ++ [a], by simp, hb⟩

instance decidableSomewhere : ∀ (history : List α) (p : List α → α → List α → Prop)
    [∀ before a later, Decidable (p before a later)], Decidable (Somewhere p history)
  | [], _, _ => isFalse not_somewhere_nil
  | a :: history, p, _ =>
    have := decidableSomewhere history fun before => p (a :: before)
    decidable_of_iff _ somewhere_cons.symm

end InOrder
