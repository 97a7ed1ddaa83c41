import InOrder.Stage.LineFetch

/-!
# Stream and prediction numbers

The numbers count up from `firstSeq` in words of 64 bits. `ordinal x` is how many numbers were
given out before `x`; it tells numbers apart (`ordinal_inj`), and the next number has the next
ordinal unless the word has come round to `firstSeq` (`ordinal_add_one`).

`Climbs a xs b` says that the numbers `xs` go on from `a` without a gap and end at `b`.
-/

namespace InOrder

/-- How many numbers were given out before this one. -/
def ordinal (x : UInt64) : Nat := (x - firstSeq).toNat

@[simp] theorem ordinal_firstSeq : ordinal firstSeq = 0 := by decide

theorem ordinal_inj {x y : UInt64} (h : ordinal x = ordinal y) : x = y :=
  (UInt64.sub_left_inj firstSeq).mp (UInt64.toNat_inj.mp h)

theorem ordinal_succ_eq (x : UInt64) : ordinal (x + 1) = (ordinal x + 1) % UInt64.size := by
  have h : x + 1 - firstSeq = x - firstSeq + 1 := by
    rw [UInt64.sub_eq_add_neg, UInt64.sub_eq_add_neg, UInt64.add_assoc, UInt64.add_assoc,
      UInt64.add_comm 1]
  unfold ordinal
  rw [h, UInt64.toNat_add]
  rfl

/-- The next number has at most the next ordinal, also where the word comes round. -/
theorem ordinal_succ_le (x : UInt64) : ordinal (x + 1) ≤ ordinal x + 1 := by
  rw [ordinal_succ_eq]
  exact Nat.mod_le _ _

theorem ordinal_add_one {x : UInt64} (h : x + 1 ≠ firstSeq) : ordinal (x + 1) = ordinal x + 1 := by
  have hlt : ordinal x < UInt64.size := (x - firstSeq).toNat_lt
  have hne : ordinal (x + 1) ≠ 0 := fun h0 =>
    h (ordinal_inj (h0.trans ordinal_firstSeq.symm))
  rw [ordinal_succ_eq] at hne ⊢
  unfold UInt64.size at hlt hne ⊢
  omega

/-- The numbers do not come round while their ordinals stay below the last. -/
theorem add_one_ne_firstSeq {x : UInt64} {n : Nat} (hx : ordinal x ≤ n) (hn : n + 1 < UInt64.size) :
    x + 1 ≠ firstSeq := fun h => by
  have h0 : ordinal (x + 1) = 0 := by rw [h, ordinal_firstSeq]
  rw [ordinal_succ_eq] at h0
  unfold UInt64.size at h0 hn
  omega

/-- Zero is the last number before the word comes round. -/
theorem add_one_ne_zero {x : UInt64} {n : Nat} (hx : ordinal x ≤ n) (hn : n + 2 < UInt64.size) :
    x + 1 ≠ 0 := fun h => by
  have hlast : ordinal 0 = UInt64.size - 1 := by decide
  have hle := ordinal_succ_le x
  rw [h, hlast] at hle
  omega

/-- The numbers `xs` go on from `a` without a gap, and `b` is the last. -/
def Climbs : UInt64 → List UInt64 → UInt64 → Prop
  | a, [], b => a = b
  | a, x :: xs, b => x = a + 1 ∧ Climbs x xs b

theorem Climbs.concat {b : UInt64} :
    ∀ {a : UInt64} {xs : List UInt64}, Climbs a xs b → Climbs a (xs ++ [b + 1]) (b + 1)
  | _, [], h => ⟨by rw [show _ = b from h], rfl⟩
  | _, _ :: _, ⟨hx, h⟩ => ⟨hx, Climbs.concat h⟩

/-- A climb that does not come round ends as many ordinals later as it has numbers. -/
theorem Climbs.ordinal_eq {b : UInt64} :
    ∀ {a : UInt64} {xs : List UInt64}, Climbs a xs b → (∀ x ∈ xs, x ≠ firstSeq) →
      ordinal b = ordinal a + xs.length
  | _, [], h, _ => by rw [show _ = b from h]; rfl
  | a, x :: xs, ⟨hx, h⟩, hne => by
    have ih := h.ordinal_eq fun y hy => hne y (List.mem_cons_of_mem x hy)
    have hstep : ordinal x = ordinal a + 1 := by
      have hx1 := hne x List.mem_cons_self
      subst hx
      exact ordinal_add_one hx1
    rw [List.length_cons]
    omega

/-- A number that is not past the start of a climb ends it only if the climb is empty. -/
theorem Climbs.eq_nil {a b : UInt64} {xs : List UInt64} (h : Climbs a xs b)
    (hne : ∀ x ∈ xs, x ≠ firstSeq) (hb : ordinal b ≤ ordinal a) : xs = [] := by
  have hlen := h.ordinal_eq hne
  exact List.length_eq_zero_iff.mp (by omega)

end InOrder
