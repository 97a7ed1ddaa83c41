import InOrder.Proofs.Lane.Rest

/-!
# When a lane comes to a halt

A drain asks every thread for a halt. From then on the thread is halted as soon as everything that
is pending or on its way to the line fetch has arrived (`Lane.Halting`), unless it issues a micro-op
that sends it elsewhere, or is woken. A drain does neither.

* `Lane.Steps.keep`: what is lost in issue or in wakeups only is not lost in steps that leave the
  number of issued instructions or of wakeups as it is.
* `Lane.Halting.steps`: in such steps a thread stays on its way to a halt.
-/

namespace InOrder

namespace Lane

variable {k : Track} {v w : Lane}

/-! ## Steps without issue and wakeups -/

/-- What was issued stays issued, and a wakeup stays counted. -/
theorem Step.grows (h : Step k v w) : v.issued <+: w.issued ∧ v.wakes ≤ w.wakes := by
  cases h with
  | issue | raise => exact ⟨List.prefix_append _ _, Nat.le_refl _⟩
  | wake => exact ⟨List.prefix_refl _, Nat.le_succ _⟩
  | squash | halt | drop | cut | cutJump | follow | overtake | heed | ignore | forget | request =>
    exact ⟨List.prefix_refl _, Nat.le_refl _⟩

theorem Steps.issued_prefix (h : Steps k v w) : v.issued <+: w.issued := by
  induction h with
  | refl => exact List.prefix_refl _
  | tail _ hlast ih => exact ih.trans hlast.grows.1

/-- **Where a measure only grows and is at last as it was, any number of steps keep what the steps
keep that do not change it.** -/
theorem Steps.keep {P : Lane → Prop} {μ : Lane → Nat} (hμ : ∀ v w, Step k v w → μ v ≤ μ w)
    (hstep : ∀ v w, Step k v w → μ w = μ v → P v → P w) (h : Steps k v w) (hsame : μ w = μ v)
    (hv : P v) : P w := by
  have hgrows : ∀ {u}, Steps k v u → μ v ≤ μ u := by
    intro u hu
    induction hu with
    | refl => exact Nat.le_refl _
    | tail _ hlast ih => exact Nat.le_trans ih (hμ _ _ hlast)
  induction h with
  | refl => exact hv
  | @tail u w hpre hlast ih =>
    have hle := hgrows hpre
    have hle' := hμ u w hlast
    exact hstep u w hlast (by omega) (ih (by omega))

/-! ## On the way to a halt -/

/-- A halt of the thread is pending, or is the last redirect on its way, or has arrived. -/
def Halting (v : Lane) : Prop := v.exec.haltPending = true ∨ v.settled = .halted

theorem Halting.step (hs : Step k v w)
    (hsame : w.issued.length + w.wakes = v.issued.length + v.wakes) (h : v.Halting) :
    w.Halting := by
  cases hs with
  | issue | raise => simp at hsame
  | wake => simp at hsame
  | halt hpending hfresh =>
    right
    rw [settled_send (w := v) rfl]
    rfl
  | follow r rest ps hredirects hps =>
    exact h.imp_right fun hsettled => (settled_follow hredirects rfl rfl).trans hsettled
  | squash | drop | cut | cutJump | overtake | heed | ignore | forget | request => exact h

/-- **A thread that neither issues nor is woken stays on its way to a halt.** -/
theorem Halting.steps (hs : Steps k v w) (hissued : w.issued = v.issued)
    (hwakes : w.wakes = v.wakes) (h : v.Halting) : w.Halting := by
  refine hs.keep (μ := fun v => v.issued.length + v.wakes) (fun v w hs => ?_)
    (fun _ _ hs => Halting.step hs) (by rw [hissued, hwakes]) h
  obtain ⟨hissued, hwakes⟩ := hs.grows
  exact Nat.add_le_add hissued.length_le hwakes

/-- No halt of the thread is pending, no redirect of it is on its way, and it does not fetch. -/
structure Still (v : Lane) : Prop where
  pending : v.exec.haltPending = false
  redirects : v.redirects = []
  stopped : v.fetch.state ≠ .running

/-- When nothing is pending or on its way any more, the thread is halted. -/
theorem Halting.still (h : v.Halting) (hpending : v.exec.haltPending = false)
    (hredirects : v.redirects = []) : v.Still := by
  refine ⟨hpending, hredirects, ?_⟩
  rcases h with hhalt | hsettled
  · rw [hpending] at hhalt
    exact absurd hhalt Bool.false_ne_true
  · rw [settled, hredirects] at hsettled
    rw [show v.fetch.state = .halted from hsettled]
    exact FetchState.noConfusion

end Lane

end InOrder
