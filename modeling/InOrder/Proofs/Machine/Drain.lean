import InOrder.Proofs.Machine.Rest

/-!
# A machine that drains

During a drain nothing is issued, and execute sends the pending halts, one in each cycle
(`Machine.Draining.redirect_of_pending`). When the last of them has arrived every thread is halted,
and the machine rests (`Machine.Draining.resting_after`). Until then the register of redirects is
not empty (`Machine.Draining.busy_register`), so the machine does not look empty too soon.
-/

namespace InOrder

namespace Machine

variable {c : Config} {m : Image} {b : Nat} {x : Machine} {t : UInt32}

/-- Nothing is issued, and every thread is on its way to a halt. -/
structure Draining (c : Config) (x : Machine) : Prop where
  draining : x.stages.execute.draining = true
  halting : ∀ t : UInt32, t.toNat < c.host.threads.toNat → (x.lane t).Halting

/-- The halts that are not sent yet. -/
def pendingHalts (x : Machine) : Nat := x.stages.execute.threads.countP (·.haltPending)

namespace Draining

/-- Execute issues nothing, and sends a halt if one is pending. -/
theorem executed (h : x.Draining c) :
    x.executed.stage.units = x.stages.execute.kept (x.cycles + 1) ∧
      x.executed.stage.threads = x.polled.haltNext.1.threads ∧
      x.executed.redirect = x.polled.haltNext.2 := by
  have hunits : x.executed.stage.units = x.polled.kept (x.cycles + 1) :=
    Execute.units_of_draining (s := x.polled) h.draining _ _
  exact ⟨hunits, Execute.of_kept hunits⟩

/-- **A machine that drains goes on draining.** -/
theorem next (h : x.Draining c) (hs : x.Sound c m b) : x.next.Draining c := by
  refine ⟨?_, fun t ht => ?_⟩
  · exact (x.polled.settings_evaluate (x.cycles + 1) x.registers.dToE.output).1.trans h.draining
  · have hsteps : Lane.Steps (c.track m (fun _ => True) t) (x.lane t) (x.next.lane t) :=
      lane_next hs ht fun _ _ => trivial
    have hissued : (x.next.lane t).issued = (x.lane t).issued := by
      rw [issued_lane, issued_lane, ran_next_of_kept h.executed.1]
    exact (h.halting t ht).steps hsteps hissued rfl

theorem after (h : x.Draining c) (hs : x.Sound c m b) (k : Nat) : (x.after k).Draining c := by
  induction k with
  | zero => exact h
  | succ k ih =>
    rw [after_succ]
    exact ih.next (hs.after k)

/-- All that is in the units when a drain begins retires, and nothing else does. -/
theorem ran_after (h : x.Draining c) (hs : x.Sound c m b) (k : Nat) : (x.after k).ran = x.ran := by
  induction k with
  | zero => rfl
  | succ k ih =>
    rw [after_succ, ran_next_of_kept (h.after hs k).executed.1, ih]

/-! ## Halts -/

/-- While halts are pending, one of them is sent. -/
theorem redirect_of_pending (h : x.Draining c) (hpos : 0 < x.pendingHalts) :
    x.next.pendingHalts + 1 = x.pendingHalts ∧ ∃ r, x.executed.redirect = some r := by
  obtain ⟨-, hthreads, hredirect⟩ := h.executed
  obtain ⟨hcount, r, hr⟩ := Execute.countP_haltNext (s := x.polled) hpos
  refine ⟨?_, r, hredirect.trans hr⟩
  show x.executed.stage.threads.countP (·.haltPending) + 1 = _
  rw [hthreads]
  exact hcount

/-- When no halt is pending, nothing is sent any more. -/
theorem redirect_of_none (h : x.Draining c) (hnone : x.pendingHalts = 0) :
    x.next.pendingHalts = 0 ∧ x.executed.redirect = none := by
  obtain ⟨-, hthreads, hredirect⟩ := h.executed
  have hall : ∀ th ∈ x.stages.execute.threads, th.haltPending = false := fun th hth =>
    Bool.eq_false_iff.mpr (List.countP_eq_zero.mp hnone th hth)
  have hnext : x.polled.haltNext = (x.polled, none) := Execute.haltNext_of_none hall
  rw [hnext] at hthreads hredirect
  refine ⟨?_, hredirect⟩
  show x.executed.stage.threads.countP (·.haltPending) = 0
  rw [hthreads]
  exact hnone

/-- Each cycle sends one of the halts that are pending. -/
theorem pendingHalts_after (h : x.Draining c) (hs : x.Sound c m b) (k : Nat) :
    (x.after k).pendingHalts = x.pendingHalts - k := by
  induction k with
  | zero => rfl
  | succ k ih =>
    rw [after_succ]
    rcases Nat.eq_zero_or_pos (x.after k).pendingHalts with hnone | hpos
    · have hnext := ((h.after hs k).redirect_of_none hnone).1
      omega
    · have hnext := ((h.after hs k).redirect_of_pending hpos).1
      omega

/-- **Until the last halt has arrived, the register of redirects is not empty.** -/
theorem busy_register (h : x.Draining c) (hs : x.Sound c m b) (hpos : 0 < x.pendingHalts) {k : Nat}
    (hk : k + 1 < x.pendingHalts + x.registers.eToF1.row.length) :
    (x.after (k + 1)).registers.eToF1.isEmpty = false := by
  -- the halt that was sent last is still on its way
  obtain ⟨i, j, rfl, hi, hj⟩ : ∃ i j, k = i + j ∧ i < x.pendingHalts ∧
      j < x.registers.eToF1.row.length := by
    rcases Nat.lt_or_ge k x.pendingHalts with hlt | hge
    · exact ⟨k, 0, rfl, hlt, Nat.succ_pos _⟩
    · exact ⟨x.pendingHalts - 1, k - (x.pendingHalts - 1), by omega, by omega, by omega⟩
  have hpending := h.pendingHalts_after hs i
  obtain ⟨r, hr⟩ := ((h.after hs i).redirect_of_pending (by omega)).2
  have hsent : r.Sent c.host.threads.toNat :=
    ((hs.after i).polled.evaluate (Nat.le_of_lt (UInt32.toNat_lt _)) _ _).2 r hr
  rw [Nat.add_right_comm]
  exact x.runs_eToF1.isEmpty_of_write hr hsent.live hj

/-- When the last halt has arrived, no redirect is on its way. -/
theorem held_redirects (h : x.Draining c) (hs : x.Sound c m b) {k : Nat}
    (hk : x.pendingHalts + x.registers.eToF1.row.length ≤ k) :
    (x.after k).registers.eToF1.held = [] := by
  have hquiet : ∀ j ≥ x.pendingHalts, (x.after j).executed.redirect = none := by
    intro j hj
    refine ((h.after hs j).redirect_of_none ?_).2
    rw [h.pendingHalts_after hs]
    omega
  exact x.runs_eToF1.held_eq_nil hs.registers.redirects hquiet hk

/-- When the last halt has arrived, every thread is still. -/
theorem still_after (h : x.Draining c) (hs : x.Sound c m b) (ht : t.toNat < c.host.threads.toNat)
    {k : Nat} (hk : x.pendingHalts + x.registers.eToF1.row.length ≤ k) :
    ((x.after k).lane t).Still := by
  have hnone : (x.after k).pendingHalts = 0 := by
    rw [h.pendingHalts_after hs]
    omega
  refine ((h.after hs k).halting t ht).still ?_ ?_
  · have hexec := (hs.after k).exec? ht
    exact Bool.eq_false_iff.mpr (List.countP_eq_zero.mp hnone _ (List.mem_of_getElem? hexec))
  · show redirectsOf t (x.after k).registers.eToF1.held = []
    rw [h.held_redirects hs hk]
    rfl

/-- **When the last halt has arrived, a machine with right numbers rests.** -/
theorem resting_after (h : x.Draining c) (hs : x.Sound c m b) {k : Nat}
    (hn : ∀ t : UInt32, t.toNat < c.host.threads.toNat → ((x.after k).lane t).Numbered)
    (hk : x.pendingHalts + x.registers.eToF1.row.length ≤ k) : (x.after k).Resting :=
  resting_of_still (hs.after k) fun t ht => ⟨hn t ht, h.still_after hs ht hk⟩

/-- **A drain empties the machine**, if the numbers are right when the last halt has arrived. -/
theorem eventually_empty (h : x.Draining c) (hs : x.Sound c m b) (hsized : x.stages.Sized)
    (hn : ∀ t : UInt32, t.toNat < c.host.threads.toNat →
      ((x.after (x.pendingHalts + x.registers.eToF1.row.length)).lane t).Numbered) :
    ∃ k, (x.after k).Empty := by
  have hrests := h.resting_after hs hn (Nat.le_refl _)
  obtain ⟨k, hk⟩ := (hrests.eventually_empty (hs.after _) (sized_after hsized _)).exists
  rw [after_after] at hk
  exact ⟨_, hk⟩

end Draining

end Machine

end InOrder
