import InOrder.Proofs.Checkpoint
import InOrder.Proofs.Lane.Halt
import InOrder.Proofs.Machine.Clearing

/-!
# How a machine comes to rest

A machine rests when no thread fetches, no redirect is pending or on its way, and all that it still
holds is stale: the micro-ops are of old streams and the lines are refused (`Machine.Resting`). So
does a machine in which every thread is still (`Machine.resting_of_still`). It goes on resting
(`Machine.Resting.next`), since what is stale is squashed and discarded and nothing new comes in. So
its cycles are calm, it clears, and from some cycle on it is empty and does not work
(`Machine.Resting.eventually_empty`, `Machine.Resting.eventually_idle`).
-/

namespace InOrder

open Filter

namespace Machine

variable {c : Config} {m : Image} {b : Nat} {x : Machine}

/-- The micro-ops that a machine holds, each with its thread. -/
def ops (x : Machine) : List (UInt32 × MicroOp) :=
  x.stages.execute.waiting ++
    (x.registers.dToE.held ++ x.stages.decode.input.entries ++ x.registers.f2ToD.held).flatMap
      Bundle.tagged

/-- The lines that a machine holds. -/
def lines (x : Machine) : List Line :=
  x.stages.slicer.waiting ++ x.registers.f1ToF2.held ++
    x.stages.lineFetch.pending.toList.map (·.line)

/-- Nothing that a machine holds leads to anything. -/
structure Resting (x : Machine) : Prop where
  halts : ∀ th ∈ x.stages.execute.threads, th.haltPending = false
  redirects : x.registers.eToF1.held = []
  stopped : ∀ th ∈ x.stages.lineFetch.threads, th.state ≠ .running
  ops : ∀ y ∈ x.ops, Stale x.stages.execute.threads y
  lines : ∀ l ∈ x.lines, Refused x.stages.slicer.expected l

/-- What is at the output of a register to execute waits with what is queued there. -/
theorem mem_ops_of_waiting {y : UInt32 × MicroOp}
    (h : y ∈ x.polled.waiting ++ x.registers.dToE.output.tagged) : y ∈ x.ops := by
  rcases List.mem_append.mp h with h | h
  · exact List.mem_append_left _ h
  · refine List.mem_append_right _ ?_
    have hheld : x.registers.dToE.held.flatMap Bundle.tagged =
        x.registers.dToE.output.tagged ++ x.registers.dToE.behind.flatMap Bundle.tagged := by
      rw [Register.held, List.flatMap_append, Bundle.flatMap_tagged_present,
        List.flatMap_singleton]
    rw [List.flatMap_append, List.flatMap_append, hheld]
    exact List.mem_append_left _ (List.mem_append_left _ (List.mem_append_left _ h))

/-- What is at the output of the register to the slicer waits with what is queued there. -/
theorem mem_lines_of_waiting {l : Line}
    (h : l ∈ x.stages.slicer.waiting ++ present [x.registers.f1ToF2.output]) : l ∈ x.lines := by
  refine List.mem_append_left _ ?_
  rcases List.mem_append.mp h with h | h
  · exact List.mem_append_left _ h
  · exact List.mem_append_right _ (List.mem_append_left _ h)

/-- Without redirects the slicer expects what it did. -/
theorem followed_of_redirects (h : x.registers.eToF1.held = []) :
    x.stages.slicer.followed x.registers.eToF1.output = x.stages.slicer.expected :=
  Slicer.followed_of_bubble (Redirect.not_isLive (isBubble_output h))

/-- Every index below the number of threads is the number of one. -/
theorem exists_thread {i : Nat} (hi : i < c.host.threads.toNat) : ∃ t : UInt32, t.toNat = i :=
  ⟨UInt32.ofNat i, UInt32.toNat_ofNat_of_lt' (Nat.lt_trans hi (UInt32.toNat_lt _))⟩

/-- **If every lane is still, with right numbers, the machine rests.** -/
theorem resting_of_still (hs : x.Sound c m b)
    (h : ∀ t : UInt32, t.toNat < c.host.threads.toNat → (x.lane t).Numbered ∧ (x.lane t).Still) :
    x.Resting := by
  have hlength := hs.stages
  refine ⟨fun th hth => ?_, ?_, fun th hth => ?_, fun y hy th hth => ?_, fun l hl e he => ?_⟩
  · obtain ⟨i, hi, rfl⟩ := List.mem_iff_getElem.mp hth
    obtain ⟨t, rfl⟩ := exists_thread (hlength.execute.length ▸ hi)
    have hexec := hs.exec? (hlength.execute.length ▸ hi)
    rw [List.getElem?_eq_getElem hi] at hexec
    rw [Option.some.inj hexec]
    exact (h t (hlength.execute.length ▸ hi)).2.pending
  · rw [List.eq_nil_iff_forall_not_mem]
    intro r hr
    have hnone := (h r.thread (hs.registers.sent r hr).thread).2.redirects
    have hmem : r ∈ (x.lane r.thread).redirects := List.mem_filter.mpr ⟨hr, by simp⟩
    rw [hnone] at hmem
    exact absurd hmem (by simp)
  · obtain ⟨i, hi, rfl⟩ := List.mem_iff_getElem.mp hth
    obtain ⟨t, rfl⟩ := exists_thread (hlength.lineFetch.length ▸ hi)
    have hfetch := hs.thread? (hlength.lineFetch.length ▸ hi)
    rw [LineFetch.thread?, List.getElem?_eq_getElem hi] at hfetch
    rw [Option.some.inj hfetch]
    exact (h t (hlength.lineFetch.length ▸ hi)).2.stopped
  · have ht : y.1.toNat < c.host.threads.toNat :=
      hlength.execute.length ▸ (List.getElem?_eq_some_iff.mp hth).1
    obtain ⟨hn, hstill⟩ := h y.1 ht
    have hexec := Option.some.inj (hth.symm.trans (hs.exec? ht))
    have hop : y.2 ∈ (x.lane y.1).ops :=
      List.mem_map.mpr ⟨y, List.mem_filter.mpr ⟨hy, by simp⟩, rfl⟩
    rw [hexec, ← hn.stream_eq hstill.redirects]
    exact (hn.rests hstill.stopped).1 y.2 hop
  · have ht : l.thread.toNat < c.host.threads.toNat :=
      hlength.slicer.length ▸ (List.getElem?_eq_some_iff.mp he).1
    obtain ⟨hn, hstill⟩ := h l.thread ht
    have hexpected := Option.some.inj (he.symm.trans (hs.expected? ht))
    have hline : l ∈ (x.lane l.thread).lines := by
      rw [lane, laneOf, LineFetch.pendingOf, ← linesOf_append]
      exact List.mem_filter.mpr ⟨hl, by simp⟩
    intro hcarries
    refine (hn.rests hstill.stopped).2.1 l hline ?_
    rw [hcarries.1, hexpected, hn.stream]

namespace Resting

/-- Execute issues nothing, and keeps nothing queued. -/
theorem executed (h : x.Resting) (hs : x.Sound c m b) :
    x.executed.stage.units = x.polled.kept (x.cycles + 1) ∧
      x.executed.stage.input.entries = [] ∧
      x.executed.stage.threads = x.stages.execute.threads ∧ x.executed.redirect = none := by
  have hstale : ∀ y ∈ x.polled.waiting ++ x.registers.dToE.output.tagged,
      Stale x.polled.threads y := fun y hy => h.ops y (mem_ops_of_waiting hy)
  obtain ⟨hunits, hempty⟩ : x.executed.stage.units = x.polled.kept (x.cycles + 1) ∧
      x.executed.stage.input.entries = [] := Execute.of_stale hs.polled.indexed hstale
  obtain ⟨hthreads, hredirect⟩ := Execute.of_kept hunits
  have hnone : x.polled.haltNext = (x.polled, none) := Execute.haltNext_of_none h.halts
  rw [hnone] at hthreads hredirect
  exact ⟨hunits, hempty, hthreads, hredirect⟩

/-- The slicer cuts nothing. -/
theorem sliced (h : x.Resting) (hs : x.Sound c m b) :
    x.sliced.bundle = none ∧ x.sliced.prediction = none ∧
      x.sliced.stage.expected = x.stages.slicer.expected := by
  have hfollowed := followed_of_redirects h.redirects
  have hslicer := hs.stages.slicer
  have hnone : x.sliced.bundle = none := Slicer.of_refused
    (fun l hl => hfollowed ▸ h.lines l (mem_lines_of_waiting hl)) hslicer.entered
  obtain ⟨hprediction, hexpected⟩ := Slicer.quiet_of_none hslicer.entered hslicer.width hnone
  exact ⟨hnone, hprediction, hexpected.trans hfollowed⟩

/-- The line fetch sends what is in flight, and asks for nothing. -/
theorem fetched (h : x.Resting) :
    x.fetched.stage =
        (x.stages.lineFetch.deliver (x.cycles + 1) x.sliced.stage.input.hasRoom).1 ∧
      x.fetched.line =
        (x.stages.lineFetch.deliver (x.cycles + 1) x.sliced.stage.input.hasRoom).2 :=
  LineFetch.evaluate_of_stopped (isBubble_output h.redirects) h.stopped _ _ _

/-- **The cycles of a machine that rests are calm.** -/
theorem calm (h : x.Resting) (hs : x.Sound c m b) (hsized : x.stages.Sized) : x.Calm := by
  obtain ⟨hunits, hempty, -, hredirect⟩ := h.executed hs
  obtain ⟨hnone, hprediction, -⟩ := h.sliced hs
  have hslicer := hs.stages.slicer
  refine ⟨hredirect, hempty, hunits, hnone, hprediction, fun hroom => ?_⟩
  unfold Machine.sliced at hnone ⊢
  rw [hroom] at hnone ⊢
  exact (Slicer.discarded_of_none hslicer.entered hslicer.width hsized.width hnone).1

/-- What is left of the micro-ops was there before. -/
theorem ops_next (h : x.Resting) (hs : x.Sound c m b) {y : UInt32 × MicroOp}
    (hy : y ∈ x.next.ops) : y ∈ x.ops := by
  have hqueued : x.next.stages.execute.waiting = [] := by
    rw [Execute.waiting, show x.next.stages.execute.input.entries = [] from (h.executed hs).2.1]
    rfl
  have hsent : x.sliced.bundle.toList.flatMap Bundle.tagged = [] := by
    rw [(h.sliced hs).1]
    rfl
  have hcycle : (x.next.registers.dToE.held ++ x.next.stages.decode.input.entries ++
      x.next.registers.f2ToD.held).flatMap Bundle.tagged =
      (x.registers.dToE.behind ++ x.stages.decode.input.entries ++
        x.registers.f2ToD.held).flatMap Bundle.tagged ++
        x.sliced.bundle.toList.flatMap Bundle.tagged :=
    ops_cycle hs.registers.decoded hs.registers.cut x.stages.decode x.executed.stage.input.hasRoom x.sliced.bundle
  rw [Machine.ops, hqueued, List.nil_append, hcycle, hsent, List.append_nil] at hy
  refine List.mem_append_right _ ?_
  simp only [Register.held, List.flatMap_append, List.mem_append] at hy ⊢
  exact hy.imp_left fun hy => hy.imp_left .inr

/-- What is left of the lines was there before. -/
theorem lines_next (h : x.Resting) (hs : x.Sound c m b) {l : Line} (hl : l ∈ x.next.lines) :
    l ∈ x.lines := by
  have hslicer := hs.stages.slicer
  have hheld : x.next.registers.f1ToF2.held =
      x.registers.f1ToF2.behind ++ present x.fetched.line.toList :=
    Register.held_cycle hs.registers.lines x.fetched.line
  have hpending : ∀ l, l ∈ x.fetched.line.toList ∨ l ∈ x.next.stages.lineFetch.pending.toList.map
      (·.line) → l ∈ x.stages.lineFetch.pending.toList.map (·.line) := by
    intro l hl
    rw [show x.next.stages.lineFetch = x.fetched.stage from rfl, h.fetched.1, h.fetched.2] at hl
    rcases LineFetch.deliver_cases x.stages.lineFetch _ _ with hdeliver | ⟨p, hp, -, hdeliver⟩
    · rw [hdeliver] at hl
      exact hl.resolve_left List.not_mem_nil
    · rw [hdeliver] at hl
      rw [hp]
      exact hl.resolve_right List.not_mem_nil
  rcases List.mem_append.mp hl with hl | hl
  · rcases List.mem_append.mp hl with hl | hl
    · exact mem_lines_of_waiting
        (Slicer.mem_waiting_of_none hslicer.entered hslicer.width (h.sliced hs).1 hl)
    · rw [hheld] at hl
      rcases List.mem_append.mp hl with hl | hl
      · exact List.mem_append_left _ (List.mem_append_right _ (List.mem_append_right _ hl))
      · exact List.mem_append_right _ (hpending l (.inl (mem_present.mp hl).1))
  · exact List.mem_append_right _ (hpending l (.inr hl))

/-- **A machine that rests goes on resting.** -/
theorem next (h : x.Resting) (hs : x.Sound c m b) : x.next.Resting := by
  obtain ⟨-, -, hthreads, hredirect⟩ := h.executed hs
  have hexpected := (h.sliced hs).2.2
  have hheld : x.next.registers.eToF1.held =
      x.registers.eToF1.behind ++ present x.executed.redirect.toList :=
    Register.held_cycle hs.registers.redirects x.executed.redirect
  refine ⟨?_, ?_, ?_, fun y hy => ?_, fun l hl => ?_⟩
  · exact hthreads ▸ h.halts
  · rw [hheld, hredirect]
    exact List.append_eq_nil_iff.mpr ⟨(List.append_eq_nil_iff.mp h.redirects).2, rfl⟩
  · show ∀ th ∈ x.fetched.stage.threads, th.state ≠ .running
    rw [h.fetched.1, LineFetch.threads_deliver]
    exact h.stopped
  · exact hthreads ▸ h.ops y (h.ops_next hs hy)
  · exact hexpected ▸ h.lines l (h.lines_next hs hl)

theorem after (h : x.Resting) (hs : x.Sound c m b) (k : Nat) : (x.after k).Resting := by
  induction k with
  | zero => exact h
  | succ k ih =>
    rw [after_succ]
    exact ih.next (hs.after k)

end Resting

/-! ## Empty machines -/

/-- Nothing is held, and no thread fetches. -/
structure Empty (x : Machine) : Prop where
  pending : x.stages.lineFetch.pending = none
  stopped : ∀ th ∈ x.stages.lineFetch.threads, th.state ≠ .running
  lines : x.stages.slicer.input.entries = []
  bundles : x.stages.decode.input.entries = []
  queued : x.stages.execute.input.entries = []
  units : x.stages.execute.units = []
  registers : ∀ e, x.registers.isEmpty e = true

/-- In a cleared machine that rests what is in flight goes out, and no more is asked for. -/
theorem Resting.eventually_pending (h : x.Resting) (hs : x.Sound c m b) {a : Nat}
    (hcleared : ∀ k ≥ a, (x.after k).Cleared) :
    ∀ᶠ k in atTop, (x.after k).stages.lineFetch.pending = none := by
  have hstays : ∀ k ≥ a, (x.after k).stages.lineFetch.pending = none →
      (x.after (k + 1)).stages.lineFetch.pending = none := by
    intro k hk hnone
    rw [after_succ]
    show (x.after k).fetched.stage.pending = none
    rw [(h.after hs k).fetched.1, LineFetch.deliver, hnone]
    exact hnone
  obtain ⟨j, hj, hnone⟩ : ∃ j ≥ a, (x.after j).stages.lineFetch.pending = none := by
    cases hp : (x.after a).stages.lineFetch.pending with
    | none => exact ⟨a, Nat.le_refl a, hp⟩
    | some p =>
      obtain ⟨j, hj, hp, hdue⟩ := eventually_due hcleared (Nat.le_refl a) hp
      refine ⟨j + 1, Nat.le_succ_of_le hj, ?_⟩
      rw [after_succ]
      show (x.after j).fetched.stage.pending = none
      rw [(h.after hs j).fetched.1, LineFetch.deliver, hp, (hcleared j hj).room]
      simp only [hdue, and_self, if_true]
  refine eventually_atTop.mpr ⟨j, fun k hk => ?_⟩
  induction k, hk using Nat.le_induction with
  | base => exact hnone
  | succ k hk ih => exact hstays k (Nat.le_trans hj hk) ih

/-- **A machine that rests is empty from some cycle on.** -/
theorem Resting.eventually_empty (h : x.Resting) (hs : x.Sound c m b) (hsized : x.stages.Sized) :
    ∀ᶠ k in atTop, (x.after k).Empty := by
  have hcalm : ∀ᶠ k in atTop, (x.after k).Calm :=
    .of_forall fun k => (h.after hs k).calm (hs.after k) (sized_after hsized k)
  have hcleared := eventually_cleared hs hsized hcalm
  obtain ⟨a, ha⟩ := eventually_atTop.mp hcleared
  have hpending := h.eventually_pending hs ha
  have hquiet : ∀ᶠ k in atTop, (x.after k).fetched.line = none := by
    filter_upwards [hpending] with k hnone
    rw [(h.after hs k).fetched.2, LineFetch.deliver, hnone]
  have hfetched : ∀ᶠ k in atTop, (x.after k).registers.f1ToF2.held = [] :=
    x.runs_f1ToF2.eventually_held hs.registers.lines hquiet
  filter_upwards [hcleared, hpending, hfetched] with k hcleared hpending hfetched
  have hclean := (hs.after k).registers
  refine ⟨hpending, (h.after hs k).stopped, hcleared.lines, hcleared.bundles, hcleared.queued,
    hcleared.units, fun e => ?_⟩
  cases e with
  | f1ToF2 => exact Register.isEmpty_of_held hclean.lines hfetched
  | f2ToD => exact Register.isEmpty_of_held hclean.cut hcleared.cut
  | dToE => exact Register.isEmpty_of_held hclean.decoded hcleared.decoded
  | eToF1 => exact Register.isEmpty_of_held hclean.redirects hcleared.redirects
  | f2ToF1 => exact Register.isEmpty_of_held hclean.predictions hcleared.predictions

theorem busy_eq_false_iff (x : Machine) :
    x.busy = false ↔ x.executed.busy = false ∧ x.decoded.busy = false ∧ x.sliced.busy = false ∧
      x.fetched.busy = false := by
  simp only [busy, Bool.or_eq_false_iff, and_assoc]

/-- In an empty machine that rests no stage works. -/
theorem Resting.idle (h : x.Resting) (hs : x.Sound c m b) (hsized : x.stages.Sized)
    (hempty : x.Empty) (hnext : x.next.Empty) : x.busy = false := by
  obtain ⟨-, hqueued, -, hredirect⟩ := h.executed hs
  have hretired : x.executed.retired = [] := by
    rw [Machine.executed, (x.polled.evaluate_retired (x.cycles + 1) x.registers.dToE.output).1,
      show x.polled.units = [] from hempty.units]
    rfl
  have hpassed : x.decoded.bundle = none := by
    have hcut : x.registers.f2ToD.held = [] := Register.held_of_isEmpty (hempty.registers .f2ToD)
    rw [(decoded_of_queued hsized hqueued).1, hempty.bundles,
      present_bubble (isBubble_output hcut)]
    rfl
  have hline : x.fetched.line = none := by
    rw [h.fetched.2, LineFetch.deliver, hempty.pending]
  refine (busy_eq_false_iff x).mpr ⟨?_, ?_, ?_, ?_⟩
  · exact (Execute.busy_eq_false_iff ..).mpr
      ⟨hredirect, hretired, (h.next hs).halts, hnext.queued, hnext.units⟩
  · exact (Decode.busy_eq_false_iff ..).mpr ⟨hpassed, hnext.bundles⟩
  · exact (Slicer.busy_eq_false_iff ..).mpr ⟨(h.sliced hs).1, hnext.lines⟩
  · exact (LineFetch.busy_eq_false_iff ..).mpr ⟨hline, hnext.pending⟩

/-- **A machine that rests does not work from some cycle on.** -/
theorem Resting.eventually_idle (h : x.Resting) (hs : x.Sound c m b) (hsized : x.stages.Sized) :
    ∀ᶠ k in atTop, (x.after k).busy = false := by
  obtain ⟨a, ha⟩ := eventually_atTop.mp (h.eventually_empty hs hsized)
  refine eventually_atTop.mpr ⟨a, fun k hk => ?_⟩
  have hnext := ha (k + 1) (Nat.le_succ_of_le hk)
  rw [after_succ] at hnext
  exact (h.after hs k).idle (hs.after k) (sized_after hsized k) (ha k hk) hnext

end Machine

/-- A pipeline is drained if and only if its machine is empty. -/
theorem Pipeline.isDrained_iff_empty {p : Pipeline Stages} (h : History) :
    p.isDrained = true ↔ (p.machine h).Empty :=
  drained_iff.trans
    ⟨fun hd => ⟨hd.pending, hd.stopped, hd.lines, hd.bundles, hd.queued, hd.units, hd.registers⟩,
      fun he => ⟨he.pending, he.stopped, he.lines, he.bundles, he.queued, he.units, he.registers⟩⟩

end InOrder
