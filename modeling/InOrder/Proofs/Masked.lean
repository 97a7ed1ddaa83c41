import InOrder.Proofs.Pipeline.Masked
import InOrder.Proofs.Session

/-!
# Sessions whose units are out of sight

Two sessions that agree but for what corrupted units concern (`Session.masked`) go on to agree
whatever is called (`Session.after_of_masked`). Their runs take as many steps
(`Session.run_of_masked`), and what retires does so at the same ticks, of the same threads and from
the same addresses (`Session.timeline`).
-/

namespace InOrder

/-! ## Simulators -/

namespace Simulator

/-- A simulator without what corrupted units concern. -/
def masked (s : Simulator Stages) : Simulator Stages :=
  { s with host := { s.host with pipeline := s.host.pipeline.masked } }

variable {s s' : Simulator Stages}

/-- The simulators agree but for what corrupted units concern. -/
theorem eq_of_masked (h : s'.masked = s.masked) : ∃ pipeline,
    s' = { s with host := { s.host with pipeline } } ∧ pipeline.masked = s.pipeline.masked := by
  obtain ⟨⟨_, _, _, _, p⟩, _, _⟩ := s
  obtain ⟨⟨_, _, _, _, q⟩, _, _⟩ := s'
  simp only [masked, mk.injEq, Host.mk.injEq, and_assoc] at h
  obtain ⟨rfl, rfl, rfl, rfl, h, rfl⟩ := h
  exact ⟨q, rfl, h⟩

/-- The conditions to go on agree. -/
theorem goes_of_masked (h : s'.masked = s.masked) :
    s'.tick = s.tick ∧ s'.period = s.period ∧ s'.pipeline.running = s.pipeline.running := by
  obtain ⟨q, rfl, hq⟩ := eq_of_masked h
  obtain ⟨execute, unitMode, unitFlipped, rfl, -⟩ := Pipeline.eq_of_masked hq
  exact ⟨rfl, rfl, rfl⟩

/-- A step of a simulator that runs evaluates its pipeline. -/
theorem step_of_runs (h : s.pipeline.running = true) :
    s.step.simulator = { s with host := (s.host.evaluateAt (s.tick + s.period)).host } ∧
      s.step.retired = (s.host.pipeline.evaluate (s.tick + s.period)).retired := by
  rw [step, if_pos h]
  exact ⟨rfl, rfl⟩

/-- A step of a simulator that does not run only advances the clock. -/
theorem step_of_stopped (h : s.pipeline.running = false) :
    s.step.simulator = { s with host := { s.host with tick := s.tick + s.period } } ∧
      s.step.retired = [] := by
  rw [step, if_neg (h ▸ Bool.false_ne_true)]
  exact ⟨rfl, rfl⟩

/-- A step leads to the same, and as much retires in it. -/
theorem step_of_masked (h : s'.masked = s.masked) :
    s'.step.simulator.masked = s.step.simulator.masked ∧
      s'.step.retired.map Retired.masked = s.step.retired.map Retired.masked := by
  obtain ⟨-, -, hrunning⟩ := goes_of_masked h
  obtain ⟨q, rfl, hq⟩ := eq_of_masked h
  cases hruns : s.pipeline.running with
  | true =>
    obtain ⟨hpipeline, hdone, hretired⟩ := Pipeline.evaluate_of_masked hq (s.tick + s.period)
    obtain ⟨hstep, hnew⟩ := step_of_runs hruns
    obtain ⟨hstep', hnew'⟩ := step_of_runs (hrunning.trans hruns)
    rw [hstep, hstep', hnew, hnew']
    refine ⟨?_, hretired⟩
    show ({ s with host :=
      { s.host with
        tick := s.tick + s.period
        signals := if (q.evaluate (s.tick + s.period)).drainDone then s.host.signals + 1
          else s.host.signals
        polls := s.host.polls + 1
        pipeline := (q.evaluate (s.tick + s.period)).pipeline.masked } } : Simulator Stages) = _
    rw [hdone, hpipeline]
    rfl
  | false =>
    obtain ⟨hstep, hnew⟩ := step_of_stopped hruns
    obtain ⟨hstep', hnew'⟩ := step_of_stopped (hrunning.trans hruns)
    rw [hstep, hstep', hnew, hnew']
    refine ⟨?_, rfl⟩
    show ({ s with host :=
      { s.host with tick := s.tick + s.period, pipeline := q.masked } } : Simulator Stages) = _
    rw [hq]
    rfl

/-! ### The other calls -/

theorem wakeAll_masked (s : Simulator Stages) : s.wakeAll.1.masked = s.masked.wakeAll.1 :=
  congrArg (fun pipeline => ({ s with host := { s.host with pipeline } } : Simulator Stages))
    (Pipeline.wakeAll_masked (Pipeline.threadNumbers s.host.threads) s.host.pipeline)

theorem drain_masked (s : Simulator Stages) : s.drain.1.masked = s.masked.drain.1 :=
  congrArg (fun pipeline => ({ s with host := { s.host with pipeline } } : Simulator Stages))
    (Pipeline.drain_masked s.host.pipeline)

theorem resume_masked (s : Simulator Stages) : s.resume.1.masked = s.masked.resume.1 :=
  congrArg (fun pipeline => ({ s with host := { s.host with pipeline } } : Simulator Stages))
    (Pipeline.resume_masked s.host.pipeline s.host.threads)

/-! ### Retirement -/

/-- What retires in a step: when, of which thread, and where it stands. -/
def stamps (r : Step Stages) : List (Nat × UInt32 × UInt64) :=
  r.retired.map fun x => (r.simulator.tick, x.thread, x.pc)

/-- Step until the clock reaches `limit` or the pipeline stops, and note what retires. -/
def stampsOfRun (s : Simulator Stages) (limit : Nat) : List (Nat × UInt32 × UInt64) :=
  (s.advance (fun log r => log ++ stamps r) limit []).2

theorem stamps_of_masked (h : s'.masked = s.masked) : stamps s'.step = stamps s.step := by
  obtain ⟨hsimulator, hretired⟩ := step_of_masked h
  have htick : s'.step.simulator.tick = s.step.simulator.tick := by
    obtain ⟨q, heq, -⟩ := eq_of_masked hsimulator
    rw [heq]
    rfl
  have hmasked : ∀ rs : List Retired, (rs.map fun x => (s.step.simulator.tick, x.thread, x.pc)) =
      (rs.map Retired.masked).map fun x => (s.step.simulator.tick, x.thread, x.pc) := by
    intro rs
    rw [List.map_map]
    rfl
  rw [stamps, stamps, htick, hmasked, hretired, ← hmasked]

theorem stamps_advance_of_masked (limit : Nat) (log : List (Nat × UInt32 × UInt64))
    {s s' : Simulator Stages} (h : s'.masked = s.masked) :
    (s'.advance (fun log r => log ++ stamps r) limit log).2 =
      (s.advance (fun log r => log ++ stamps r) limit log).2 := by
  obtain ⟨htick, -, hrunning⟩ := goes_of_masked h
  rw [advance.eq_def _ limit s', advance.eq_def _ limit s, htick, hrunning]
  split
  · have htime := s.tick_step
    have hperiod := s.period_pos
    dsimp only
    rw [stamps_of_masked h]
    exact stamps_advance_of_masked limit (log ++ stamps s.step) (step_of_masked h).1
  · rfl
termination_by limit - s.tick
decreasing_by omega

end Simulator

namespace Session

/-! ## Sessions -/

/-- A session without what corrupted units concern. -/
def masked (s : Session) : Session :=
  { simulator := s.simulator.masked
    history := { s.history with retired := s.history.retired.map Retired.masked } }

/-- What retires in a call: when, of which thread, and where it stands. -/
def retirements (s : Session) : Call → List (Nat × UInt32 × UInt64)
  | .step => Simulator.stamps s.simulator.step
  | .run limit => s.simulator.stampsOfRun limit
  | _ => []

/-- What retires in some calls. -/
def timeline (s : Session) : List Call → List (Nat × UInt32 × UInt64)
  | [] => []
  | call :: calls => s.retirements call ++ (s.perform call).timeline calls

variable {s s' : Session}

theorem eq_of_masked (h : s'.masked = s.masked) :
    s'.simulator.masked = s.simulator.masked ∧ s'.history.woken = s.history.woken ∧
      s'.history.overtaken = s.history.overtaken ∧
      s'.history.retired.map Retired.masked = s.history.retired.map Retired.masked := by
  obtain ⟨_, ⟨_, _, _⟩⟩ := s
  obtain ⟨_, ⟨_, _, _⟩⟩ := s'
  simp only [masked, mk.injEq, History.mk.injEq] at h
  exact ⟨h.1, h.2.2.2, h.2.2.1, h.2.1⟩

theorem pipeline_of_masked (h : s'.masked = s.masked) :
    s'.pipeline.masked = s.pipeline.masked :=
  congrArg (fun s : Simulator Stages => s.host.pipeline) (eq_of_masked h).1

theorem masked_ext (hsimulator : s'.simulator.masked = s.simulator.masked)
    (hwoken : s'.history.woken = s.history.woken)
    (hovertaken : s'.history.overtaken = s.history.overtaken)
    (hretired : s'.history.retired.map Retired.masked = s.history.retired.map Retired.masked) :
    s'.masked = s.masked := by
  simp only [masked, hsimulator, hwoken, hovertaken, hretired]

theorem step_of_masked (h : s'.masked = s.masked) : s'.step.masked = s.step.masked := by
  obtain ⟨hsimulator, hwoken, hovertaken, hretired⟩ := eq_of_masked h
  obtain ⟨hstep, hnew⟩ := Simulator.step_of_masked hsimulator
  have hlost : (if s'.pipeline.running then s'.pipeline.overtaken else []) =
      if s.pipeline.running then s.pipeline.overtaken else [] := by
    obtain ⟨execute, unitMode, unitFlipped, heq, -⟩ := Pipeline.eq_of_masked (pipeline_of_masked h)
    rw [heq]
    rfl
  refine masked_ext hstep hwoken ?_ ?_
  · exact congrArg₂ (· ++ ·) hovertaken hlost
  · show (s'.history.retired ++ s'.simulator.step.retired).map Retired.masked =
      (s.history.retired ++ s.simulator.step.retired).map Retired.masked
    rw [List.map_append, List.map_append, hretired, hnew]

/-- Runs take as many steps. -/
theorem run_of_masked (limit : Nat) {s s' : Session} (h : s'.masked = s.masked) :
    ∃ n, s.run limit = step^[n] s ∧ s'.run limit = step^[n] s' := by
  obtain ⟨htick, -, hrunning⟩ := Simulator.goes_of_masked (eq_of_masked h).1
  by_cases hgoes : s.simulator.tick < limit ∧ s.pipeline.running = true
  · have htime := s.tick_step
    have hperiod := s.simulator.period_pos
    obtain ⟨n, hn, hn'⟩ := run_of_masked limit (step_of_masked h)
    refine ⟨n + 1, (run_of_goes hgoes).trans hn, (run_of_goes ⟨htick ▸ hgoes.1, ?_⟩).trans hn'⟩
    exact hrunning.trans hgoes.2
  · refine ⟨0, run_of_ends hgoes, run_of_ends fun hgoes' => hgoes ⟨htick ▸ hgoes'.1, ?_⟩⟩
    exact hrunning.symm.trans hgoes'.2
termination_by limit - s.simulator.tick
decreasing_by omega

theorem iterate_of_masked (h : s'.masked = s.masked) (n : Nat) :
    (step^[n] s').masked = (step^[n] s).masked := by
  induction n with
  | zero => exact h
  | succ n ih =>
    rw [Function.iterate_succ_apply', Function.iterate_succ_apply']
    exact step_of_masked ih

theorem threadNumbers_of_masked (h : s'.masked = s.masked) :
    s'.threadNumbers = s.threadNumbers := by
  obtain ⟨q, heq, -⟩ := Simulator.eq_of_masked (eq_of_masked h).1
  rw [threadNumbers, heq]
  rfl

/-- **What is in the units has no effect on a call.** -/
theorem perform_of_masked (h : s'.masked = s.masked) (call : Call) :
    (s'.perform call).masked = (s.perform call).masked := by
  obtain ⟨hsimulator, hwoken, hovertaken, hretired⟩ := eq_of_masked h
  have hthreads := threadNumbers_of_masked h
  cases call with
  | step => exact step_of_masked h
  | run limit =>
    obtain ⟨n, hn, hn'⟩ := run_of_masked limit h
    show (s'.run limit).masked = (s.run limit).masked
    rw [hn, hn', iterate_of_masked h]
  | wake t =>
    refine masked_ext ?_ (congrArg (· ++ [t]) hwoken) hovertaken hretired
    exact congrArg (fun s : Simulator Stages => (s.wake t).1) hsimulator
  | wakeAll =>
    refine masked_ext ?_ (congrArg₂ (· ++ ·) hwoken hthreads) hovertaken hretired
    exact (s'.simulator.wakeAll_masked.trans (congrArg (·.wakeAll.1) hsimulator)).trans
      s.simulator.wakeAll_masked.symm
  | drain =>
    refine masked_ext ?_ hwoken hovertaken hretired
    exact (s'.simulator.drain_masked.trans (congrArg (·.drain.1) hsimulator)).trans
      s.simulator.drain_masked.symm
  | resume =>
    refine masked_ext ?_ (congrArg₂ (· ++ ·) hwoken hthreads) hovertaken hretired
    exact (s'.simulator.resume_masked.trans (congrArg (·.resume.1) hsimulator)).trans
      s.simulator.resume_masked.symm

theorem retirements_of_masked (h : s'.masked = s.masked) (call : Call) :
    s'.retirements call = s.retirements call := by
  have hsimulator := (eq_of_masked h).1
  cases call with
  | step => exact Simulator.stamps_of_masked hsimulator
  | run limit => exact Simulator.stamps_advance_of_masked limit [] hsimulator
  | _ => rfl

/-- **What is in the units has no effect on any calls.** -/
theorem after_of_masked (calls : List Call) {s s' : Session} (h : s'.masked = s.masked) :
    (s'.after calls).masked = (s.after calls).masked ∧ s'.timeline calls = s.timeline calls := by
  induction calls generalizing s s' with
  | nil => exact ⟨h, rfl⟩
  | cons call calls ih =>
    obtain ⟨hafter, htimeline⟩ := ih (perform_of_masked h call)
    exact ⟨hafter, congrArg₂ (· ++ ·) (retirements_of_masked h call) htimeline⟩

end Session

end InOrder
