import InOrder.Proofs.Drain
import InOrder.Proofs.Isolation
import InOrder.Proofs.Signals

/-!
# Drains that are complete at once

A drain that finds a pipeline empty is complete at once, but it has asked every thread for a halt all
the same. If the pipeline is evaluated although it has stopped, execute sends these halts, one in
each cycle, and they go their way to the line fetch. Nothing else happens (`Machine.Vacant`): no
other register and no stage holds anything, nothing retires and no signal is given.

* `Machine.Vacant.next`: a machine that holds nothing but halts goes on so.
* `Machine.Draining.isEmpty_redirects_iff`: how long halts are on their way.
* `Pipeline.drained_evaluateAll`: so a pipeline that was empty is empty again when the last halt has
  arrived, and not before.
-/

namespace InOrder

/-! ## Machines that hold nothing but halts -/

/-- An empty register to which nothing is written stays empty. -/
theorem Register.Clean.isEmpty_cycle {α : Type} [Payload α] {r : Register α} (hr : r.Clean)
    (h : r.isEmpty = true) {w : Option α} (hw : w = none) :
    (r.write? w).advance.isEmpty = true := by
  subst hw
  exact Pipeline.isEmpty_cycle hr h

namespace Machine

variable {c : Config} {m : Image} {b : Nat} {x : Machine}

/-- No thread fetches, and nothing is held but halts that are on their way to the line fetch. -/
structure Vacant (x : Machine) : Prop where
  pending : x.stages.lineFetch.pending = none
  stopped : ∀ th ∈ x.stages.lineFetch.threads, th.state ≠ .running
  lines : x.stages.slicer.input.entries = []
  bundles : x.stages.decode.input.entries = []
  queued : x.stages.execute.input.entries = []
  units : x.stages.execute.units = []
  registers : ∀ e ≠ .eToF1, x.registers.isEmpty e = true
  halts : ∀ r ∈ x.registers.eToF1.held, r.reason = .halt

theorem Empty.vacant (h : x.Empty) : x.Vacant where
  pending := h.pending
  stopped := h.stopped
  lines := h.lines
  bundles := h.bundles
  queued := h.queued
  units := h.units
  registers e _ := h.registers e
  halts r hr := by
    have hheld : x.registers.eToF1.held = [] := Register.held_of_isEmpty (h.registers .eToF1)
    rw [hheld] at hr
    exact absurd hr List.not_mem_nil

namespace Vacant

/-- What such a machine holds is in the register of redirects. -/
theorem empty_iff (h : x.Vacant) : x.Empty ↔ x.registers.isEmpty .eToF1 = true := by
  constructor
  · exact fun hempty => hempty.registers .eToF1
  · intro hredirects
    refine ⟨h.pending, h.stopped, h.lines, h.bundles, h.queued, h.units, fun e => ?_⟩
    by_cases he : e = .eToF1
    · exact he ▸ hredirects
    · exact h.registers e he

theorem isBubble_output (h : x.Vacant) :
    Payload.isBubble x.registers.f1ToF2.output = true ∧
      Payload.isBubble x.registers.f2ToD.output = true ∧
      Payload.isBubble x.registers.dToE.output = true ∧
      Payload.isBubble x.registers.f2ToF1.output = true :=
  ⟨Machine.isBubble_output (Register.held_of_isEmpty (h.registers .f1ToF2 (by decide))),
    Machine.isBubble_output (Register.held_of_isEmpty (h.registers .f2ToD (by decide))),
    Machine.isBubble_output (Register.held_of_isEmpty (h.registers .dToE (by decide))),
    Machine.isBubble_output (Register.held_of_isEmpty (h.registers .f2ToF1 (by decide)))⟩

/-- **A machine that holds nothing but halts sends halts, and does nothing else.** -/
theorem next (h : x.Vacant) (hs : x.Sound c m b) : x.next.Vacant ∧ x.executed.retired = [] := by
  obtain ⟨hline, hcut, hdecoded, hprediction⟩ := h.isBubble_output
  obtain ⟨hexecute, hredirect, hretired⟩ :=
    Execute.evaluate_empty (s := x.polled) h.queued h.units hdecoded (x.cycles + 1)
  obtain ⟨threads, hhalted, hhalt⟩ := x.polled.haltNext_eq
  obtain ⟨hdecode, hpassed⟩ :=
    Decode.evaluate_quiet h.bundles hcut x.executed.stage.input.hasRoom
  obtain ⟨hslicer, hbundle, hpredicted⟩ := Slicer.evaluate_empty h.lines hline
    x.registers.eToF1.output x.decoded.stage.input.hasRoom
  have hbranch : Payload.isBubble x.registers.eToF1.output = false →
      x.registers.eToF1.output.reason = .halt := fun hlive =>
    h.halts _ (Register.output_mem_held hlive)
  obtain ⟨hpending, hstopped, hfetched⟩ := LineFetch.evaluate_halted h.pending h.stopped hbranch
    hprediction (x.cycles + 1) x.sliced.stage.input.hasRoom
  have hstage : x.executed.stage = { x.polled with threads } := hexecute.trans hhalted
  refine ⟨⟨hpending, hstopped, ?_, ?_, ?_, ?_, fun e he => ?_, fun r hr => ?_⟩, hretired⟩
  · exact (congrArg (·.input.entries) hslicer).trans h.lines
  · exact (congrArg (·.input.entries) hdecode).trans h.bundles
  · exact (congrArg (·.input.entries) hstage).trans h.queued
  · exact (congrArg (·.units) hstage).trans h.units
  · -- to the other registers nothing is written
    cases e with
    | f1ToF2 => exact hs.registers.lines.isEmpty_cycle (h.registers .f1ToF2 he) hfetched
    | f2ToD => exact hs.registers.cut.isEmpty_cycle (h.registers .f2ToD he) hbundle
    | dToE => exact hs.registers.decoded.isEmpty_cycle (h.registers .dToE he) hpassed
    | eToF1 => exact absurd rfl he
    | f2ToF1 => exact hs.registers.predictions.isEmpty_cycle (h.registers .f2ToF1 he) hpredicted
  · have hheld : x.next.registers.eToF1.held =
        x.registers.eToF1.behind ++ present x.executed.redirect.toList :=
      Register.held_cycle hs.registers.redirects x.executed.redirect
    rw [hheld] at hr
    rcases List.mem_append.mp hr with hr | hr
    · exact h.halts r (List.mem_append_right _ hr)
    · have hsent := Option.mem_toList.mp (mem_present.mp hr).1
      exact hhalt r (hredirect ▸ hsent)

theorem after (h : x.Vacant) (hs : x.Sound c m b) (k : Nat) : (x.after k).Vacant := by
  induction k with
  | zero => exact h
  | succ k ih =>
    rw [after_succ]
    exact (ih.next (hs.after k)).1

end Vacant

/-- **Halts are on their way from the first cycle on until the last of them has arrived.** -/
theorem Draining.isEmpty_redirects_iff (h : x.Draining c) (hs : x.Sound c m b)
    (hpos : 0 < x.pendingHalts) (hfirst : x.registers.isEmpty .eToF1 = true) (k : Nat) :
    (x.after k).registers.isEmpty .eToF1 = true ↔
      k = 0 ∨ x.pendingHalts + x.registers.eToF1.row.length ≤ k := by
  constructor
  · intro hempty
    by_contra hbetween
    obtain ⟨hk, hlt⟩ := not_or.mp hbetween
    obtain ⟨j, rfl⟩ := Nat.exists_eq_succ_of_ne_zero hk
    have hbusy := h.busy_register hs hpos (k := j) (by omega)
    exact Bool.false_ne_true (hbusy.symm.trans hempty)
  · rintro (rfl | hk)
    · exact hfirst
    · exact Register.isEmpty_of_held (hs.after k).registers.redirects (h.held_redirects hs hk)

end Machine

/-! ## Pipelines -/

namespace Pipeline

variable {c : Config} {m : Image} {p : Pipeline Stages} {told : List Event}

/-- A new pipeline without faults is sound, and as large as configured. -/
theorem sound_of_new (hc : c.FaultFree)
    (h : Pipeline.new c (.new owner c m) = .ok (p, told)) :
    p.Sound c m ∧ p.Fitted c ∧ c.Admitted := by
  obtain ⟨-, hadmitted, -, -⟩ := of_new_of_none hc.register h
  have hsimulator : Simulator.new c (Stages.new owner c m) =
      .ok (⟨.ofPipeline c p, c.host.clockPeriod.toNat, hadmitted.period⟩, told) := by
    rw [Simulator.new, h]
    exact dif_pos hadmitted.period
  have hstarts := Simulator.starts hc hsimulator
  exact ⟨hstarts.pipeline, hstarts.fitted, hadmitted⟩

/-- Calls keep a pipeline without faults sound, and as large as it is. -/
theorem Sound.perform (h : p.Sound c m) (hf : p.Fitted c) (o : Order) :
    (p.perform o).Sound c m ∧ (p.perform o).Fitted c := by
  cases o with
  | evaluate now => exact ⟨h.evaluate now, hf.evaluate h.waiting h.unitMode now⟩
  | wake thread => exact ⟨h.wakeFetch thread, hf.wakeFetch thread⟩
  | drain => exact ⟨h.drain, hf.drain⟩
  | resume threads => exact ⟨h.resume threads, hf.resume threads⟩
  | start => exact ⟨{ h with }, { hf with }⟩
  | stop => exact ⟨{ h with }, { hf with }⟩

theorem Sound.performAll (orders : List Order) : ∀ {p : Pipeline Stages}, p.Sound c m →
    p.Fitted c → (p.performAll orders).Sound c m ∧ (p.performAll orders).Fitted c := by
  induction orders with
  | nil => exact fun h hf => ⟨h, hf⟩
  | cons o os ih =>
    intro p h hf
    obtain ⟨hsound, hfitted⟩ := h.perform hf o
    exact ih hsound hfitted

/-- An evaluation is a cycle of the machine, at whatever tick. -/
theorem Sound.machine_evaluate (h : p.Sound c m) (now : Nat) (hist : History) :
    (p.evaluate now).pipeline.machine (p.machine hist).next.history = (p.machine hist).next := by
  obtain ⟨hholds, -⟩ := evaluate_holds h.waiting h.unitMode now
  rw [Pipeline.machine, hholds.stages, hholds.registers, hholds.cycles]
  rfl

theorem Sound.machine_evaluateAll (ticks : List Nat) : ∀ {p : Pipeline Stages} (_ : p.Sound c m)
    (hist : History), (p.evaluateAll ticks).machine
      ((p.machine hist).after ticks.length).history = (p.machine hist).after ticks.length := by
  induction ticks with
  | nil => exact fun _ _ => rfl
  | cons now ticks ih =>
    intro p h hist
    have hrest := ih (h.evaluate now) (p.machine hist).next.history
    rw [h.machine_evaluate now hist] at hrest
    exact hrest

theorem Sound.evaluateAll (ticks : List Nat) : ∀ {p : Pipeline Stages}, p.Sound c m →
    (p.evaluateAll ticks).Sound c m := by
  induction ticks with
  | nil => exact fun h => h
  | cons now ticks ih => exact fun h => ih (h.evaluate now)

/-- Without a micro-op in a unit nothing retires. -/
theorem Sound.retired_eq_nil (h : p.Sound c m) (hunits : p.stages.execute.units = []) (now : Nat) :
    (p.evaluate now).retired = [] := by
  have hnone : (p.polled now).execute.units = [] := hunits
  have hretired := ((p.polled now).execute.evaluate_retired (p.stats.cycles + 1)
    p.registers.outputs.dToE).1
  rw [hnone] at hretired
  exact (evaluate_holds h.waiting h.unitMode now).2.trans hretired

/-- Where no signal is owed, evaluations do not change that. -/
theorem signalDue_evaluateAll (ticks : List Nat) : ∀ {p : Pipeline Stages}, p.signalDue = false →
    (p.evaluateAll ticks).signalDue = false := by
  induction ticks with
  | nil => exact fun h => h
  | cons now ticks ih => exact fun h => ih (drains_evaluate_of_none h now).2.1

/-- **What an empty pipeline does after a drain.** Take any calls to a new pipeline, then a drain
that is complete at once, and any evaluations. No stage holds anything, nothing retires and no signal
is given; all registers are empty but that of the redirects, which holds nothing but halts. So the
pipeline is empty at first, and again when there was a cycle for each thread and as many as a redirect
takes; in between a halt is on its way. -/
theorem drained_evaluateAll (hc : c.FaultFree)
    (hnew : Pipeline.new c (.new owner c m) = .ok (p, told)) (orders : List Order)
    (hdrain : (p.performAll orders).drain.2.1 = true) (ticks : List Nat) :
    let q := (p.performAll orders).drain.1.evaluateAll ticks
    (∀ drained ∈ (StageSet.drained q.stages).toList, drained = true) ∧
      (∀ e ≠ .eToF1, q.registers.isEmpty e = true) ∧
      (∀ r ∈ q.registers.eToF1.held, r.reason = .halt) ∧
      (∀ now, (q.evaluate now).drainDone = false ∧ (q.evaluate now).retired = []) ∧
      (q.isDrained = true ↔ ticks.length = 0 ∨
        c.host.threads.toNat + c.pipeline.delays.eToF1.toNat ≤ ticks.length) := by
  intro q
  obtain ⟨hsound, hfitted, hadmitted⟩ := sound_of_new hc hnew
  obtain ⟨hreached, hreachedFitted⟩ := hsound.performAll orders hfitted
  obtain ⟨hdrained, hdue⟩ := drain_of_true hdrain
  have hs := hreached.drain
  have hdraining := hreached.draining_drain {}
  have hpending := hreached.pendingHalts_drain {}
  obtain ⟨x, hx⟩ : ∃ x, x = (p.performAll orders).drain.1.machine {} := ⟨_, rfl⟩
  rw [← hx] at hdraining hpending
  have hmachine : x.Sound c m x.cycles := hx ▸ ⟨hs.stages, hs.registers⟩
  have hempty : x.Empty := hx ▸ (isDrained_iff_empty {}).mp hdrained
  have hrow : x.registers.eToF1.row.length = c.pipeline.delays.eToF1.toNat :=
    hx ▸ hreachedFitted.drain.row
  have hlater : q.machine (x.after ticks.length).history = x.after ticks.length :=
    hx ▸ hs.machine_evaluateAll ticks {}
  have hstages : q.stages = (x.after ticks.length).stages := congrArg Machine.stages hlater
  have hregisters : q.registers = (x.after ticks.length).registers :=
    congrArg Machine.registers hlater
  have hvacant := hempty.vacant.after hmachine ticks.length
  have hthreads := hadmitted.threads
  refine ⟨?_, ?_, ?_, fun now => ⟨?_, ?_⟩, ?_⟩
  · rw [hstages]
    exact Stages.all_drained hvacant.pending hvacant.stopped hvacant.lines hvacant.bundles
      hvacant.queued hvacant.units
  · rw [hregisters]
    exact hvacant.registers
  · rw [hregisters]
    exact hvacant.halts
  · exact (drains_evaluate_of_none (signalDue_evaluateAll ticks hdue) now).1
  · refine (hs.evaluateAll ticks).retired_eq_nil ?_ now
    exact (congrArg (·.execute.units) hstages).trans hvacant.units
  · rw [isDrained_iff_empty (x.after ticks.length).history, hlater, hvacant.empty_iff,
      hdraining.isEmpty_redirects_iff hmachine (by omega) (hempty.registers .eToF1), hpending, hrow]

/-- **A pipeline that was empty when a drain was asked for does not stay empty**, and not all of its
registers stay so. -/
theorem not_drained_evaluateAll : ¬ ∀ (c : Config) (m : Image) (p : Pipeline Stages),
    c.FaultFree → (∃ told, Pipeline.new c (.new owner c m) = .ok (p, told)) →
    ∀ orders : List Order, (p.performAll orders).drain.2.1 = true →
      ∀ ticks : List Nat, ticks.Pairwise (· ≤ ·) →
        ((p.performAll orders).drain.1.evaluateAll ticks).isDrained = true ∧
          ∀ e, ((p.performAll orders).drain.1.evaluateAll ticks).registers.isEmpty e = true := by
  intro hall
  obtain ⟨p, hnew, hdrain, hbusy⟩ : ∃ p : Pipeline Stages,
      (∃ told, Pipeline.new {} (.new owner {} .pair) = .ok (p, told)) ∧
      (p.performAll []).drain.2.1 = true ∧
      ((p.performAll []).drain.1.evaluateAll [1]).isDrained = false :=
    ⟨_, ⟨_, rfl⟩, by decide +kernel, by decide +kernel⟩
  have hstays := (hall {} .pair p (by decide) hnew [] hdrain [1] (List.pairwise_singleton _ _)).1
  exact Bool.false_ne_true (hbusy.symm.trans hstays)

end Pipeline

/-- Two threads, and two cycles from execute to the line fetch. -/
def Config.twofold : Config :=
  { host := { threads := 2 }, pipeline := { delays := { PerEdge.all 1 with eToF1 := 2 } } }

/-- Two threads that were woken, drained and halted. -/
def haltedOrders : List Order :=
  [.wake 0, .wake 1] ++ (List.range 7).map (fun i => .evaluate (i + 1)) ++ .drain ::
    (List.range 9).map fun i => .evaluate (i + 10)

/-- A drain after a drain: the halts of two threads are gone after four evaluations. -/
theorem drained_evaluateAll_twofold : ∃ p : Pipeline Stages,
    (∃ told, Pipeline.new .twofold (.new Pipeline.owner .twofold .pair) = .ok (p, told)) ∧
      (p.performAll haltedOrders).retired = 4 ∧
      (p.performAll haltedOrders).drain.2.1 = true ∧
      ((p.performAll haltedOrders).drain.1.evaluateAll [20, 21, 22]).isDrained = false ∧
      ((p.performAll haltedOrders).drain.1.evaluateAll [20, 21, 22, 23]).isDrained = true := by
  obtain ⟨p, ⟨told, hnew⟩, hretired, hdrain⟩ : ∃ p : Pipeline Stages,
      (∃ told, Pipeline.new .twofold (.new Pipeline.owner .twofold .pair) = .ok (p, told)) ∧
      (p.performAll haltedOrders).retired = 4 ∧
      (p.performAll haltedOrders).drain.2.1 = true :=
    ⟨_, ⟨_, rfl⟩, by decide +kernel, by decide +kernel⟩
  obtain ⟨-, -, -, -, hbetween⟩ :=
    Pipeline.drained_evaluateAll (by decide) hnew haltedOrders hdrain [20, 21, 22]
  obtain ⟨-, -, -, -, hlast⟩ :=
    Pipeline.drained_evaluateAll (by decide) hnew haltedOrders hdrain [20, 21, 22, 23]
  exact ⟨p, ⟨told, hnew⟩, hretired, hdrain, Bool.eq_false_iff.mpr (mt hbetween.mp (by decide)),
    hlast.mpr (by decide)⟩

end InOrder
