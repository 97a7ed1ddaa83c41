import InOrder.Proofs.Contents
import InOrder.Proofs.Pipeline.Lifecycle
import InOrder.Proofs.Pipeline.Start

/-!
# Cycles with faults

Faults come before the work of a cycle, so a cycle with faults is one without them, from the
pipeline that the faults leave (`Pipeline.struck`). They leave little changed:

* a flip in a functional unit changes the instruction of the oldest micro-op and nothing else
  (`Pipeline.stages_struck`), and
* a flip in a register changes what stands at an output, which is gone after the cycle
  (`Register.Hit.cycle`). Where no register waits for a flip, none is changed
  (`Pipeline.registers_struck`).
-/

namespace InOrder

/-! ## Flips in the units -/

/-- The same micro-op in the same unit, but for bits of its instruction. -/
def InFlight.Alike (f g : InFlight) : Prop := ∃ inst, g = { f with op := { f.op with inst } }

theorem InFlight.Alike.refl (f : InFlight) : f.Alike f := ⟨f.op.inst, rfl⟩

/-- What does not read the instruction says the same of units that are alike. -/
theorem InFlight.Alike.map_eq {β : Type} {g : InFlight → β}
    (hg : ∀ f inst, g { f with op := { f.op with inst } } = g f) {us us' : List InFlight}
    (h : List.Forall₂ InFlight.Alike us us') : us'.map g = us.map g := by
  induction h with
  | nil => rfl
  | cons halike _ ih =>
    obtain ⟨inst, rfl⟩ := halike
    rw [List.map_cons, List.map_cons, ih, hg]

/-- A flip in a unit changes nothing but an instruction. -/
theorem Execute.flipUnit_eq (s : Execute) :
    ∃ units, s.flipUnit.1 = { s with units } ∧ List.Forall₂ InFlight.Alike s.units units := by
  unfold flipUnit
  split
  · exact ⟨s.units, rfl, List.forall₂_same.mpr fun f _ => .refl f⟩
  · rename_i f rest hunits
    rw [hunits]
    exact ⟨_, rfl, .cons ⟨_, rfl⟩ (List.forall₂_same.mpr fun g _ => .refl g)⟩

/-! ## Flips in the registers -/

/-- Nothing but what stands at the output has changed, and which flip is scheduled. -/
def Register.Hit {α : Type} (r r' : Register α) : Prop :=
  ∃ a flip, r' = { r with line := r.line.setOutput a, flip }

namespace Register.Hit

variable {α : Type} {r r' r'' : Register α}

theorem refl (r : Register α) : r.Hit r := ⟨r.output, r.flip, rfl⟩

theorem trans (h : r.Hit r') (h' : r'.Hit r'') : r.Hit r'' := by
  obtain ⟨a, flip, rfl⟩ := h
  obtain ⟨a', flip', rfl⟩ := h'
  exact ⟨a', flip', rfl⟩

/-- **After a cycle the output that was hit is gone.** -/
theorem cycle (h : r.Hit r') (w : Option α) :
    (r'.write? w).advance.line = (r.write? w).advance.line := by
  obtain ⟨a, flip, rfl⟩ := h
  cases w <;> cases hm : r.line.middle <;>
    simp only [write?, write, advance, DelayLine.write, DelayLine.setOutput, DelayLine.advance, hm]

theorem inject [Payload α] (r : Register α) (now : Nat) : r.Hit (r.inject now).1 := by
  unfold Register.inject
  split
  · exact .refl r
  · split
    · exact .refl r
    · dsimp only
      split
      · exact ⟨r.output, none, rfl⟩
      · split
        · exact ⟨_, none, rfl⟩
        · exact ⟨r.output, none, rfl⟩

end Register.Hit

/-- Nothing but outputs has changed, and which flips are scheduled. -/
structure Registers.Hit (rs rs' : Registers) : Prop where
  lines : rs.f1ToF2.Hit rs'.f1ToF2
  cut : rs.f2ToD.Hit rs'.f2ToD
  decoded : rs.dToE.Hit rs'.dToE
  redirects : rs.eToF1.Hit rs'.eToF1
  predictions : rs.f2ToF1.Hit rs'.f2ToF1

namespace Registers.Hit

variable {rs rs' rs'' : Registers}

theorem refl (rs : Registers) : rs.Hit rs :=
  ⟨.refl _, .refl _, .refl _, .refl _, .refl _⟩

theorem trans (h : rs.Hit rs') (h' : rs'.Hit rs'') : rs.Hit rs'' :=
  ⟨h.lines.trans h'.lines, h.cut.trans h'.cut, h.decoded.trans h'.decoded,
    h.redirects.trans h'.redirects, h.predictions.trans h'.predictions⟩

theorem inject (rs : Registers) (e : Edge) (now : Nat) : rs.Hit (rs.inject e now).1 := by
  cases e
  · exact { Hit.refl rs with lines := .inject _ now }
  · exact { Hit.refl rs with cut := .inject _ now }
  · exact { Hit.refl rs with decoded := .inject _ now }
  · exact { Hit.refl rs with redirects := .inject _ now }
  · exact { Hit.refl rs with predictions := .inject _ now }

theorem ask (now : Nat) (es : List Edge) : ∀ rs, Hit rs (FaultLog.ask now es rs).2.1 := by
  induction es with
  | nil => exact .refl
  | cons e es ih => exact fun rs => (inject rs e now).trans (ih _)

end Registers.Hit

/-! ### Flips that wait -/

namespace Registers

/-- The registers with a flip scheduled in that of an edge. -/
def armed (rs : Registers) (e : Edge) (f : Flip) : Registers :=
  (rs.change e fun r => ({ r with flip := some f }, ())).1

/-- The registers but that of the predictions hold the same. -/
structure Agree (rs rs' : Registers) : Prop where
  lines : rs'.f1ToF2.line = rs.f1ToF2.line
  cut : rs'.f2ToD.line = rs.f2ToD.line
  decoded : rs'.dToE.line = rs.dToE.line
  redirects : rs'.eToF1.line = rs.eToF1.line

/-- A flip that is scheduled does not change what the registers hold. -/
theorem Agree.armed (rs : Registers) (e : Edge) (f : Flip) : rs.Agree (rs.armed e f) := by
  cases e <;> exact ⟨rfl, rfl, rfl, rfl⟩

end Registers

/-- Each edge has a register of its own name. -/
theorem FaultConfig.target_selector {c : FaultConfig} {e : Edge} (h : c.register = e.selector) :
    c.target = .ok (some e) := by
  rw [target, h]
  cases e <;> rfl

/-! ## The cycle -/

namespace Pipeline

/-- A flip in a unit leaves the rest of a pipeline as it is. -/
theorem injectUnits_eq (p : Pipeline Stages) : ∃ units unitFlipped,
    p.injectUnits.1 =
      { p with
        stages := { p.stages with execute := { p.stages.execute with units } }, unitFlipped } ∧
    List.Forall₂ InFlight.Alike p.stages.execute.units units := by
  unfold injectUnits
  split
  · obtain ⟨units, heq, halike⟩ := p.stages.execute.flipUnit_eq
    exact ⟨units, _, congrArg (fun execute => ({ p with
      stages := { p.stages with execute }
      unitFlipped := p.unitFlipped || p.stages.execute.flipUnit.2.1 } : Pipeline Stages)) heq,
      halike⟩
  · exact ⟨p.stages.execute.units, p.unitFlipped, rfl,
      List.forall₂_same.mpr fun f _ => .refl f⟩

variable (p : Pipeline Stages) (now : Nat)

/-- The pipeline when the faults of a cycle have been applied. -/
def struck : Pipeline Stages := (p.begin.inject now).1

/-- What the stages do in a cycle, after its faults. -/
def struckWork : StageSet.Result Stages :=
  (p.struck now).stages.evaluate (p.stats.cycles + 1) (p.struck now).registers.outputs

/-- The pipeline when its stages have worked and its registers have moved on. -/
def finished : Pipeline Stages :=
  let ran := (p.struck now).runStages.1
  ({ ran with registers := ran.registers.advance } : Pipeline Stages).account now
    p.registers.snapshot

/-- **The faults of a cycle leave a pipeline as it is**, but for the instruction of a unit, and what
stands at the outputs of the registers. -/
theorem struck_eq : ∃ units unitFlipped,
    p.struck now =
      { p.begin with
        faults := (p.faults.evaluate now p.registers).1
        registers := (p.faults.evaluate now p.registers).2.1
        stages := { p.polled now with execute := { (p.polled now).execute with units } }
        unitFlipped } ∧
    List.Forall₂ InFlight.Alike p.stages.execute.units units :=
  injectUnits_eq { p.begin with
    faults := (p.faults.evaluate now p.registers).1
    registers := (p.faults.evaluate now p.registers).2.1
    stages := p.polled now }

/-- The stages that the faults leave. -/
theorem stages_struck : ∃ units,
    (p.struck now).stages =
      { p.polled now with execute := { (p.polled now).execute with units } } ∧
    List.Forall₂ InFlight.Alike p.stages.execute.units units := by
  obtain ⟨units, unitFlipped, heq, halike⟩ := p.struck_eq now
  exact ⟨units, congrArg Pipeline.stages heq, halike⟩

/-- The registers that the faults leave. -/
theorem registers_struck_hit : p.registers.Hit (p.struck now).registers := by
  obtain ⟨units, unitFlipped, heq, -⟩ := p.struck_eq now
  rw [heq]
  exact .ask now p.faults.waiting p.registers

variable {p}

/-- Where no register waits for a flip, none is changed, and none waits afterwards. -/
theorem registers_struck (h : p.faults.waiting = []) :
    (p.struck now).registers = p.registers ∧ (p.struck now).faults = p.faults := by
  have hfaults : p.faults.evaluate now p.registers = (p.faults, p.registers, []) := by
    rw [FaultLog.evaluate, h]
    show (FaultLog.mk [] (p.faults.applied ++ []), p.registers, []) = _
    rw [List.append_nil, ← h]
  obtain ⟨units, unitFlipped, heq, -⟩ := p.struck_eq now
  rw [heq, hfaults]
  exact ⟨rfl, rfl⟩

/-- Where no fault is due, the stages do what they do in a cycle without faults. -/
theorem struckWork_eq_work (hwaiting : p.faults.waiting = []) (hunits : p.unitMode = none) :
    p.struckWork now = p.work now := by
  rw [struckWork, struck, inject_eq (p := p.begin) hwaiting hunits now]
  rfl

variable (p)

/-- **A cycle is the work of the stages after the faults, and one cycle of the registers**; then the
lifecycle is seen to. -/
theorem evaluate_eq_finished :
    (p.evaluate now).pipeline = (p.finished now).idle.1.settle.1 ∧
      (p.evaluate now).retired = (p.struckWork now).retired := by
  obtain ⟨units, unitFlipped, heq, -⟩ := p.struck_eq now
  refine ⟨rfl, ?_⟩
  show (p.struck now).runStages.2.retired = _
  rw [struckWork, heq]
  rfl

/-- The lifecycle concerns no stage and no register. -/
theorem settle_idle_eq : ∃ activity signalDue drainState running,
    p.idle.1.settle.1 = { p with activity, signalDue, drainState, running } := by
  unfold settle idle
  split <;> split <;> (try split) <;> exact ⟨_, _, _, _, rfl⟩

/-- What a cycle makes of stages and registers. -/
theorem evaluate_struck :
    (p.evaluate now).pipeline.stages = (p.struckWork now).stages ∧
      (p.evaluate now).pipeline.registers =
        ((p.struck now).registers.write (p.struckWork now).writes).advance ∧
      (p.evaluate now).pipeline.stats.cycles = p.stats.cycles + 1 ∧
      (p.evaluate now).pipeline.faults = (p.struck now).faults := by
  obtain ⟨units, unitFlipped, heq, -⟩ := p.struck_eq now
  obtain ⟨activity, signalDue, drainState, running, hend⟩ := (p.finished now).settle_idle_eq
  rw [(p.evaluate_eq_finished now).1, hend, finished, struckWork, heq]
  exact ⟨rfl, rfl, rfl, rfl⟩

/-- The statistics of a cycle are those of the outputs before any flip. -/
theorem stats_evaluate : (p.evaluate now).pipeline.stats =
    { p.stats.addBubbles p.registers.snapshot.bubble (now - p.lastSnapshot) with
      cycles := p.stats.cycles + 1
      snapshots := p.stats.snapshots + 1 } := by
  obtain ⟨units, unitFlipped, heq, -⟩ := p.struck_eq now
  obtain ⟨activity, signalDue, drainState, running, hend⟩ := (p.finished now).settle_idle_eq
  rw [(p.evaluate_eq_finished now).1, hend, finished, heq]
  rfl

/-- What a cycle makes of the faults in the units, and of the clock of the statistics. -/
theorem units_evaluate :
    (p.evaluate now).pipeline.unitMode = p.unitMode ∧
      (p.evaluate now).pipeline.unitFlipped = (p.struck now).unitFlipped ∧
      (p.evaluate now).pipeline.lastSnapshot = now := by
  obtain ⟨units, unitFlipped, heq, -⟩ := p.struck_eq now
  obtain ⟨activity, signalDue, drainState, running, hend⟩ := (p.finished now).settle_idle_eq
  rw [(p.evaluate_eq_finished now).1, hend, finished, heq]
  exact ⟨rfl, rfl, rfl⟩

/-- The faults in the units strike the oldest micro-op, if they are due. -/
theorem struck_units :
    (p.struck now).stages =
        (if p.unitFaultDue then
          { p.polled now with execute := (p.polled now).execute.flipUnit.1 }
        else p.polled now) ∧
      (p.struck now).unitFlipped = (p.unitFlipped ||
        (p.unitFaultDue && (p.polled now).execute.flipUnit.2.1)) := by
  have hdue : (({ p.begin with
      faults := (p.faults.evaluate now p.registers).1
      registers := (p.faults.evaluate now p.registers).2.1
      stages := p.polled now } : Pipeline Stages).unitFaultDue) = p.unitFaultDue := rfl
  have hstruck : p.struck now = (injectUnits { p.begin with
      faults := (p.faults.evaluate now p.registers).1
      registers := (p.faults.evaluate now p.registers).2.1
      stages := p.polled now }).1 := rfl
  rw [hstruck, injectUnits, hdue]
  cases p.unitFaultDue with
  | false => exact ⟨rfl, (Bool.or_false _).symm⟩
  | true => exact ⟨rfl, rfl⟩

/-! ## The start -/

/-- **A flip that is configured waits in the register of its edge.** -/
theorem scheduleFault_of_target {c : FaultConfig} {e : Edge} (h : c.target = .ok (some e))
    (rs : Registers) :
    scheduleFault rs c = .ok (rs.armed e ⟨c.tick.toNat, c.bit.toNat⟩, ⟨[e], []⟩,
      [.flipScheduled (rs.nameOf e) c.tick.toNat c.bit.toNat]) := by
  rw [scheduleFault, h]
  cases e <;> rfl

/-- To schedule a flip does not touch what those registers hold. -/
theorem agree_of_scheduleFault {rs rs' : Registers} {c : FaultConfig} {faults : FaultLog}
    {events : List Event} (h : scheduleFault rs c = .ok (rs', faults, events)) :
    rs.Agree rs' := by
  obtain ⟨target, htarget, -⟩ := of_bind_eq_ok h
  cases target with
  | none =>
    rw [scheduleFault, htarget] at h
    obtain rfl := congrArg Prod.fst (Except.ok.inj h)
    exact ⟨rfl, rfl, rfl, rfl⟩
  | some e =>
    rw [scheduleFault_of_target htarget] at h
    obtain rfl := congrArg Prod.fst (Except.ok.inj h)
    exact .armed rs e _

end Pipeline

end InOrder
