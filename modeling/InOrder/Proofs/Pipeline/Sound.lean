import InOrder.Pipeline.Cycle
import InOrder.Proofs.Stage.LineFetch

/-!
# Pipelines without faults

`Pipeline.Sound` is what holds of a pipeline between cycles when nothing is corrupted: its stages
are sound, its registers are clean, and the redirects on their way are such as execute and the
slicer send. A cycle is then the work of the stages on the outputs of the registers, and one cycle
of the registers (`Pipeline.evaluate_holds`); what is left of it concerns the statistics and the
lifecycle.
-/

namespace InOrder

/-! ## Cycles -/

namespace Pipeline

/-- The stages as they come to work in a cycle. -/
def polled (p : Pipeline Stages) (now : Nat) : Stages := (StageSet.pollQueue p.stages now).1

/-- What the stages do in a cycle without faults. -/
def work (p : Pipeline Stages) (now : Nat) : StageSet.Result Stages :=
  (p.polled now).evaluate (p.stats.cycles + 1) p.registers.outputs

/-- What a pipeline holds, but for the lifecycle and the statistics. -/
structure Holds (p : Pipeline Stages) (stages : Stages) (registers : Registers) (cycles : Nat) :
    Prop where
  stages : p.stages = stages
  registers : p.registers = registers
  cycles : p.stats.cycles = cycles
  waiting : p.faults.waiting = []
  unitMode : p.unitMode = none

variable {p : Pipeline Stages} {s : Stages} {rs : Registers} {n : Nat}

theorem Holds.idle (h : p.Holds s rs n) : p.idle.1.Holds s rs n := by
  unfold Pipeline.idle
  split
  · exact ⟨h.stages, h.registers, h.cycles, h.waiting, h.unitMode⟩
  · exact h

theorem Holds.settle (h : p.Holds s rs n) : p.settle.1.Holds s rs n := by
  unfold Pipeline.settle
  split
  · split
    · exact ⟨h.stages, h.registers, h.cycles, h.waiting, h.unitMode⟩
    · exact h
  · exact h

/-- The stages work, and write what they wrote. -/
theorem Holds.runStages (h : p.Holds s rs n) :
    p.runStages.1.Holds (s.evaluate n rs.outputs).stages (rs.write (s.evaluate n rs.outputs).writes)
      n ∧ p.runStages.2 = s.evaluate n rs.outputs := by
  obtain ⟨rfl, rfl, rfl, hwaiting, hunits⟩ := h
  exact ⟨⟨rfl, rfl, rfl, hwaiting, hunits⟩, rfl⟩

theorem Holds.advance (h : p.Holds s rs n) :
    ({ p with registers := p.registers.advance } : Pipeline Stages).Holds s rs.advance n :=
  ⟨h.stages, congrArg Registers.advance h.registers, h.cycles, h.waiting, h.unitMode⟩

theorem Holds.account (h : p.Holds s rs n) (now : Nat) (observed : Snapshot) :
    (p.account now observed).Holds s rs n :=
  ⟨h.stages, h.registers, h.cycles, h.waiting, h.unitMode⟩

theorem inject_eq (hwaiting : p.faults.waiting = []) (hunits : p.unitMode = none) (now : Nat) :
    (p.inject now).1 = { p with stages := p.polled now } := by
  have hfaults : p.faults.evaluate now p.registers = (p.faults, p.registers, []) := by
    rw [FaultLog.evaluate, hwaiting]
    show (FaultLog.mk [] (p.faults.applied ++ []), p.registers, []) = _
    rw [List.append_nil, ← hwaiting]
  have hdue : ({ p with stages := p.polled now } : Pipeline Stages).unitFaultDue = false := by
    rw [unitFaultDue, hunits]
  rw [inject, hfaults]
  show (injectUnits { p with stages := p.polled now }).1 = _
  rw [injectUnits, hdue, if_neg Bool.false_ne_true]

/-- **A cycle without faults is the work of the stages and one cycle of the registers.** -/
theorem evaluate_holds (hwaiting : p.faults.waiting = []) (hunits : p.unitMode = none) (now : Nat) :
    (p.evaluate now).pipeline.Holds (p.work now).stages
        (p.registers.write (p.work now).writes).advance (p.stats.cycles + 1) ∧
      (p.evaluate now).retired = (p.work now).retired := by
  have hinjected : (p.begin.inject now).1.Holds (p.polled now) p.registers (p.stats.cycles + 1) := by
    rw [inject_eq (p := p.begin) hwaiting hunits now]
    exact ⟨rfl, rfl, rfl, hwaiting, hunits⟩
  obtain ⟨hran, hresult⟩ := hinjected.runStages
  exact ⟨(hran.advance.account now p.registers.snapshot).idle.settle,
    congrArg StageSet.Result.retired hresult⟩

end Pipeline

/-! ## What a cycle keeps -/

/-- The stages of a machine of these settings and this program, after `cycles` cycles. -/
structure Stages.Sound (c : Config) (m : Image) (cycles : Nat) (s : Stages) : Prop where
  lineFetch : s.lineFetch.Sound c.host.threads.toNat m c.pipeline.lineBytes.toUInt64
  slicer : s.slicer.Sound c.host.threads.toNat cycles
  predicts : s.slicer.predictJumps = c.pipeline.predictJumps
  execute : s.execute.Sound c.host.threads.toNat cycles

/-- The registers between cycles. -/
structure Registers.Sound (n : Nat) (rs : Registers) : Prop where
  lines : rs.f1ToF2.Clean
  cut : rs.f2ToD.Clean
  decoded : rs.dToE.Clean
  redirects : rs.eToF1.Clean
  predictions : rs.f2ToF1.Clean
  sent : ∀ r ∈ rs.eToF1.held, r.Sent n
  predicted : ∀ r ∈ rs.f2ToF1.held, r.Predicts n

/-- What the stages write. -/
structure Writes.Sound (n : Nat) (w : Writes) : Prop where
  line : present w.f1ToF2.toList = w.f1ToF2.toList
  redirect : ∀ r, w.eToF1 = some r → r.Sent n
  prediction : ∀ r, w.f2ToF1 = some r → r.Predicts n

theorem Stages.Sound.evaluate {c : Config} {m : Image} {cycles : Nat} {s : Stages}
    (h : s.Sound c m cycles) (cycle : Nat) {o : Outputs}
    (hb : Payload.isBubble o.eToF1 = false → o.eToF1.Sent c.host.threads.toNat) :
    (s.evaluate cycle o).stages.Sound c m (cycles + 1) ∧
      (s.evaluate cycle o).writes.Sound c.host.threads.toNat := by
  obtain ⟨hexecute, hredirect⟩ := h.execute.evaluate (Nat.le_of_lt (UInt32.toNat_lt _)) cycle o.dToE
  dsimp only [Stages.evaluate]
  refine ⟨⟨?_, ?_, ?_, hexecute⟩, ⟨?_, hredirect, ?_⟩⟩
  · exact (h.lineFetch.evaluate cycle o.eToF1 o.f2ToF1 _).1
  · exact (h.slicer.evaluate o.f1ToF2 hb _).1
  · exact (s.slicer.width_evaluate o.f1ToF2 o.eToF1 _).2.trans h.predicts
  · exact (h.lineFetch.evaluate cycle o.eToF1 o.f2ToF1 _).2
  · exact (h.slicer.evaluate o.f1ToF2 hb _).2

theorem Registers.Sound.cycle {n : Nat} {rs : Registers} (h : rs.Sound n) {w : Writes}
    (hw : w.Sound n) : (rs.write w).advance.Sound n := by
  refine ⟨Register.clean_cycle h.lines _, Register.clean_cycle h.cut _,
    Register.clean_cycle h.decoded _, Register.clean_cycle h.redirects _,
    Register.clean_cycle h.predictions _, ?_, ?_⟩
  · intro r hr
    have hheld : (rs.write w).advance.eToF1.held = _ := Register.held_cycle h.redirects w.eToF1
    rw [hheld] at hr
    rcases List.mem_append.mp hr with hr | hr
    · exact h.sent r (List.mem_append_right _ hr)
    · exact hw.redirect r (Option.mem_toList.mp (mem_present.mp hr).1)
  · intro r hr
    have hheld : (rs.write w).advance.f2ToF1.held = _ := Register.held_cycle h.predictions w.f2ToF1
    rw [hheld] at hr
    rcases List.mem_append.mp hr with hr | hr
    · exact h.predicted r (List.mem_append_right _ hr)
    · exact hw.prediction r (Option.mem_toList.mp (mem_present.mp hr).1)

namespace Pipeline

/-- What holds of a pipeline without faults between cycles. -/
structure Sound (c : Config) (m : Image) (p : Pipeline Stages) : Prop where
  stages : p.stages.Sound c m p.stats.cycles
  registers : p.registers.Sound c.host.threads.toNat
  waiting : p.faults.waiting = []
  unitMode : p.unitMode = none

variable {c : Config} {m : Image} {p : Pipeline Stages}

theorem Sound.polled (h : p.Sound c m) (now : Nat) :
    (p.polled now).Sound c m p.stats.cycles :=
  ⟨h.stages.lineFetch, h.stages.slicer, h.stages.predicts,
    ⟨h.stages.execute.indexed, h.stages.execute.length, h.stages.execute.units,
      h.stages.execute.bound⟩⟩

/-- **A cycle keeps a pipeline sound.** -/
theorem Sound.evaluate (h : p.Sound c m) (now : Nat) : (p.evaluate now).pipeline.Sound c m := by
  obtain ⟨hstages, hwrites⟩ := (h.polled now).evaluate (p.stats.cycles + 1)
    (o := p.registers.outputs) fun hlive => h.registers.sent _ (Register.output_mem_held hlive)
  have hholds := (evaluate_holds h.waiting h.unitMode now).1
  refine ⟨?_, ?_, hholds.waiting, hholds.unitMode⟩
  · rw [hholds.stages, hholds.cycles]
    exact hstages
  · rw [hholds.registers]
    exact h.registers.cycle hwrites

/-- What a pipeline keeps when a thread is woken, it keeps when several are. -/
theorem wakeAll_induction {P : Pipeline Stages → Prop}
    (hwake : ∀ p t, P p → P (p.wakeFetch t).1) (ts : List UInt32) :
    ∀ {p : Pipeline Stages}, P p → P (p.wakeAll ts).1 := by
  induction ts with
  | nil => exact fun h => h
  | cons t ts ih => exact fun h => ih (hwake _ t h)

end Pipeline

end InOrder
