import InOrder.Proofs.Session
import InOrder.Proofs.Stage.Discard
import InOrder.Proofs.Stage.Squash
import InOrder.Proofs.Stage.Supply
import InOrder.Proofs.Transit

/-!
# The machine in a pipeline

A pipeline works on its stages and registers, and looks after its lifecycle. `Machine` is the first
of the two: `Machine.next` is a cycle of it, whether the pipeline goes on or not, and
`Machine.after x k` is the machine `x` after `k` cycles. So what a machine comes to can be said of
all cycles, and how long a pipeline goes on is a question of its own.

* `Session.machine_step`: a step of a session that runs is a cycle of its machine.
* `Machine.lane_next`: a cycle is a sequence of steps for each lane.
-/

namespace InOrder

/-- What works in a pipeline, and what has happened to it. -/
structure Machine where
  stages : Stages
  registers : Registers
  /-- Cycles so far. -/
  cycles : Nat
  history : History

namespace Machine

/-! ## A cycle -/

/-- Execute as it comes to work, when its queue of loads and stores was polled. -/
def polled (x : Machine) : Execute := (StageSet.pollQueue x.stages 0).1.execute

/-- What execute does in the next cycle. -/
def executed (x : Machine) : Execute.Result :=
  x.polled.evaluate (x.cycles + 1) x.registers.dToE.output

/-- What decode does in the next cycle. -/
def decoded (x : Machine) : Decode.Result :=
  x.stages.decode.evaluate x.registers.f2ToD.output x.executed.stage.input.hasRoom

/-- What the slicer does in the next cycle. -/
def sliced (x : Machine) : Slicer.Result :=
  x.stages.slicer.evaluate x.registers.f1ToF2.output x.registers.eToF1.output
    x.decoded.stage.input.hasRoom

/-- What the line fetch does in the next cycle. -/
def fetched (x : Machine) : LineFetch.Result :=
  x.stages.lineFetch.evaluate (x.cycles + 1) x.registers.eToF1.output x.registers.f2ToF1.output
    x.sliced.stage.input.hasRoom

/-- What the stages write in the next cycle. -/
def writes (x : Machine) : Writes :=
  { f1ToF2 := x.fetched.line, f2ToD := x.sliced.bundle, dToE := x.decoded.bundle
    eToF1 := x.executed.redirect, f2ToF1 := x.sliced.prediction }

/-- Some stage works in the next cycle. -/
def busy (x : Machine) : Bool :=
  x.executed.busy || x.decoded.busy || x.sliced.busy || x.fetched.busy

/-- The machine after the next cycle. -/
def next (x : Machine) : Machine :=
  { stages := ⟨x.fetched.stage, x.sliced.stage, x.decoded.stage, x.executed.stage⟩
    registers := (x.registers.write x.writes).advance
    cycles := x.cycles + 1
    history := { x.history with
      retired := x.history.retired ++ x.executed.retired
      overtaken := x.history.overtaken ++
        overtakenBy x.registers.eToF1.output x.registers.f2ToF1.output } }

/-- The machine after `k` cycles. -/
def after (x : Machine) (k : Nat) : Machine := next^[k] x

theorem after_succ (x : Machine) (k : Nat) : x.after (k + 1) = (x.after k).next :=
  Function.iterate_succ_apply' next k x

theorem cycles_after (x : Machine) (k : Nat) : (x.after k).cycles = x.cycles + k := by
  induction k with
  | zero => rfl
  | succ k ih =>
    rw [after_succ]
    exact congrArg (· + 1) ih

/-- A cycle of a machine that comes later is a cycle of it later on. -/
theorem after_after (x : Machine) (j k : Nat) : (x.after j).after k = x.after (j + k) := by
  rw [after, after, after, Nat.add_comm, Function.iterate_add_apply]

/-- What every cycle keeps holds after any number of them. -/
theorem after_induction {P : Machine → Prop} (hnext : ∀ x, P x → P x.next) {x : Machine} (h : P x)
    (k : Nat) : P (x.after k) := by
  induction k with
  | zero => exact h
  | succ k ih =>
    rw [after_succ]
    exact hnext _ ih

/-! ## Lanes -/

/-- What the machine holds of thread `t`. -/
def lane (x : Machine) (t : UInt32) : Lane := laneOf x.stages x.registers x.history t

/-- What holds of a machine without faults between cycles, when no number has more than `b` before
it. -/
structure Sound (c : Config) (m : Image) (b : Nat) (x : Machine) : Prop where
  stages : x.stages.Sound c m b
  registers : x.registers.Sound c.host.threads.toNat

variable {c : Config} {m : Image} {b : Nat} {x : Machine} {t : UInt32}

theorem Sound.polled (h : x.Sound c m b) : x.polled.Sound c.host.threads.toNat b :=
  ⟨h.stages.execute.indexed, h.stages.execute.length, h.stages.execute.units,
    h.stages.execute.bound⟩

/-- What stands at the output of the redirects was sent by execute, unless it is a bubble. -/
theorem Sound.sent (h : x.Sound c m b) (hlive : Payload.isBubble x.registers.eToF1.output = false) :
    x.registers.eToF1.output.Sent c.host.threads.toNat :=
  h.registers.sent _ (Register.output_mem_held hlive)

theorem Sound.next (h : x.Sound c m b) : x.next.Sound c m (b + 1) := by
  obtain ⟨hstages, hwrites⟩ := Stages.Sound.evaluate (s := { x.stages with execute := x.polled })
    { h.stages with execute := h.polled } (x.cycles + 1) (o := x.registers.outputs) h.sent
  exact ⟨hstages, h.registers.cycle hwrites⟩

theorem Sound.after (h : x.Sound c m b) (k : Nat) : (x.after k).Sound c m (b + k) := by
  induction k with
  | zero => exact h
  | succ k ih =>
    rw [after_succ]
    exact ih.next

/-- **In a cycle each lane goes through steps.** -/
theorem lane_next (h : x.Sound c m b) (ht : t.toNat < c.host.threads.toNat) {fresh : UInt64 → Prop}
    (hfresh : ∀ y, ordinal y ≤ b → fresh (y + 1)) :
    Lane.Steps (c.track m fresh t) (x.lane t) (x.next.lane t) :=
  laneOf_evaluate (s := { x.stages with execute := x.polled })
    { h.stages with execute := h.polled } h.registers ht hfresh (x.cycles + 1) x.history

/-- **No number of a lane is given out twice**, as long as there are more than the machine can have
given out. -/
theorem numbered_after (h : x.Sound c m b) (ht : t.toNat < c.host.threads.toNat)
    (hn : (x.lane t).Numbered) {k : Nat} (hk : b + k < UInt64.size) :
    ((x.after k).lane t).Numbered := by
  induction k with
  | zero => exact hn
  | succ k ih =>
    have hfresh : ∀ y, ordinal y ≤ b + k → y + 1 ≠ firstSeq :=
      fun y hy => add_one_ne_firstSeq hy hk
    rw [after_succ]
    exact (ih (by omega)).steps (fun _ hx => hx) (lane_next (h.after k) ht hfresh)

/-- What was issued so far: what has retired, and what is in a unit. -/
def ran (x : Machine) : List Retired :=
  x.history.retired ++ x.stages.execute.units.map InFlight.retired

theorem issued_lane (x : Machine) (t : UInt32) : (x.lane t).issued = trail t x.ran := rfl

/-- In a cycle what is done retires, the rest stays in its unit, and what is issued comes behind. -/
theorem ran_next {started : List InFlight}
    (h : x.executed.stage.units = x.stages.execute.kept (x.cycles + 1) ++ started) :
    x.next.ran = x.ran ++ started.map InFlight.retired := by
  have hretired : x.executed.retired = (x.stages.execute.units.takeWhile
      (Execute.isDone (x.cycles + 1))).map InFlight.retired :=
    (x.polled.evaluate_retired (x.cycles + 1) x.registers.dToE.output).1
  show x.history.retired ++ x.executed.retired ++ x.executed.stage.units.map _ = _
  rw [hretired, h, Execute.kept, List.map_append, List.append_assoc,
    ← List.append_assoc (List.map _ _), ← List.map_append, List.takeWhile_append_dropWhile,
    ← List.append_assoc]
  rfl

/-- If nothing is issued, nothing is lost either. -/
theorem ran_next_of_kept (h : x.executed.stage.units = x.stages.execute.kept (x.cycles + 1)) :
    x.next.ran = x.ran := by
  have hnone : x.executed.stage.units = x.stages.execute.kept (x.cycles + 1) ++ [] := by
    rw [h, List.append_nil]
  rw [ran_next hnone, List.map_nil, List.append_nil]

/-- The thread of a lane, as the line fetch has it. -/
theorem Sound.thread? (h : x.Sound c m b) (ht : t.toNat < c.host.threads.toNat) :
    x.stages.lineFetch.thread? t = some (x.lane t).fetch := by
  have hth := List.getElem?_eq_getElem (h.stages.lineFetch.length.symm ▸ ht)
  rw [lane, laneOf, show x.stages.lineFetch.thread? t = _ from hth]
  rfl

/-- The thread of a lane, as execute has it. -/
theorem Sound.exec? (h : x.Sound c m b) (ht : t.toNat < c.host.threads.toNat) :
    x.stages.execute.threads[t.toNat]? = some (x.lane t).exec := by
  have hth := List.getElem?_eq_getElem (h.stages.execute.length.symm ▸ ht)
  rw [lane, laneOf, hth]
  rfl

/-- The numbers that are expected of a lane, as the slicer has them. -/
theorem Sound.expected? (h : x.Sound c m b) (ht : t.toNat < c.host.threads.toNat) :
    x.stages.slicer.expected[t.toNat]? = some (x.lane t).expected := by
  have hth := List.getElem?_eq_getElem (h.stages.slicer.length.symm ▸ ht)
  rw [lane, laneOf, hth]
  rfl

/-! ## Registers in the course of time -/

theorem registers_succ (x : Machine) (k : Nat) :
    (x.after (k + 1)).registers = ((x.after k).registers.write (x.after k).writes).advance := by
  rw [after_succ]
  rfl

theorem runs_f1ToF2 (x : Machine) :
    Register.Runs (fun k => (x.after k).registers.f1ToF2) fun k => (x.after k).fetched.line :=
  fun k => congrArg Registers.f1ToF2 (x.registers_succ k)

theorem runs_f2ToD (x : Machine) :
    Register.Runs (fun k => (x.after k).registers.f2ToD) fun k => (x.after k).sliced.bundle :=
  fun k => congrArg Registers.f2ToD (x.registers_succ k)

theorem runs_dToE (x : Machine) :
    Register.Runs (fun k => (x.after k).registers.dToE) fun k => (x.after k).decoded.bundle :=
  fun k => congrArg Registers.dToE (x.registers_succ k)

theorem runs_eToF1 (x : Machine) :
    Register.Runs (fun k => (x.after k).registers.eToF1) fun k => (x.after k).executed.redirect :=
  fun k => congrArg Registers.eToF1 (x.registers_succ k)

theorem runs_f2ToF1 (x : Machine) :
    Register.Runs (fun k => (x.after k).registers.f2ToF1) fun k => (x.after k).sliced.prediction :=
  fun k => congrArg Registers.f2ToF1 (x.registers_succ k)

end Machine

/-! ## The machine of a session -/

/-- What works in a pipeline. -/
def Pipeline.machine (p : Pipeline Stages) (h : History) : Machine :=
  ⟨p.stages, p.registers, p.stats.cycles, h⟩

namespace Session

/-- What works in the pipeline of a session. -/
def machine (s : Session) : Machine := s.pipeline.machine s.history

variable {c : Config} {m : Image} {s : Session}

theorem Sound.machine (h : s.Sound c m) : s.machine.Sound c m s.pipeline.stats.cycles :=
  ⟨h.pipeline.stages, h.pipeline.registers⟩

/-- **A step of a session that runs is a cycle of its machine.** -/
theorem machine_step (h : s.Sound c m) (hruns : s.pipeline.running = true) :
    s.step.machine = s.machine.next := by
  obtain ⟨hp, hh⟩ := pipeline_step hruns
  obtain ⟨hholds, hretired⟩ := Pipeline.evaluate_holds h.pipeline.waiting h.pipeline.unitMode
    (s.simulator.tick + s.simulator.period)
  rw [Session.machine, Pipeline.machine, hp, hh, hholds.stages, hholds.registers, hholds.cycles,
    hretired]
  rfl

theorem Sound.iterate (h : s.Sound c m) (n : Nat) : (Session.step^[n] s).Sound c m := by
  induction n with
  | zero => exact h
  | succ n ih =>
    rw [Function.iterate_succ_apply']
    exact ih.step

/-- As long as a session runs, its machine goes on by a cycle in each step. -/
theorem machine_iterate (h : s.Sound c m) {n : Nat}
    (hruns : ∀ k < n, (step^[k] s).pipeline.running = true) :
    (step^[n] s).machine = s.machine.after n := by
  induction n with
  | zero => rfl
  | succ n ih =>
    rw [Function.iterate_succ_apply', machine_step (h.iterate n) (hruns n (Nat.lt_succ_self n)),
      ih fun k hk => hruns k (Nat.lt_succ_of_lt hk), Machine.after_succ]

/-- Once a session has stopped its machine stays as it is. -/
theorem machine_iterate_of_stopped (h : s.pipeline.running = false) (n : Nat) :
    (step^[n] s).machine = s.machine := by
  have hsame : (step^[n] s).pipeline = s.pipeline ∧ (step^[n] s).history = s.history := by
    induction n with
    | zero => exact ⟨rfl, rfl⟩
    | succ n ih =>
      rw [Function.iterate_succ_apply']
      obtain ⟨hpipeline, hhistory⟩ := ih
      obtain ⟨hpipeline', hhistory'⟩ := pipeline_step_of_stopped (hpipeline ▸ h)
      exact ⟨hpipeline'.trans hpipeline, hhistory'.trans hhistory⟩
  rw [machine, machine, hsame.1, hsame.2]

end Session

end InOrder
