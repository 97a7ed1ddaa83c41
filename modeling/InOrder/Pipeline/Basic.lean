import InOrder.Activity
import InOrder.Stage.Set
import InOrder.Stats

/-!
# The pipeline

A pipeline owns its stages, the registers between them, the activity recorder and the faults that
wait. This module holds its state, how it is built, and its lifecycle: `wakeFetch`, `start` and
`stop` say whether the host should go on evaluating it, `drain` asks it to empty itself, and
`resume` leaves a drain. One cycle is in the module after this one.

A drain of a pipeline that `isDrained` is complete at once; any other drain owes its host one
signal, and `signalDue` is set until that is given or the pipeline resumes.
-/

namespace InOrder

/-- How far a drain has come. -/
inductive DrainState where
  /-- There is none. -/
  | running
  /-- The pipeline empties itself. -/
  | draining
  /-- The pipeline is empty and has stopped. -/
  | drained
  /-- The pipeline was resumed and has not been evaluated since. -/
  | resuming
deriving DecidableEq, Repr

/-- The name of a state. -/
def DrainState.name : DrainState → String
  | running => "Running"
  | draining => "Draining"
  | drained => "Drained"
  | resuming => "Resuming"

/-- A pipeline over a set of stages. -/
structure Pipeline (σ : Type) where
  stages : σ
  registers : Registers
  activity : Activity
  faults : FaultLog
  /-- The pipeline stops itself when nothing is active. -/
  allowIdling : Bool
  /-- The host is owed the signal of a complete drain. -/
  signalDue : Bool
  drainState : DrainState
  /-- The host should go on evaluating. -/
  running : Bool
  /-- How the functional units are corrupted, if they are. -/
  unitMode : Option UnitMode
  /-- A bit was flipped in a functional unit. -/
  unitFlipped : Bool
  stats : Stats
  /-- Tick of the last evaluation. -/
  lastSnapshot : Nat
deriving DecidableEq

namespace Pipeline

/-- The name of the owner of all components. -/
def owner : String := "cpu"

variable {σ : Type}

/-- Schedule the configured flip in a register. -/
def scheduleFault (rs : Registers) (c : FaultConfig) :
    Except SetupError (Registers × FaultLog × List Event) := do
  match ← c.target with
  | none => return (rs, {}, [])
  | some e =>
    match rs.schedule e c.tick.toNat c.bit.toNat 0 with
    | (rs, true, events) =>
      return (rs, FaultLog.register {} e,
        events ++ [.flipScheduled (rs.nameOf e) c.tick.toNat c.bit.toNat])
    | (rs, false, events) => return (rs, {}, events)

variable [StageSet σ]

/-- A stopped pipeline with empty registers, if the configuration keeps every bound. -/
def new (c : Config) (stages : σ) : Except SetupError (Pipeline σ × List Event) := do
  c.check
  let registers ← Registers.new owner c.pipeline
  let listing := match StageSet.units? stages with
    | some lines => [Event.units lines]
    | none => []
  let (registers, faults, scheduled) ← scheduleFault registers c.faults
  return (
    { stages, registers, faults
      activity := .new (owner ++ ".activity") c.pipeline.longestForwardDelay
      allowIdling := c.pipeline.idling
      signalDue := false
      drainState := .running
      running := false
      unitMode := if c.faults.unit then some c.faults.unitMode else none
      unitFlipped := false
      stats := {}
      lastSnapshot := 0 },
    listing ++ [.bundleWidth c.pipeline.width.toNat] ++ scheduled)

/-! ### Emptiness -/

/-- The stages that hold something, by name. -/
def busyStages (p : Pipeline σ) : List String :=
  let drained := StageSet.drained p.stages
  ([("Fetch1", drained.fetch1), ("Fetch2", drained.fetch2), ("Decode", drained.decode),
    ("Execute", drained.execute)].filter fun s => !s.2).map (·.1)

/-- The edges whose registers hold something. -/
def busyEdges (p : Pipeline σ) : List Edge := Edge.all.filter fun e => !p.registers.isEmpty e

/-- No stage and no register holds anything. -/
def isDrained (p : Pipeline σ) : Bool :=
  (StageSet.drained p.stages).toList.all id && Edge.all.all p.registers.isEmpty

/-- What is told when the pipeline is looked at for a drain: nothing if it is empty. -/
def undrainedEvents (p : Pipeline σ) : List Event :=
  if p.isDrained then [] else [.undrained (p.busyStages ++ p.busyEdges.map Edge.selector)]

/-! ### Lifecycle -/

omit [StageSet σ] in
/-- Go on evaluating. -/
def start (p : Pipeline σ) : Pipeline σ := { p with running := true }

omit [StageSet σ] in
/-- Stop evaluating until the next start. -/
def stop (p : Pipeline σ) : Pipeline σ := { p with running := false }

/-- Let a thread fetch, and start. -/
def wakeFetch (p : Pipeline σ) (thread : UInt32) : Pipeline σ × List Event :=
  let (stages, events) := StageSet.wake p.stages thread
  ({ p with stages, activity := p.activity.mark .fetch1 }.start, events)

/-- Let several threads fetch. -/
def wakeAll (p : Pipeline σ) : List UInt32 → Pipeline σ × List Event
  | [] => (p, [])
  | t :: ts =>
    let (p, events) := p.wakeFetch t
    let (p, more) := p.wakeAll ts
    (p, events ++ more)

/-- Ask the pipeline to empty itself. The answer says whether it is empty already; then it stops,
and no signal follows. -/
def drain (p : Pipeline σ) : Pipeline σ × Bool × List Event :=
  let p := { p with stages := StageSet.drain p.stages }
  let events := .drainAsked :: p.undrainedEvents
  if p.isDrained then
    ({ p with signalDue := false, drainState := .drained }.stop, true, events)
  else ({ p with signalDue := true, drainState := .draining }.start, false, events)

/-- The numbers of the first `count` threads. -/
def threadNumbers (count : Nat) : List UInt32 := (List.range count).map UInt32.ofNat

/-- Leave a drain, complete or not, and let the first `threads` threads fetch. -/
def resume (p : Pipeline σ) (threads : Nat) : Pipeline σ × List Event :=
  let (p, events) := p.wakeAll (threadNumbers threads)
  ({ p with
      stages := StageSet.resume p.stages, signalDue := false, drainState := .resuming },
    .resumed :: events)

/-! ### Views -/

/-- The port to instruction memory. -/
def instPort (p : Pipeline σ) : Port × Pipeline σ :=
  let (port, stages) := StageSet.instPort p.stages
  (port, { p with stages })

/-- The port to data memory. -/
def dataPort (p : Pipeline σ) : Port × Pipeline σ :=
  let (port, stages) := StageSet.dataPort p.stages
  (port, { p with stages })

/-- Instructions retired so far. -/
def retired (p : Pipeline σ) : Nat := StageSet.retired p.stages

/-- The signature of the instructions retired so far. -/
def signature (p : Pipeline σ) : UInt64 := StageSet.signature p.stages

/-- All components in a trace, a line each, in the order of the data flow. -/
def trace (p : Pipeline σ) : List String :=
  let stages := StageSet.traces p.stages
  [stages.fetch1, p.registers.trace .f1ToF2, p.registers.trace .f2ToF1, stages.fetch2,
    p.registers.trace .f2ToD, stages.decode, p.registers.trace .dToE, stages.execute,
    p.registers.trace .eToF1, p.activity.trace]

/-- The pipeline in a listing. -/
def describe (p : Pipeline σ) : String :=
  let names := StageSet.names p.stages
  let stage (field name : String) : String := s!"{field}: " ++ Text.quoted name
  let stages := ", ".intercalate [stage "fetch1" names.fetch1, stage "fetch2" names.fetch2,
    stage "decode" names.decode, stage "execute" names.execute]
  s!"Pipeline \x7b stages: StageSet \x7b {stages} \x7d, running: {p.running}, " ++
    s!"drain_state: {p.drainState.name}, stats: {p.stats.describe}, .. \x7d"

end Pipeline

end InOrder
