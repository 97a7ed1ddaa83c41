import InOrder.Pipeline.Basic

/-!
# One cycle of a pipeline

`Pipeline.evaluate` does one cycle in five parts. The outputs of the registers are observed; flips
that are due are applied; the stages read the outputs and write the inputs; the registers move on;
and the cycle is accounted for, which may end in the pipeline stopping itself, for want of work or
because a drain is complete. What is counted as a bubble is what was observed, before any flip.
-/

namespace InOrder

/-- What a cycle gives. -/
structure Pipeline.Cycle (σ : Type) where
  pipeline : Pipeline σ
  /-- A drain is complete, and the host has to be told. -/
  drainDone : Bool
  /-- What retired, in order. -/
  retired : List Retired
  events : List Event

namespace Pipeline

variable {σ : Type} [StageSet σ]

/-- Whether the functional units are to be corrupted in this cycle. -/
def unitFaultDue (p : Pipeline σ) : Bool :=
  match p.unitMode with
  | none => false
  | some .oneShot => !p.unitFlipped
  | some .repeating => true

/-- Corrupt the functional units if that is due. -/
def injectUnits (p : Pipeline σ) : Pipeline σ × List Event :=
  if p.unitFaultDue then
    let (stages, done, events) := StageSet.flipUnit p.stages
    ({ p with stages, unitFlipped := p.unitFlipped || done }, events)
  else (p, [])

/-- Apply the faults of this cycle: in the registers, the load and store queue, and the units. -/
def inject (p : Pipeline σ) (now : Nat) : Pipeline σ × List Event :=
  let (faults, registers, flips) := p.faults.evaluate now p.registers
  let (stages, polls) := StageSet.pollQueue p.stages now
  let (p, units) := { p with faults, registers, stages }.injectUnits
  (p, flips ++ polls ++ units)

/-- Let the stages work, and write what they wrote. -/
def runStages (p : Pipeline σ) : Pipeline σ × StageSet.Result σ :=
  let r := StageSet.evaluate p.stages p.stats.cycles p.registers.outputs
  ({ p with
      stages := r.stages
      registers := p.registers.write r.writes
      activity := p.activity.noteIf r.busy }, r)

omit [StageSet σ] in
/-- Count the bubbles observed since the last cycle. -/
def account (p : Pipeline σ) (now : Nat) (observed : Snapshot) : Pipeline σ :=
  let stats := p.stats.addBubbles observed.bubble (now - p.lastSnapshot)
  { p with
    stats := { stats with snapshots := stats.snapshots + 1 }
    lastSnapshot := now
    activity := p.activity.advance }

omit [StageSet σ] in
/-- Stop for want of work, if that is allowed. A drain that is not complete keeps the pipeline
going. -/
def idle (p : Pipeline σ) : Pipeline σ × List Event :=
  if p.allowIdling then
    let rest := !p.activity.isActive && !p.signalDue
    let p := { p with running := p.running && !rest, activity := p.activity.unmarkAll }
    (p, if rest then [.idle] else [])
  else (p, [])

/-- Complete a drain if the pipeline is empty. The answer says whether the host has to be told. -/
def settle (p : Pipeline σ) : Pipeline σ × Bool × List Event :=
  if p.signalDue then
    if p.isDrained then
      ({ p with signalDue := false, drainState := .drained }.stop, true,
        [.stillDraining, .drainComplete])
    else (p, false, .stillDraining :: p.undrainedEvents)
  else (p, false, [])

omit [StageSet σ] in
/-- Count the cycle, which also ends a resumption. -/
def begin (p : Pipeline σ) : Pipeline σ :=
  { p with
    stats := { p.stats with cycles := p.stats.cycles + 1 }
    drainState := if p.drainState = .resuming then .running else p.drainState }

/-- One cycle, at tick `now`. -/
def evaluate (p : Pipeline σ) (now : Nat) : Cycle σ :=
  let p := p.begin
  let observed := p.registers.snapshot
  let (p, injected) := p.inject now
  let (p, result) := p.runStages
  let components := Thunk.mk fun _ => p.trace
  let p := { p with registers := p.registers.advance }
  let drawn := Event.drawn now observed p.registers.snapshot result.addrs
  let (p, idled) := (p.account now observed).idle
  let (p, drainDone, settled) := p.settle
  { pipeline := p, drainDone
    retired := result.retired
    events := injected ++ result.events ++ [.components components, drawn] ++ idled ++ settled }

end Pipeline

end InOrder
