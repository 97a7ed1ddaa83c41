import InOrder.Host

/-!
# The simulator

A simulator is a host whose clock advances by a fixed period. `step` advances it once and evaluates
the pipeline if that runs; `run` steps until the pipeline stops or the clock reaches a limit. Both
hand what happens to the caller, so that a long run does not have to be kept.

The period is positive by type, so `run` ends: each step brings the clock closer to the limit.

The clock, and the cycles in which lines arrive and micro-ops retire, are natural numbers here. A
host has words of 64 bits for them, and if it checks what it adds, a step in which a sum does not
fit does not return. `step?` is the step of such a host, and `advance?` steps as long as it returns.
Addresses and the numbers of streams are words also here, and come round.
-/

namespace InOrder

/-- A host with a clock of a fixed, positive period. -/
structure Simulator (σ : Type) where
  host : Host σ
  /-- Ticks in a clock cycle. -/
  period : Nat
  period_pos : 0 < period

namespace Simulator

variable {σ : Type}

/-- Ticks simulated so far. -/
def tick (s : Simulator σ) : Nat := s.host.tick

/-- The pipeline. -/
def pipeline (s : Simulator σ) : Pipeline σ := s.host.pipeline

/-- Apply a change of the host that has an answer. -/
def lift {β : Type} (s : Simulator σ) (r : Host σ × β) : Simulator σ × β :=
  ({ s with host := r.1 }, r.2)

variable [StageSet σ]

/-- A simulator at tick zero with a stopped pipeline, if the configuration keeps every bound. -/
def new (c : Config) (stages : σ) : Except SetupError (Simulator σ × List Event) := do
  let (pipeline, events) ← Pipeline.new c stages
  if h : 0 < c.host.clockPeriod.toNat then
    return (⟨.ofPipeline c pipeline, c.host.clockPeriod.toNat, h⟩, events)
  else .error (.badParameter "clockPeriod" .atLeastOne 0)

/-- A simulator of the stages of this library. They are built first, and none is where there cannot
be room for a queue of theirs, whatever else the configuration says. -/
def build? (sizes : EntrySizes) (c : Config) (image : Image) :
    Option (Except SetupError (Simulator Stages × List Event)) :=
  (Stages.build? sizes Pipeline.owner c image).map (new c)

/-- What a step gives. -/
structure Step (σ : Type) where
  simulator : Simulator σ
  /-- What retired, in order. -/
  retired : List Retired
  events : List Event

/-- The clock advances; the pipeline is evaluated if it runs. -/
def step (s : Simulator σ) : Step σ :=
  let now := s.tick + s.period
  if s.pipeline.running then
    let r := s.host.evaluateAt now
    let signal := if r.drainDone then [.drainSignalled now] else []
    { simulator := { s with host := r.host }, retired := r.retired, events := r.events ++ signal }
  else { simulator := { s with host := { s.host with tick := now } }, retired := [], events := [] }

theorem tick_step (s : Simulator σ) : s.step.simulator.tick = s.tick + s.period := by
  unfold step
  split <;> rfl

/-- What is told at the end of a run. -/
def stopEvent (s : Simulator σ) : Event :=
  .runStopped s.tick s.pipeline.stats.cycles s.pipeline.retired

/-- Step until the clock reaches `limit` or the pipeline stops. Each step is shown to `see`. -/
def advance {α : Type} (see : α → Step σ → α) (limit : Nat) (s : Simulator σ) (a : α) :
    Simulator σ × α :=
  if s.tick < limit ∧ s.pipeline.running = true then
    let r := s.step
    advance see limit r.simulator (see a r)
  else (s, a)
termination_by limit - s.tick
decreasing_by
  have hp := s.period_pos
  have ht := s.tick_step
  omega

/-- Step until the clock reaches `limit` or the pipeline stops. -/
def run (s : Simulator σ) (limit : Nat) : Simulator σ :=
  (advance (fun _ _ => ()) limit s ()).1

/-! ### Checked sums -/

/-- The clock fits in a word, and so do the cycles in which something is due. -/
def inRange (s : Simulator σ) : Bool :=
  s.tick < UInt64.size && StageSet.inRange s.pipeline.stages

/-- A step, if its sums fit. -/
def step? (s : Simulator σ) : Option (Step σ) :=
  let r := s.step
  if r.simulator.inRange then some r else none

theorem step?_eq_some_iff {s : Simulator σ} {r : Step σ} :
    s.step? = some r ↔ s.step = r ∧ r.simulator.inRange = true := by
  unfold step?
  simp only [Option.ite_none_right_eq_some, Option.some.injEq]
  constructor
  · rintro ⟨hrange, rfl⟩
    exact ⟨rfl, hrange⟩
  · rintro ⟨rfl, hrange⟩
    exact ⟨hrange, rfl⟩

/-- Step until the clock reaches `limit` or the pipeline stops, if the sums fit. Each step is shown
to `see`. -/
def advance? {α : Type} (see : α → Step σ → α) (limit : Nat) (s : Simulator σ) (a : α) :
    Option (Simulator σ × α) :=
  if s.tick < limit ∧ s.pipeline.running = true then
    match _ : s.step? with
    | some r => advance? see limit r.simulator (see a r)
    | none => none
  else some (s, a)
termination_by limit - s.tick
decreasing_by
  have hp := s.period_pos
  have ht := s.tick_step
  rw [(step?_eq_some_iff.mp ‹_›).1] at ht
  omega

/-! ### Calls -/

/-- Let a thread fetch. -/
def wake (s : Simulator σ) (thread : UInt32) : Simulator σ × List Event :=
  s.lift (s.host.wake thread)

/-- Let all threads fetch. -/
def wakeAll (s : Simulator σ) : Simulator σ × List Event := s.lift s.host.wakeAll

/-- Ask the pipeline to empty itself. The answer says whether it is empty already. -/
def drain (s : Simulator σ) : Simulator σ × Bool × List Event := s.lift s.host.drain

/-- Leave a drain, and let all threads fetch. -/
def resume (s : Simulator σ) : Simulator σ × List Event := s.lift s.host.resume

end Simulator

/-- The summary of a run. -/
structure Report where
  simTicks : Nat
  /-- Instructions retired. -/
  retired : Nat
  signature : UInt64
  /-- Flips in registers that took effect. -/
  flips : List FlipRecord
  /-- A bit was flipped in a functional unit. -/
  unitFlipped : Bool
  stats : List StatEntry

/-- The summary of the run so far. -/
def Simulator.report {σ : Type} [StageSet σ] (s : Simulator σ) : Report :=
  { simTicks := s.tick
    retired := s.pipeline.retired
    signature := s.pipeline.signature
    flips := s.pipeline.faults.applied
    unitFlipped := s.pipeline.unitFlipped
    stats := s.pipeline.stats.entries s.tick }

end InOrder
