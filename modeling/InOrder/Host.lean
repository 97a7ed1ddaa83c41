import InOrder.Pipeline.Cycle

/-!
# The host of a pipeline

The host has the clock. It evaluates its pipeline at a tick, takes the signals of complete drains,
and counts how often it was asked for a fault in the register file, which it does not model.
-/

namespace InOrder

/-- A clock with a pipeline. -/
structure Host (σ : Type) where
  tick : Nat
  /-- Hardware threads. -/
  threads : Nat
  /-- Complete drains of which the host was told. -/
  signals : Nat
  /-- Times the register file was asked for a fault. -/
  polls : Nat
  pipeline : Pipeline σ
deriving DecidableEq

namespace Host

variable {σ : Type}

/-- The host at tick zero. -/
def ofPipeline (c : Config) (pipeline : Pipeline σ) : Host σ :=
  { tick := 0, threads := c.host.threads.toNat, signals := 0, polls := 0, pipeline }

/-- Apply a change of the pipeline that has events. -/
def lift (h : Host σ) (r : Pipeline σ × List Event) : Host σ × List Event :=
  ({ h with pipeline := r.1 }, r.2)

variable [StageSet σ]

/-- What an evaluation of the host gives. -/
structure Step (σ : Type) where
  host : Host σ
  /-- A drain is complete, and the host was told. -/
  drainDone : Bool
  /-- What retired, in order. -/
  retired : List Retired
  events : List Event

/-- Set the clock and evaluate, whether the pipeline runs or not. -/
def evaluateAt (h : Host σ) (tick : Nat) : Step σ :=
  let c := h.pipeline.evaluate tick
  { host :=
      { h with
        tick
        signals := if c.drainDone then h.signals + 1 else h.signals
        polls := h.polls + 1
        pipeline := c.pipeline }
    drainDone := c.drainDone
    retired := c.retired
    events := c.events }

/-- Let a thread fetch. -/
def wake (h : Host σ) (thread : UInt32) : Host σ × List Event :=
  h.lift (h.pipeline.wakeFetch thread)

/-- Let all threads fetch. -/
def wakeAll (h : Host σ) : Host σ × List Event :=
  h.lift (h.pipeline.wakeAll (Pipeline.threadNumbers h.threads))

/-- Ask the pipeline to empty itself. The answer says whether it is empty already. -/
def drain (h : Host σ) : Host σ × Bool × List Event :=
  let (pipeline, done, events) := h.pipeline.drain
  ({ h with pipeline }, done, events)

/-- Leave a drain, and let all threads fetch. -/
def resume (h : Host σ) : Host σ × List Event := h.lift (h.pipeline.resume h.threads)

end Host

end InOrder
