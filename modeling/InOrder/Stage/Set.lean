import InOrder.Register.Bank
import InOrder.Stage.Decode
import InOrder.Stage.Execute
import InOrder.Stage.Slicer

/-!
# Four stages together

`StageSet` is what a pipeline asks of its four stages as a whole. They never see each other: in a
cycle they read the outputs of the registers, and all that they want written goes back as a value.

`Stages` are the stages of this library. They work from the last to the first, so that each one
knows how much room its consumer has left after the same cycle.
-/

namespace InOrder

/-- What a cycle of the four stages gives. -/
structure StageSet.Result (σ : Type) where
  stages : σ
  /-- What goes to the inputs of the registers. -/
  writes : Writes
  /-- What retired, in order. -/
  retired : List Retired
  /-- The addresses that each stage handled. -/
  addrs : PerStage (List UInt64)
  /-- Some stage did work. -/
  busy : Bool
  events : List Event

/-- Four stages. -/
class StageSet (σ : Type) where
  names : σ → PerStage String
  /-- The stage holds nothing. -/
  drained : σ → PerStage Bool
  traces : σ → PerStage String
  /-- One cycle, of the given number. -/
  evaluate : σ → (cycle : Nat) → Outputs → StageSet.Result σ
  /-- Ask the load and store queue for a fault. -/
  pollQueue : σ → (now : Nat) → σ × List Event
  /-- Flip a bit in a functional unit. The answer says whether there was one. -/
  flipUnit : σ → σ × Bool × List Event
  /-- Let a thread fetch. -/
  wake : σ → (thread : UInt32) → σ × List Event
  /-- Stop issue, and send a halt to every thread. -/
  drain : σ → σ
  /-- Leave the drain. -/
  resume : σ → σ
  /-- The port to instruction memory; reading it may count. -/
  instPort : σ → Port × σ
  /-- The port to data memory; reading it may count. -/
  dataPort : σ → Port × σ
  /-- The functional units, if the stages have any. -/
  units? : σ → Option (List String)
  /-- Instructions retired so far. -/
  retired : σ → Nat
  /-- The signature of the instructions retired so far. -/
  signature : σ → UInt64
  /-- What the stages wait for is due in cycles that have numbers of 64 bits. -/
  inRange : σ → Bool

/-- Bytes that a host needs for an entry of each kind of queue, and for a functional unit in use. -/
structure EntrySizes where
  line : Nat := 64
  bundle : Nat := 32
  unit : Nat := 48
  line_pos : 0 < line := by decide
  bundle_pos : 0 < bundle := by decide
  unit_pos : 0 < unit := by decide

/-- There can be room for the queues and the functional units of the configuration. -/
def PipelineConfig.canHold (c : PipelineConfig) (sizes : EntrySizes) : Bool :=
  Queue.canHold sizes.line c.lineQueue.toNat && Queue.canHold sizes.bundle c.decodeQueue.toNat &&
    Queue.canHold sizes.bundle c.executeQueue.toNat && Queue.canHold sizes.unit c.units.toNat

/-- The stages of this library. -/
structure Stages where
  lineFetch : LineFetch
  slicer : Slicer
  decode : Decode
  execute : Execute
deriving DecidableEq

namespace Stages

/-- Stages with nothing in them. -/
def new (owner : String) (c : Config) (image : Image) : Stages :=
  { lineFetch := .new (owner ++ ".fetch1") c image
    slicer := .new (owner ++ ".fetch2") c
    decode := .new (owner ++ ".decode") c
    execute := .new (owner ++ ".execute") c image.entry }

/-- Stages with nothing in them, with the room for their queues taken at once. None if there cannot
be as much: the host stops then. -/
def build? (sizes : EntrySizes) (owner : String) (c : Config) (image : Image) : Option Stages :=
  if c.pipeline.canHold sizes then some (.new owner c image) else none

/-- What is waited for is due in cycles that have numbers of 64 bits. -/
def inRange (s : Stages) : Bool :=
  s.lineFetch.pending.all (fun p => p.readyAt < UInt64.size) &&
    s.execute.units.all fun f => f.doneAt < UInt64.size

/-- One cycle of all stages, from the last to the first. -/
def evaluate (s : Stages) (cycle : Nat) (o : Outputs) : StageSet.Result Stages :=
  let e := s.execute.evaluate cycle o.dToE
  let d := s.decode.evaluate o.f2ToD e.stage.input.hasRoom
  let f := s.slicer.evaluate o.f1ToF2 o.eToF1 d.stage.input.hasRoom
  let l := s.lineFetch.evaluate cycle o.eToF1 o.f2ToF1 f.stage.input.hasRoom
  { stages := ⟨l.stage, f.stage, d.stage, e.stage⟩
    writes :=
      { f1ToF2 := l.line, f2ToD := f.bundle, dToE := d.bundle, eToF1 := e.redirect,
        f2ToF1 := f.prediction }
    retired := e.retired
    addrs := ⟨l.addrs, f.addrs, d.addrs, e.addrs⟩
    busy := e.busy || d.busy || f.busy || l.busy
    events := e.events ++ l.events }

instance : StageSet Stages where
  names s := ⟨s.lineFetch.name, s.slicer.name, s.decode.name, s.execute.name⟩
  drained s :=
    ⟨s.lineFetch.isDrained, s.slicer.isDrained, s.decode.isDrained, s.execute.isDrained⟩
  traces s := ⟨s.lineFetch.trace, s.slicer.trace, s.decode.trace, s.execute.trace⟩
  evaluate := evaluate
  pollQueue s now :=
    let (queue, events) := s.execute.queue.poll now
    ({ s with execute := { s.execute with queue } }, events)
  flipUnit s :=
    let (execute, done, events) := s.execute.flipUnit
    ({ s with execute }, done, events)
  wake s t :=
    let (lineFetch, events) := s.lineFetch.wake t
    ({ s with lineFetch }, events)
  drain s := { s with execute := s.execute.drain }
  resume s := { s with execute := s.execute.resume }
  instPort s := (s.lineFetch.port, s)
  dataPort s := (s.execute.port, s)
  units? s := some s.execute.listing
  retired s := s.execute.retired
  signature s := s.execute.signature
  inRange := inRange

end Stages

end InOrder
