import InOrder.Edge
import InOrder.Error

/-!
# Configurations

A configuration has three sections: the host, the shape of the pipeline, and the faults to inject.
Every field has a default, so `({} : Config)` is the configuration that a file overrides. The
integers are machine words of the range that the format admits.

`Config.check` gives the first bound that is broken: host, then pipeline with the delays in the
order of `Edge.all`, then faults.
-/

namespace InOrder

/-- The host: clock and threads. -/
structure HostConfig where
  /-- Ticks in a clock cycle. -/
  clockPeriod : UInt64 := 1
  /-- Hardware threads. -/
  threads : UInt32 := 1
  /-- Where a run ends that is given no limit. -/
  maxTicks : UInt64 := 1000000
deriving DecidableEq

/-- The shape of the pipeline. -/
structure PipelineConfig where
  /-- Cycles from the input to the output of each register. -/
  delays : PerEdge UInt32 := .all 1
  /-- Micro-ops in a bundle. -/
  width : UInt32 := 2
  /-- The pipeline suspends itself when no stage has work. -/
  idling : Bool := false
  /-- Lines that the slicer queues. -/
  lineQueue : UInt64 := 2
  /-- Bundles that decode queues. -/
  decodeQueue : UInt64 := 2
  /-- Bundles that execute queues. -/
  executeQueue : UInt64 := 2
  /-- Bytes in a line. -/
  lineBytes : UInt32 := 16
  /-- Cycles from the request of a line to its arrival. -/
  fetchLatency : UInt64 := 1
  /-- Cycles in a functional unit. -/
  executeLatency : UInt64 := 1
  /-- Functional units. -/
  units : UInt64 := 2
  /-- The slicer predicts jumps and redirects the line fetch early. -/
  predictJumps : Bool := false
deriving DecidableEq

/-- How often the functional units are corrupted. -/
inductive UnitMode where
  /-- Until it has succeeded once. -/
  | oneShot
  /-- In every cycle. -/
  | repeating
deriving DecidableEq, Repr

/-- The faults to inject. -/
structure FaultConfig where
  /-- Selector of the register to corrupt; empty for none. -/
  register : String := ""
  /-- Tick of the flip. -/
  tick : UInt64 := 0
  /-- Bit of the register's image. -/
  bit : UInt64 := 0
  /-- Corrupt the functional units. -/
  unit : Bool := false
  unitMode : UnitMode := .oneShot
  /-- Bit of the instruction in the functional unit. -/
  unitBit : UInt64 := 0
deriving DecidableEq

/-- All settings. -/
structure Config where
  host : HostConfig := {}
  pipeline : PipelineConfig := {}
  faults : FaultConfig := {}
deriving DecidableEq

/-- Pass if `ok`, else the parameter breaks its bound. -/
def requireBound (ok : Bool) (name : String) (bound : Bound) (value : Nat) :
    Except SetupError Unit :=
  if ok then .ok () else .error (.badParameter name bound value)

/-- A parameter that has to be positive. -/
def requirePositive (name : String) (value : Nat) : Except SetupError Unit :=
  requireBound (1 ≤ value) name .atLeastOne value

/-- The first bound of the host that is broken. -/
def HostConfig.check (c : HostConfig) : Except SetupError Unit := do
  requirePositive "clockPeriod" c.clockPeriod.toNat
  requirePositive "numThreads" c.threads.toNat

namespace PipelineConfig

/-- The delay of an edge has to be positive. -/
def checkDelay (c : PipelineConfig) (e : Edge) : Except SetupError Unit :=
  requirePositive e.delayParameter (c.delays.get e).toNat

/-- The first bound of the pipeline that is broken. -/
def check (c : PipelineConfig) : Except SetupError Unit := do
  c.checkDelay .f1ToF2
  c.checkDelay .f2ToD
  c.checkDelay .dToE
  c.checkDelay .eToF1
  c.checkDelay .f2ToF1
  requirePositive "decodeInputWidth" c.width.toNat
  requireBound (c.width.toNat ≤ 255) "decodeInputWidth" .atMostByte c.width.toNat
  requirePositive "fetch2InputBufferSize" c.lineQueue.toNat
  requirePositive "decodeInputBufferSize" c.decodeQueue.toNat
  requirePositive "executeInputBufferSize" c.executeQueue.toNat
  requirePositive "numFunctionalUnits" c.units.toNat
  requireBound (4 ≤ c.lineBytes.toNat && c.lineBytes.toNat % 4 == 0) "fetch1LineWidth"
    .multipleOfWord c.lineBytes.toNat

/-- The longest delay of the edges that lead forward, the redirects of execute among them. -/
def longestForwardDelay (c : PipelineConfig) : Nat :=
  max (max (max c.delays.f1ToF2.toNat c.delays.f2ToD.toNat) c.delays.dToE.toNat)
    c.delays.eToF1.toNat

end PipelineConfig

namespace FaultConfig

/-- The register to corrupt, if one is named. -/
def target (c : FaultConfig) : Except SetupError (Option Edge) :=
  if c.register = "" then .ok none
  else match Edge.ofSelector? c.register with
    | some e => .ok (some e)
    | none => .error (.unknownRegister c.register)

/-- The first bound of the faults that is broken. -/
def check (c : FaultConfig) : Except SetupError Unit := do
  let _ ← c.target
  requireBound (c.unitBit.toNat < 32) "fuInjectLoc" .belowWordBits c.unitBit.toNat

end FaultConfig

/-- The first bound that is broken. -/
def Config.check (c : Config) : Except SetupError Unit := do
  c.host.check
  c.pipeline.check
  c.faults.check

end InOrder
