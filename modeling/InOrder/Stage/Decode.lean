import InOrder.Config.Basic
import InOrder.Payload.Bundle
import InOrder.Queue

/-!
# Decode

The third stage queues bundles and passes one on in each cycle in which execute has room.
-/

namespace InOrder

/-- The stage that passes bundles on. -/
structure Decode where
  name : String
  input : Queue Bundle
deriving DecidableEq

namespace Decode

/-- The stage with an empty queue. -/
def new (name : String) (c : Config) : Decode := ⟨name, .empty c.pipeline.decodeQueue.toNat⟩

/-- What a cycle of the stage gives. -/
structure Result where
  stage : Decode
  /-- The bundle passed on. -/
  bundle : Option Bundle
  /-- The addresses of its micro-ops. -/
  addrs : List UInt64
  busy : Bool

/-- One cycle. Nothing is passed on without `room` for it. -/
def evaluate (s : Decode) (bundle : Bundle) (room : Bool) : Result :=
  let input := s.input.push bundle
  let (out, input) := if room then input.pop else (none, input)
  { stage := { s with input }
    bundle := out
    addrs := match out with
      | some b => b.insts.map MicroOp.pc
      | none => []
    busy := out.isSome || !input.isEmpty }

/-- No bundle is queued. -/
def isDrained (s : Decode) : Bool := s.input.isEmpty

/-- The stage in a trace. -/
def trace (s : Decode) : String :=
  s!"{s.name} input=(" ++ " ".intercalate (s.input.entries.map Bundle.display) ++ ")"

end Decode

end InOrder
