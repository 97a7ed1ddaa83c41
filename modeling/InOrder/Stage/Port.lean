/-!
# Memory ports

A port counts what a stage sends to memory and what comes back.
-/

namespace InOrder

/-- The traffic of a memory port. -/
structure Port where
  name : String
  requests : Nat := 0
  responses : Nat := 0
deriving DecidableEq, Repr

namespace Port

/-- One request more. -/
def request (p : Port) : Port := { p with requests := p.requests + 1 }

/-- One response more. -/
def respond (p : Port) : Port := { p with responses := p.responses + 1 }

end Port

end InOrder
