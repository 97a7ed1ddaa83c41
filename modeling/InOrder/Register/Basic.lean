import InOrder.Event
import InOrder.Error
import InOrder.Register.DelayLine

/-!
# A pipeline register

A register is a delay line of payloads with a name, in which one bit flip can be scheduled.
`Register.schedule` accepts a tick that has not passed and replaces what was scheduled before.
`Register.inject` is asked once a cycle: it consumes a flip whose tick has come, and flips a bit of
the payload at the output if the tick is now and the payload has that bit.
-/

namespace InOrder

/-- A bit to flip, and when. -/
structure Flip where
  tick : Nat
  bit : Nat
deriving DecidableEq

/-- What became of a scheduled flip. -/
inductive Injection where
  /-- Nothing was due. -/
  | idle
  /-- The bit was flipped. -/
  | applied (bit : Nat)
  /-- The payload has only `bits` bits. -/
  | outside (bit bits : Nat)
  /-- The tick passed without an evaluation. -/
  | missed (tick : Nat)
deriving DecidableEq

/-- A pipeline register. -/
structure Register (α : Type) where
  name : String
  edge : Edge
  line : DelayLine α
  /-- The flip that is scheduled. -/
  flip : Option Flip
deriving DecidableEq

namespace Register

variable {α : Type}

/-- The blank register of a delay, which has to be positive. -/
def new (name : String) (edge : Edge) (depth : UInt32) (blank : α) :
    Except SetupError (Register α) :=
  if depth.toNat < 1 then .error (.badParameter edge.delayParameter .atLeastOne depth.toNat)
  else .ok ⟨name, edge, .new depth.toNat blank, none⟩

/-- What the consumer sees. -/
def output (r : Register α) : α := r.line.output

/-- What the producer has written in this cycle. -/
def input (r : Register α) : α := r.line.input

/-- Replace what stands at the input. -/
def write (r : Register α) (a : α) : Register α := { r with line := r.line.write a }

/-- Replace what stands at the input, if there is something to write. -/
def write? (r : Register α) : Option α → Register α
  | some a => r.write a
  | none => r

/-- Replace what stands at the output. -/
def setOutput (r : Register α) (a : α) : Register α := { r with line := r.line.setOutput a }

/-- One cycle. -/
def advance (r : Register α) : Register α := { r with line := r.line.advance }

/-- Schedule a flip, unless its tick has passed. The answer says whether it is scheduled. -/
def schedule (r : Register α) (tick bit now : Nat) : Register α × Bool × List Event :=
  if tick < now then (r, false, [.flipTooLate r.name tick now])
  else ({ r with flip := some ⟨tick, bit⟩ }, true, [])

variable [Payload α]

/-- Every slot is a bubble. -/
def isEmpty (r : Register α) : Bool := r.line.slots.all Payload.isBubble

/-- The slots in a trace, from output to input. -/
def trace (r : Register α) : String :=
  s!"{r.name} {r.edge.payloadLabel}=" ++ ",".intercalate (r.line.slots.map Payload.display)

/-- Apply the scheduled flip if it is due. -/
def inject (r : Register α) (now : Nat) : Register α × Injection :=
  match r.flip with
  | none => (r, .idle)
  | some f =>
    if now < f.tick then (r, .idle)
    else
      let r := { r with flip := none }
      if f.tick < now then (r, .missed f.tick)
      else match Payload.flip? r.output f.bit with
        | some a => (r.setOutput a, .applied f.bit)
        | none => (r, .outside f.bit (Payload.bitCount r.output))

end Register

end InOrder
