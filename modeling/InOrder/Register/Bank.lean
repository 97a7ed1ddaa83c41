import InOrder.Config.Basic
import InOrder.Payload.Line
import InOrder.Payload.Bundle
import InOrder.Register.Basic

/-!
# The registers of a pipeline, and flips in them

`Registers` are the five registers between the stages. What is done to a register by its edge is
written once, for a register of any payload, and `Registers.change` does it to the one that is
meant.

`FaultLog` holds the edges that wait for a flip and the flips that took effect. Once a cycle each
waiting edge is asked, in the order in which they were registered; one whose flip is consumed,
applied or not, waits no longer.
-/

namespace InOrder

/-- The registers between the stages. -/
structure Registers where
  f1ToF2 : Register Line
  f2ToD : Register Bundle
  dToE : Register Bundle
  eToF1 : Register Redirect
  f2ToF1 : Register Redirect
deriving DecidableEq

/-- What the stages read from the registers in a cycle. -/
structure Outputs where
  f1ToF2 : Line
  f2ToD : Bundle
  dToE : Bundle
  eToF1 : Redirect
  f2ToF1 : Redirect
deriving DecidableEq

/-- What the stages write to the registers in a cycle; nothing leaves the input as it is. -/
structure Writes where
  f1ToF2 : Option Line := none
  f2ToD : Option Bundle := none
  dToE : Option Bundle := none
  eToF1 : Option Redirect := none
  f2ToF1 : Option Redirect := none
deriving DecidableEq

namespace Registers

/-- Blank registers with the configured delays. An edge is named after its owner. -/
def new (owner : String) (c : PipelineConfig) : Except SetupError Registers := do
  let name (e : Edge) := owner ++ "." ++ e.selector
  let width := c.width.toNat
  let f1ToF2 ← Register.new (name .f1ToF2) .f1ToF2 c.delays.f1ToF2 Line.empty
  let f2ToD ← Register.new (name .f2ToD) .f2ToD c.delays.f2ToD (Bundle.empty width)
  let dToE ← Register.new (name .dToE) .dToE c.delays.dToE (Bundle.empty width)
  let eToF1 ← Register.new (name .eToF1) .eToF1 c.delays.eToF1 Redirect.empty
  let f2ToF1 ← Register.new (name .f2ToF1) .f2ToF1 c.delays.f2ToF1 Redirect.empty
  return { f1ToF2, f2ToD, dToE, eToF1, f2ToF1 }

/-- What `f` says of the register of an edge. -/
def view {β : Type} (rs : Registers) (e : Edge)
    (f : {α : Type} → [Payload α] → Register α → β) : β :=
  match e with
  | .f1ToF2 => f rs.f1ToF2
  | .f2ToD => f rs.f2ToD
  | .dToE => f rs.dToE
  | .eToF1 => f rs.eToF1
  | .f2ToF1 => f rs.f2ToF1

/-- Change the register of an edge by `f`, which also gives an answer. -/
def change {β : Type} (rs : Registers) (e : Edge)
    (f : {α : Type} → [Payload α] → Register α → Register α × β) : Registers × β :=
  match e with
  | .f1ToF2 => let (r, b) := f rs.f1ToF2; ({ rs with f1ToF2 := r }, b)
  | .f2ToD => let (r, b) := f rs.f2ToD; ({ rs with f2ToD := r }, b)
  | .dToE => let (r, b) := f rs.dToE; ({ rs with dToE := r }, b)
  | .eToF1 => let (r, b) := f rs.eToF1; ({ rs with eToF1 := r }, b)
  | .f2ToF1 => let (r, b) := f rs.f2ToF1; ({ rs with f2ToF1 := r }, b)

/-- What stands at the outputs. -/
def outputs (rs : Registers) : Outputs :=
  ⟨rs.f1ToF2.output, rs.f2ToD.output, rs.dToE.output, rs.eToF1.output, rs.f2ToF1.output⟩

/-- Write what the stages wrote. -/
def write (rs : Registers) (w : Writes) : Registers :=
  { f1ToF2 := rs.f1ToF2.write? w.f1ToF2
    f2ToD := rs.f2ToD.write? w.f2ToD
    dToE := rs.dToE.write? w.dToE
    eToF1 := rs.eToF1.write? w.eToF1
    f2ToF1 := rs.f2ToF1.write? w.f2ToF1 }

/-- One cycle of every register. -/
def advance (rs : Registers) : Registers :=
  ⟨rs.f1ToF2.advance, rs.f2ToD.advance, rs.dToE.advance, rs.eToF1.advance, rs.f2ToF1.advance⟩

/-- Every slot of the register is a bubble. -/
def isEmpty (rs : Registers) (e : Edge) : Bool := rs.view e Register.isEmpty

/-- The register in a trace. -/
def trace (rs : Registers) (e : Edge) : String := rs.view e Register.trace

/-- What stands at the outputs, for drawings and for the count of bubbles. -/
def snapshot (rs : Registers) : Snapshot :=
  { bubble :=
      { f1ToF2 := Payload.countsAsBubble rs.f1ToF2.output
        f2ToD := Payload.countsAsBubble rs.f2ToD.output
        dToE := Payload.countsAsBubble rs.dToE.output
        eToF1 := Payload.countsAsBubble rs.eToF1.output
        f2ToF1 := Payload.countsAsBubble rs.f2ToF1.output }
    prediction := rs.f2ToF1.output.reason
    redirect := rs.eToF1.output.reason }

theorem get_bubble_snapshot (rs : Registers) (e : Edge) :
    rs.snapshot.bubble.get e = rs.view e fun r => Payload.countsAsBubble r.output := by
  cases e <;> rfl

/-- Schedule a flip in the register of an edge. -/
def schedule (rs : Registers) (e : Edge) (tick bit now : Nat) : Registers × Bool × List Event :=
  rs.change e fun r => r.schedule tick bit now

/-- Apply the flip of an edge if it is due. -/
def inject (rs : Registers) (e : Edge) (now : Nat) : Registers × Injection :=
  rs.change e fun r => r.inject now

/-- The name of the register of an edge. -/
def nameOf (rs : Registers) (e : Edge) : String := rs.view e fun r => r.name

end Registers

/-- A flip that took effect. -/
structure FlipRecord where
  edge : Edge
  tick : Nat
  bit : Nat
deriving DecidableEq

/-- The edges that wait for a flip, and the flips that took effect. -/
structure FaultLog where
  waiting : List Edge := []
  applied : List FlipRecord := []
deriving DecidableEq

namespace FaultLog

/-- Let an edge wait; one that waits already keeps its place. -/
def register (l : FaultLog) (e : Edge) : FaultLog :=
  if e ∈ l.waiting then l else { l with waiting := l.waiting ++ [e] }

/-- What an injection tells. -/
def event (name : String) (now : Nat) : Injection → List Event
  | .idle => []
  | .applied bit => [.flipped name now bit]
  | .outside bit bits => [.flipOutside name now bit bits]
  | .missed tick => [.flipMissed name now tick]

/-- The record of an injection, if it took effect. -/
def record (e : Edge) (now : Nat) : Injection → List FlipRecord
  | .applied bit => [⟨e, now, bit⟩]
  | _ => []

/-- Ask the edges in turn. The answer has the edges that go on waiting and what was applied. -/
def ask (now : Nat) : List Edge → Registers → FaultLog × Registers × List Event
  | [], rs => ({}, rs, [])
  | e :: es, rs =>
    let (rs, injection) := rs.inject e now
    let (l, rs', events) := ask now es rs
    let kept := if injection = .idle then e :: l.waiting else l.waiting
    (⟨kept, record e now injection ++ l.applied⟩, rs',
      event (rs.nameOf e) now injection ++ events)

/-- Apply every flip that is due. -/
def evaluate (l : FaultLog) (now : Nat) (rs : Registers) : FaultLog × Registers × List Event :=
  let (asked, rs, events) := ask now l.waiting rs
  (⟨asked.waiting, l.applied ++ asked.applied⟩, rs, events)

end FaultLog

end InOrder
