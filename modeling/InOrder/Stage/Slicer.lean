import InOrder.Config.Basic
import InOrder.Event
import InOrder.Isa
import InOrder.Payload.Bundle
import InOrder.Payload.Line
import InOrder.Queue
import InOrder.Stage.LineFetch

/-!
# Slicer

The second stage queues lines and cuts them into micro-ops, up to a bundle of one thread in a
cycle. A line whose stream or prediction number is not the one that its thread expects is dropped
whole. Where jumps are predicted, a jump ends the bundle, drops the rest of its line, and sends a
prediction to the line fetch.

`cutLine` takes micro-ops from one line, `cutQueue` goes through the lines. The first ends by the
room in the bundle, the second by the queue.
-/

namespace InOrder

/-- The numbers that the slicer expects on the lines of a thread. -/
structure Expected where
  streamSeq : UInt64
  predictionSeq : UInt64
deriving DecidableEq

/-- The stage that cuts lines into micro-ops. -/
structure Slicer where
  name : String
  /-- Micro-ops in a bundle. -/
  width : Nat
  predictJumps : Bool
  input : Queue Line
  expected : List Expected
  /-- Address of the next instruction in the oldest line, once one was taken from it. -/
  cursor : Option UInt64
  /-- Number of the next micro-op. -/
  nextSeq : Nat
  /-- Lines dropped because their numbers were not expected. -/
  discarded : Nat
deriving DecidableEq

/-- A bundle in the making. -/
structure Cut where
  expected : List Expected
  cursor : Option UInt64
  nextSeq : Nat
  discarded : Nat
  /-- Thread of the micro-ops taken. -/
  thread : UInt32
  /-- The micro-ops taken, in program order. -/
  ops : List MicroOp
  prediction : Option Redirect
deriving DecidableEq

/-- Why no more is taken from a line. -/
inductive CutEnd where
  /-- The bundle is full. -/
  | full
  /-- The line has no further whole word. -/
  | spent
  /-- A jump was predicted. -/
  | jumped
deriving DecidableEq

namespace Cut

/-- The line carries the numbers that its thread expects. -/
def accepts (c : Cut) (l : Line) : Bool :=
  match c.expected[l.thread.toNat]? with
  | some e => e.streamSeq == l.streamSeq && e.predictionSeq == l.predictionSeq
  | none => false

/-- The micro-op at an address of a line. -/
def opOf (c : Cut) (l : Line) (pc : UInt64) (inst : UInt32) : MicroOp :=
  { bubble := .clear, pc, seqNum := UInt64.ofNat c.nextSeq, streamSeq := l.streamSeq, inst
    predictedTaken := .clear, predictedTarget := 0 }

/-- Take a micro-op and go on after it. -/
def take (c : Cut) (l : Line) (pc : UInt64) (inst : UInt32) : Cut :=
  { c with
    cursor := some (Isa.nextWord pc)
    nextSeq := c.nextSeq + 1
    thread := l.thread
    ops := c.ops ++ [c.opOf l pc inst] }

/-- Take a jump, predict its target, and leave the line. The thread expects the next prediction
number from here on. -/
def takeJump (c : Cut) (l : Line) (pc : UInt64) (inst : UInt32) (offset : Int) : Cut :=
  let target := Isa.displace pc offset
  let op := { c.opOf l pc inst with predictedTaken := .set, predictedTarget := target }
  let c := { c with cursor := none, nextSeq := c.nextSeq + 1, thread := l.thread,
                    ops := c.ops ++ [op] }
  match c.expected[l.thread.toNat]? with
  | none => c
  | some e =>
    let seq := e.predictionSeq + 1
    { c with
      expected := c.expected.set l.thread.toNat { e with predictionSeq := seq }
      prediction := some (.live .prediction l.thread target l.streamSeq seq) }

end Cut

/-- Take micro-ops from a line while there is room for `room` of them. -/
def cutLine (predictJumps : Bool) (l : Line) : (room : Nat) → Cut → Cut × CutEnd
  | 0, c => (c, .full)
  | room + 1, c =>
    let pc := c.cursor.getD l.pc
    match l.wordAt? pc with
    | none => ({ c with cursor := none }, .spent)
    | some inst =>
      match predictJumps, Isa.classify inst with
      | true, .jump offset => (c.takeJump l pc inst offset, .jumped)
      | _, _ => cutLine predictJumps l room (c.take l pc inst)

/-- Take micro-ops from the lines in turn, up to `width` and of one thread. The answer has the
lines that stay queued. -/
def cutQueue (predictJumps : Bool) (width : Nat) : List Line → Cut → List Line × Cut
  | [], c => ([], c)
  | l :: rest, c =>
    if width ≤ c.ops.length then (l :: rest, c)
    else if c.accepts l = false then
      cutQueue predictJumps width rest { c with discarded := c.discarded + 1, cursor := none }
    else if c.ops ≠ [] ∧ c.thread ≠ l.thread then (l :: rest, c)
    else
      match cutLine predictJumps l (width - c.ops.length) c with
      | (c, .full) => (l :: rest, c)
      | (c, .spent) => cutQueue predictJumps width rest c
      | (c, .jumped) => (rest, c)

namespace Slicer

/-- The stage with an empty queue, which expects the first stream of every thread. -/
def new (name : String) (c : Config) : Slicer :=
  { name
    width := c.pipeline.width.toNat
    predictJumps := c.pipeline.predictJumps
    input := .empty c.pipeline.lineQueue.toNat
    expected := List.replicate c.host.threads.toNat ⟨firstSeq, firstSeq⟩
    cursor := none
    nextSeq := 1
    discarded := 0 }

/-- Expect the numbers of a redirect that changes the stream. -/
def follow (s : Slicer) (r : Redirect) : Slicer :=
  if r.isLive ∧ r.reason.changesStream = true then
    { s with expected := s.expected.set r.thread.toNat ⟨r.newStreamSeq, r.newPredictionSeq⟩ }
  else s

/-- Cut a bundle from the queue. The answer has the micro-ops in the making. -/
def cut (s : Slicer) : Slicer × Cut :=
  let start : Cut := ⟨s.expected, s.cursor, s.nextSeq, s.discarded, 0, [], none⟩
  let (lines, c) := cutQueue s.predictJumps s.width s.input.entries start
  ({ s with
      input := s.input.withEntries lines
      expected := c.expected, cursor := c.cursor, nextSeq := c.nextSeq,
      discarded := c.discarded }, c)

/-- What a cycle of the stage gives. -/
structure Result where
  stage : Slicer
  /-- The bundle sent. -/
  bundle : Option Bundle
  /-- The prediction sent. -/
  prediction : Option Redirect
  /-- The addresses of the micro-ops sent. -/
  addrs : List UInt64
  busy : Bool

/-- One cycle. Nothing is cut without `room` for a bundle. -/
def evaluate (s : Slicer) (line : Line) (branch : Redirect) (room : Bool) : Result :=
  let s := { s with input := s.input.push line }
  let s := s.follow branch
  if room then
    let (s, c) := s.cut
    let bundle := if c.ops.isEmpty then none else some (.ofInsts s.width c.thread c.ops)
    { stage := s, bundle, prediction := c.prediction, addrs := c.ops.map MicroOp.pc
      busy := bundle.isSome || !s.input.isEmpty }
  else
    { stage := s, bundle := none, prediction := none, addrs := [], busy := !s.input.isEmpty }

/-- No line is queued. -/
def isDrained (s : Slicer) : Bool := s.input.isEmpty

/-- The stage in a trace. -/
def trace (s : Slicer) : String :=
  let cursor := match s.cursor with
    | some pc => Hex.marked pc.toNat
    | none => "-"
  s!"{s.name} input=(" ++ ",".intercalate (s.input.entries.map Line.display) ++
    s!") cursor={cursor}"

end Slicer

end InOrder
