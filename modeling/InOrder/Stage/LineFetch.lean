import InOrder.Image
import InOrder.Config.Basic
import InOrder.Event
import InOrder.Payload.Line
import InOrder.Stage.Port

/-!
# Line fetch

The first stage asks memory for lines, one at a time, for the threads that run, in turn. Each
thread has an address, and the stream and prediction numbers that its lines are stamped with.

In a cycle a redirect of execute is taken up, or else a prediction that belongs to the stream of
its thread; a line in flight that this makes stale is dropped. Then a line that has arrived goes
out if the slicer has room, and the next line is asked for if none is in flight.
-/

namespace InOrder

/-- The number of the first stream, and of the first prediction of each stream. -/
def firstSeq : UInt64 := 1

/-- Whether a thread fetches. -/
inductive FetchState where
  /-- Never woken, or halted for a drain. -/
  | halted
  /-- Stopped by itself. -/
  | suspended
  | running
deriving DecidableEq, Repr

namespace FetchState

/-- The state in a listing. -/
def name : FetchState → String
  | halted => "Halted"
  | suspended => "Suspended"
  | running => "Running"

/-- The state in a trace. -/
def letter : FetchState → String
  | halted => "H"
  | suspended => "S"
  | running => "R"

/-- The state that a redirect leads to. -/
def after : Reason → FetchState
  | .suspend => suspended
  | .halt => halted
  | _ => running

end FetchState

/-- A thread as the line fetch sees it. -/
structure FetchThread where
  state : FetchState
  /-- Where the next line is entered. -/
  pc : UInt64
  streamSeq : UInt64
  predictionSeq : UInt64
deriving DecidableEq

/-- A line that memory was asked for. -/
structure PendingLine where
  /-- The cycle in which it can go out. -/
  readyAt : Nat
  line : Line
deriving DecidableEq

/-- The stage that asks for lines. -/
structure LineFetch where
  name : String
  image : Image
  lineBytes : UInt64
  /-- Cycles from a request to the arrival. -/
  latency : Nat
  threads : List FetchThread
  /-- The thread whose turn it is. -/
  turn : Nat
  pending : Option PendingLine
  port : Port
deriving DecidableEq

namespace LineFetch

/-- The stage with all threads halted at the entry of the program. -/
def new (name : String) (c : Config) (image : Image) : LineFetch :=
  { name, image
    lineBytes := c.pipeline.lineBytes.toUInt64
    latency := c.pipeline.fetchLatency.toNat
    threads := List.replicate c.host.threads.toNat ⟨.halted, image.entry, firstSeq, firstSeq⟩
    turn := 0
    pending := none
    port := { name := name ++ ".icache_port" } }

/-- A thread by its number. -/
def thread? (s : LineFetch) (t : UInt32) : Option FetchThread := s.threads[t.toNat]?

/-- Replace a thread. -/
def setThread (s : LineFetch) (t : UInt32) (th : FetchThread) : LineFetch :=
  { s with threads := s.threads.set t.toNat th }

/-- Drop the line in flight unless `keep` accepts it. -/
def keepPending (s : LineFetch) (keep : Line → Bool) : LineFetch :=
  { s with pending := s.pending.filter fun p => keep p.line }

/-- Take up a redirect of execute. One that changes no stream is without effect. -/
def changeStream (s : LineFetch) (r : Redirect) : LineFetch × List Event :=
  if r.reason.changesStream then
    match s.thread? r.thread with
    | none => (s, [.unknownThread s.name r.thread])
    | some _ =>
      let th : FetchThread := ⟨.after r.reason, r.target, r.newStreamSeq, r.newPredictionSeq⟩
      ((s.setThread r.thread th).keepPending fun l =>
        l.thread != r.thread || l.streamSeq == r.newStreamSeq, [])
  else (s, [])

/-- Take up a prediction of the slicer, if its thread runs in the stream of the prediction. -/
def applyPrediction (s : LineFetch) (r : Redirect) : LineFetch :=
  match s.thread? r.thread with
  | none => s
  | some th =>
    if th.state = .running ∧ r.newStreamSeq = th.streamSeq then
      (s.setThread r.thread { th with predictionSeq := r.newPredictionSeq, pc := r.target }).keepPending
        fun l => l.thread != r.thread || l.predictionSeq == r.newPredictionSeq
    else s

/-- Take up the redirect, or else the prediction. -/
def redirect (s : LineFetch) (branch prediction : Redirect) : LineFetch × List Event :=
  if branch.isLive then s.changeStream branch
  else if prediction.isLive then (s.applyPrediction prediction, [])
  else (s, [])

/-- Send the line that has arrived, if there is one and `room` for it. -/
def deliver (s : LineFetch) (cycle : Nat) (room : Bool) : LineFetch × Option Line :=
  match s.pending with
  | none => (s, none)
  | some p =>
    if p.readyAt ≤ cycle ∧ room = true then
      ({ s with pending := none, port := s.port.respond }, some p.line)
    else (s, none)

/-- The thread runs. -/
def isRunning (s : LineFetch) (t : Nat) : Bool :=
  match s.threads[t]? with
  | some th => th.state == .running
  | none => false

/-- The first thread that runs, from the one whose turn it is on and around. -/
def pick (s : LineFetch) : Option Nat :=
  let n := s.threads.length
  ((List.range n).map fun i => (s.turn + i) % n).find? s.isRunning

/-- Ask for the line that the thread enters next. The thread goes on at the line after it. -/
def request (s : LineFetch) (t : Nat) (th : FetchThread) (cycle : Nat) : LineFetch :=
  let base := th.pc - th.pc % s.lineBytes
  let line : Line :=
    { bubble := .clear, thread := UInt32.ofNat t, pc := th.pc, lineBase := base
      streamSeq := th.streamSeq, predictionSeq := th.predictionSeq
      data := s.image.read base s.lineBytes.toNat }
  { s with
    threads := s.threads.set t { th with pc := base + s.lineBytes }
    turn := (t + 1) % s.threads.length
    pending := some ⟨cycle + s.latency, line⟩
    port := s.port.request }

/-- Ask for a line if none is in flight and a thread runs. The answer has the address asked for. -/
def requestNext (s : LineFetch) (cycle : Nat) : LineFetch × List UInt64 :=
  match s.pending with
  | some _ => (s, [])
  | none =>
    match s.pick with
    | none => (s, [])
    | some t =>
      match s.threads[t]? with
      | none => (s, [])
      | some th => (s.request t th cycle, [th.pc])

/-- What a cycle of the stage gives. -/
structure Result where
  stage : LineFetch
  /-- The line sent. -/
  line : Option Line
  /-- The address asked for, if any. -/
  addrs : List UInt64
  busy : Bool
  events : List Event

/-- One cycle. -/
def evaluate (s : LineFetch) (cycle : Nat) (branch prediction : Redirect) (room : Bool) : Result :=
  let (s, events) := s.redirect branch prediction
  let (s, line) := s.deliver cycle room
  let (s, addrs) := s.requestNext cycle
  { stage := s, line, addrs, events
    busy := line.isSome || s.pending.isSome }

/-- Let a thread fetch. -/
def wake (s : LineFetch) (t : UInt32) : LineFetch × List Event :=
  match s.thread? t with
  | none => (s, [])
  | some th =>
    if th.state = .running then (s, [])
    else (s.setThread t { th with state := .running }, [.woken s.name t th.pc])

/-- No line is in flight and no thread runs. -/
def isDrained (s : LineFetch) : Bool :=
  s.pending.isNone && s.threads.all fun th => th.state != .running

/-- The stage in a trace. -/
def trace (s : LineFetch) : String :=
  let show1 (th : FetchThread) : String :=
    s!"{th.state.letter}{th.streamSeq}.{th.predictionSeq}@{Hex.marked th.pc.toNat}"
  s!"{s.name} threads=" ++ ",".intercalate (s.threads.map show1) ++
    s!" in_flight={if s.pending.isSome then 1 else 0}"

end LineFetch

end InOrder
