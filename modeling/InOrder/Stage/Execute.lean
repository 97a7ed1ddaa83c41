import InOrder.Config.Basic
import InOrder.Event
import InOrder.Isa
import InOrder.Payload.Bundle
import InOrder.Queue
import InOrder.Stage.LineFetch

/-!
# Execute

The fourth stage issues micro-ops in order into functional units of a fixed latency, and retires
them in order when it has elapsed. Control is resolved at issue: a redirect that changes the
stream raises the stream number of its thread, so younger micro-ops of the old stream are squashed
when their turn comes.

A drain stops issue, and each thread is sent a halt with the address to resume from.

`issueOps` takes micro-ops from one bundle, `issueQueue` goes through the bundles. Both recur on
the list they take from.
-/

namespace InOrder

/-- A thread as execute sees it. -/
structure ExecThread where
  streamSeq : UInt64
  /-- Where the thread goes on after what was issued. -/
  nextPc : UInt64
  /-- A halt has to be sent for a drain. -/
  haltPending : Bool
deriving DecidableEq

/-- A micro-op in a functional unit. -/
structure InFlight where
  thread : UInt32
  op : MicroOp
  /-- The cycle in which it retires. -/
  doneAt : Nat
deriving DecidableEq

/-- A retired instruction. -/
structure Retired where
  thread : UInt32
  pc : UInt64
  inst : UInt32
deriving DecidableEq

/-- The instruction in a functional unit. -/
def InFlight.retired (f : InFlight) : Retired := ⟨f.thread, f.op.pc, f.op.inst⟩

/-! ### The signature of a run -/

namespace Signature

/-- The signature of the empty run. -/
def seed : UInt64 := 0xcbf29ce484222325

/-- The factor of each step. -/
def factor : UInt64 := 0x100000001b3

/-- Take in one word. -/
def absorbWord (s w : UInt64) : UInt64 := (s ^^^ w) * factor

/-- Take in an instruction: its address, then its word. -/
def absorb (s : UInt64) (r : Retired) : UInt64 :=
  absorbWord (absorbWord s r.pc) r.inst.toUInt64

/-- The signature of a list of instructions. -/
def ofList (rs : List Retired) : UInt64 := rs.foldl absorb seed

end Signature

/-! ### Control -/

namespace ExecThread

/-- Why fetch has to be redirected after a micro-op, and where its thread goes on. -/
def outcome (o : MicroOp) : Reason × UInt64 :=
  match Isa.classify o.inst with
  | .jump offset =>
    let target := Isa.displace o.pc offset
    (if !o.predictedTaken.isSet then .unpredicted
      else if o.predictedTarget ≠ target then .badTarget
      else .correctlyPredicted, target)
  | .suspend => (.suspend, Isa.nextWord o.pc)
  | .plain =>
    (if o.predictedTaken.isSet then .badPrediction else .noBranch, Isa.nextWord o.pc)

/-- Issue a micro-op of thread `t`. -/
def issue (th : ExecThread) (t : UInt32) (o : MicroOp) : ExecThread × Option Redirect :=
  let (reason, target) := outcome o
  if reason.changesStream then
    let seq := th.streamSeq + 1
    ({ th with nextPc := target, streamSeq := seq }, some (.live reason t target seq firstSeq))
  else ({ th with nextPc := target }, none)

/-- Send the pending halt of thread `t`. -/
def halt (th : ExecThread) (t : UInt32) : ExecThread × Redirect :=
  let seq := th.streamSeq + 1
  ({ th with streamSeq := seq, haltPending := false }, .live .halt t th.nextPc seq firstSeq)

end ExecThread

/-! ### Issue -/

/-- What issue may do in a cycle. -/
structure IssueLimits where
  /-- Nothing is issued during a drain. -/
  draining : Bool
  units : Nat
  /-- When what is issued now retires. -/
  doneAt : Nat

/-- What issue changes in a cycle. -/
structure Issue where
  threads : List ExecThread
  units : List InFlight
  squashed : Nat
  /-- Micro-ops taken from the oldest bundle. -/
  index : Nat
  /-- Addresses of the micro-ops issued in this cycle. -/
  addrs : List UInt64
deriving DecidableEq

/-- Why no more is taken from a bundle. -/
inductive IssueEnd where
  /-- All its micro-ops are taken. -/
  | spent
  /-- The next one cannot be issued now. -/
  | blocked
  /-- The last one redirects fetch. -/
  | raised (redirect : Redirect)
deriving DecidableEq

/-- Squash the next micro-op. -/
def Issue.squash (s : Issue) : Issue := { s with squashed := s.squashed + 1, index := s.index + 1 }

/-- Put a micro-op of thread `t` into a unit. -/
def Issue.start (s : Issue) (doneAt : Nat) (t : UInt32) (th : ExecThread) (o : MicroOp) : Issue :=
  { s with
    threads := s.threads.set t.toNat th
    units := s.units ++ [⟨t, o, doneAt⟩]
    index := s.index + 1
    addrs := s.addrs ++ [o.pc] }

/-- Take micro-ops of thread `t` in turn, and squash those that are not of its stream. -/
def issueOps (lim : IssueLimits) (t : UInt32) : List MicroOp → Issue → Issue × IssueEnd
  | [], s => (s, .spent)
  | o :: rest, s =>
    match s.threads[t.toNat]? with
    | none => issueOps lim t rest s.squash
    | some th =>
      if o.streamSeq ≠ th.streamSeq then issueOps lim t rest s.squash
      else if lim.draining = true ∨ lim.units ≤ s.units.length then (s, .blocked)
      else
        match th.issue t o with
        | (th, some r) => (s.start lim.doneAt t th o, .raised r)
        | (th, none) => issueOps lim t rest (s.start lim.doneAt t th o)

/-- Take micro-ops from the bundles in turn. The answer has the bundles that stay queued. -/
def issueQueue (lim : IssueLimits) : List Bundle → Issue → List Bundle × Issue × Option Redirect
  | [], s => ([], s, none)
  | b :: rest, s =>
    match issueOps lim b.thread (b.insts.drop s.index) s with
    | (s, .spent) => issueQueue lim rest { s with index := 0 }
    | (s, .blocked) => (b :: rest, s, none)
    | (s, .raised r) => (b :: rest, s, some r)

/-! ### The stage -/

/-- The hooks of the load and store queue, which holds nothing. -/
structure MemoryQueue where
  /-- Times it was asked for a fault. -/
  polls : Nat := 0
  /-- Times its occupancy was sampled. -/
  samples : Nat := 0
deriving DecidableEq

/-- Ask for a fault, then sample. -/
def MemoryQueue.poll (q : MemoryQueue) (now : Nat) : MemoryQueue × List Event :=
  (⟨q.polls + 1, q.samples + 1⟩, [.queuePolled now])

/-- The stage that issues and retires. -/
structure Execute where
  name : String
  input : Queue Bundle
  /-- Micro-ops taken from the oldest bundle. -/
  issueIndex : Nat
  /-- The functional units in use, oldest first. -/
  units : List InFlight
  unitCount : Nat
  latency : Nat
  threads : List ExecThread
  draining : Bool
  /-- The bit of an instruction that a fault flips. -/
  faultBit : Nat
  retired : Nat
  squashed : Nat
  signature : UInt64
  port : Port
  queue : MemoryQueue
deriving DecidableEq

namespace Execute

/-- The stage with nothing in it. Every thread resumes at `entry` until it issues. -/
def new (name : String) (c : Config) (entry : UInt64) : Execute :=
  { name
    input := .empty c.pipeline.executeQueue.toNat
    issueIndex := 0
    units := []
    unitCount := c.pipeline.units.toNat
    latency := c.pipeline.executeLatency.toNat
    threads := List.replicate c.host.threads.toNat ⟨firstSeq, entry, false⟩
    draining := false
    faultBit := c.faults.unitBit.toNat
    retired := 0
    squashed := 0
    signature := Signature.seed
    port := { name := name ++ ".dcache_port" }
    queue := {} }

/-- Where a thread goes on. -/
def nextPc? (s : Execute) (t : UInt32) : Option UInt64 := (s.threads[t.toNat]?).map (·.nextPc)

/-- The micro-op leaves its unit in this cycle. -/
def isDone (cycle : Nat) (f : InFlight) : Bool := f.doneAt ≤ cycle

/-- Retire from the oldest on what is done. -/
def retire (s : Execute) (cycle : Nat) : Execute × List Retired :=
  let done := (s.units.takeWhile (isDone cycle)).map InFlight.retired
  ({ s with
      units := s.units.dropWhile (isDone cycle)
      retired := s.retired + done.length
      signature := done.foldl Signature.absorb s.signature }, done)

/-- Issue what can be issued. The answer has the redirect raised and the addresses issued. -/
def issue (s : Execute) (cycle : Nat) : Execute × Option Redirect × List UInt64 :=
  let lim : IssueLimits := ⟨s.draining, s.unitCount, cycle + s.latency⟩
  let (bundles, i, r) :=
    issueQueue lim s.input.entries ⟨s.threads, s.units, s.squashed, s.issueIndex, []⟩
  ({ s with
      input := s.input.withEntries bundles
      threads := i.threads, units := i.units, squashed := i.squashed, issueIndex := i.index },
    r, i.addrs)

/-- Send the halt of the first thread that has one pending. -/
def haltNext (s : Execute) : Execute × Option Redirect :=
  match s.threads.findIdx? (·.haltPending) with
  | none => (s, none)
  | some t =>
    match s.threads[t]? with
    | none => (s, none)
    | some th =>
      let (th, r) := th.halt (UInt32.ofNat t)
      ({ s with threads := s.threads.set t th }, some r)

/-- Nothing is queued or in a unit. A pending halt does not count: its thread still fetches. -/
def isDrained (s : Execute) : Bool := s.input.isEmpty && s.units.isEmpty

/-- What a cycle of the stage gives. -/
structure Result where
  stage : Execute
  /-- The redirect sent. -/
  redirect : Option Redirect
  /-- What retired, in order. -/
  retired : List Retired
  /-- The addresses issued. -/
  addrs : List UInt64
  busy : Bool
  events : List Event

/-- One cycle. A halt is sent only if no redirect is raised by issue. -/
def evaluate (s : Execute) (cycle : Nat) (bundle : Bundle) : Result :=
  let (s, retired) := s.retire cycle
  let s := { s with input := s.input.push bundle }
  let (s, raised, addrs) := s.issue cycle
  let (s, redirect) := match raised with
    | some r => (s, some r)
    | none => s.haltNext
  { stage := s, redirect, retired, addrs
    busy := redirect.isSome || !retired.isEmpty || s.threads.any (·.haltPending) || !s.isDrained
    events := match redirect with
      | some r => [.redirected s.name r]
      | none => [] }

/-- Flip a bit of the oldest instruction in a unit. The answer says whether there was one. -/
def flipUnit (s : Execute) : Execute × Bool × List Event :=
  match s.units with
  | [] => (s, false, [])
  | f :: rest =>
    let bit := s.faultBit % 32
    let op := { f.op with inst := f.op.inst ^^^ (1 <<< UInt32.ofNat bit) }
    ({ s with units := { f with op } :: rest }, true, [.unitFlipped s.name bit f.op.pc])

/-- Stop issue, and send a halt to every thread. -/
def drain (s : Execute) : Execute :=
  { s with draining := true, threads := s.threads.map fun th => { th with haltPending := true } }

/-- Issue again, and send no more halts. -/
def resume (s : Execute) : Execute :=
  { s with draining := false, threads := s.threads.map fun th => { th with haltPending := false } }

/-- The functional units, a line each. -/
def listing (s : Execute) : List String :=
  (List.range s.unitCount).map fun i =>
    s!"{s.name}.fu[{i}] IntAlu opLat={s.latency} issueLat=1"

/-- The stage in a trace. -/
def trace (s : Execute) : String :=
  s!"{s.name} input={s.input.entries.length} fus=(" ++
    ",".intercalate (s.units.map fun f => f.op.display) ++
    s!") retired={s.retired} draining={s.draining}"

end Execute

end InOrder
