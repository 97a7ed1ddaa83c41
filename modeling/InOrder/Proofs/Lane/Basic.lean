import InOrder.Stage.Execute
import InOrder.Stage.Slicer
import InOrder.Proofs.Course
import Mathlib.Logic.Relation

/-!
# Lanes

The threads of a pipeline share its stages and registers, but no thread reads what belongs to
another. A `Lane` is what the pipeline holds of one thread, each kind from the oldest to the
youngest: the instructions issued, the micro-ops that wait for issue, the lines that wait to be
cut, and the redirects and predictions on their way to the line fetch.

`Lane.Step` is what can happen to a lane, one micro-op, line or redirect at a time, in whatever
order the stages come to it. A cycle of a pipeline is a sequence of such steps for each of its
threads, so what every step keeps holds in every cycle, for all delays and sizes.

Three fields are memories of the past that no stage has: `issued` goes back to the start,
`overtaken` lists the streams in which a prediction was lost, and `wakes` counts wakeups.
-/

namespace InOrder

/-! ## The issue of one micro-op -/

namespace ExecThread

variable {th th' : ExecThread} {t : UInt32} {o : MicroOp} {r : Redirect}

/-- A micro-op after which fetch is right moves the thread on in its stream. -/
theorem of_issue_none (h : th.issue t o = (th', none)) :
    (outcome o).1.changesStream = false ∧ th' = { th with nextPc := (outcome o).2 } := by
  by_cases hc : (outcome o).1.changesStream = true
  · simp [issue, hc] at h
  · simp only [issue, hc, Bool.false_eq_true, if_false, Prod.mk.injEq, and_true] at h
    exact ⟨by simpa using hc, h.symm⟩

/-- A micro-op after which fetch is wrong moves the thread on in its next stream. -/
theorem of_issue_some (h : th.issue t o = (th', some r)) :
    (outcome o).1.changesStream = true ∧
      th' = { th with nextPc := (outcome o).2, streamSeq := th.streamSeq + 1 } ∧
      r = .live (outcome o).1 t (outcome o).2 (th.streamSeq + 1) firstSeq := by
  by_cases hc : (outcome o).1.changesStream = true
  · simp only [issue, hc, if_true, Prod.mk.injEq, Option.some.injEq] at h
    exact ⟨hc, h.1.symm, h.2.symm⟩
  · simp [issue, hc] at h

/-- Whatever fetch predicted, a thread goes on where the course does. -/
theorem outcome_target (o : MicroOp) : (outcome o).2 = Isa.next o.pc o.inst := by
  unfold outcome Isa.next
  cases Isa.classify o.inst <;> rfl

/-- After a micro-op that was not predicted fetch is right only if the next word follows. -/
theorem outcome_unpredicted {o : MicroOp} (ho : o.predictedTaken.isSet = false)
    (hright : (outcome o).1.changesStream = false) : (outcome o).2 = Isa.nextWord o.pc := by
  unfold outcome at hright ⊢
  cases hk : Isa.classify o.inst with
  | jump offset => simp [hk, ho, Reason.changesStream] at hright
  | suspend => rfl
  | plain => rfl

end ExecThread

/-! ## Lines and their numbers -/

/-- The stream and prediction numbers of the lines that the thread asks for. -/
def FetchThread.stamp (th : FetchThread) : Expected := ⟨th.streamSeq, th.predictionSeq⟩

/-- The line has these numbers. -/
def Line.Carries (l : Line) (e : Expected) : Prop :=
  l.streamSeq = e.streamSeq ∧ l.predictionSeq = e.predictionSeq

instance (l : Line) (e : Expected) : Decidable (l.Carries e) := instDecidableAnd

/-- The line, entered at `pc`. -/
def Line.enter (l : Line) (pc : UInt64) : Line := { l with pc }

/-- What the steps of a lane depend on. -/
structure Track where
  thread : UInt32
  image : Image
  lineBytes : UInt64
  predictJumps : Bool
  /-- The stream and prediction numbers that may be given out. -/
  fresh : UInt64 → Prop

/-- The address of the line that a thread asks for. -/
def FetchThread.lineBase (th : FetchThread) (k : Track) : UInt64 := th.pc - th.pc % k.lineBytes

/-- The line that a thread asks for. -/
def FetchThread.line (th : FetchThread) (k : Track) : Line :=
  { bubble := .clear, thread := k.thread, pc := th.pc, lineBase := th.lineBase k
    streamSeq := th.streamSeq, predictionSeq := th.predictionSeq
    data := k.image.read (th.lineBase k) k.lineBytes.toNat }

/-! ## Lanes and their steps -/

/-- What a pipeline holds of one thread. -/
@[ext]
structure Lane where
  /-- The instructions issued since the start. -/
  issued : List (UInt64 × UInt32)
  exec : ExecThread
  /-- The micro-ops that wait for issue. -/
  ops : List MicroOp
  expected : Expected
  /-- The lines that wait to be cut, the oldest one entered where cutting goes on. -/
  lines : List Line
  fetch : FetchThread
  /-- The redirects on their way. -/
  redirects : List Redirect
  /-- The predictions on their way. -/
  predictions : List Redirect
  /-- The streams in which a prediction was lost to the redirect of another thread. -/
  overtaken : List UInt64
  /-- How often the thread was woken. -/
  wakes : Nat

namespace Lane

/-- The lane of a thread at the start of a run: nothing is there, and the thread is halted. -/
def start (entry : UInt64) : Lane :=
  { issued := [], exec := ⟨firstSeq, entry, false⟩, ops := [], expected := ⟨firstSeq, firstSeq⟩
    lines := [], fetch := ⟨.halted, entry, firstSeq, firstSeq⟩, redirects := [], predictions := []
    overtaken := [], wakes := 0 }

/-- The lane, with a halt pending or with none. -/
def pend (v : Lane) (haltPending : Bool) : Lane := { v with exec := { v.exec with haltPending } }

/-- The lane, with its thread woken. -/
def woken (v : Lane) : Lane :=
  { v with fetch := { v.fetch with state := .running }, wakes := v.wakes + 1 }

/-- What can happen to a lane. -/
inductive Step (k : Track) : Lane → Lane → Prop
  /-- A micro-op of an old stream is discarded. -/
  | squash (v : Lane) (o : MicroOp) (rest : List MicroOp) (hops : v.ops = o :: rest)
      (hold : o.streamSeq ≠ v.exec.streamSeq) : Step k v { v with ops := rest }
  /-- A micro-op is issued after which fetch is right. -/
  | issue (v : Lane) (o : MicroOp) (rest : List MicroOp) (th : ExecThread)
      (hops : v.ops = o :: rest) (hcur : o.streamSeq = v.exec.streamSeq)
      (hissue : v.exec.issue k.thread o = (th, none)) :
      Step k v { v with ops := rest, exec := th, issued := v.issued ++ [(o.pc, o.inst)] }
  /-- A micro-op is issued after which fetch has to go elsewhere. -/
  | raise (v : Lane) (o : MicroOp) (rest : List MicroOp) (th : ExecThread) (r : Redirect)
      (hops : v.ops = o :: rest) (hcur : o.streamSeq = v.exec.streamSeq)
      (hissue : v.exec.issue k.thread o = (th, some r)) (hfresh : k.fresh (v.exec.streamSeq + 1)) :
      Step k v { v with
        ops := rest, exec := th, issued := v.issued ++ [(o.pc, o.inst)]
        redirects := v.redirects ++ [r] }
  /-- A halt is sent. -/
  | halt (v : Lane) (hpending : v.exec.haltPending = true)
      (hfresh : k.fresh (v.exec.streamSeq + 1)) :
      Step k v { v with
        exec := (v.exec.halt k.thread).1
        redirects := v.redirects ++ [(v.exec.halt k.thread).2] }
  /-- A line that is not expected, or has no further word, is dropped. -/
  | drop (v : Lane) (l : Line) (rest : List Line) (hlines : v.lines = l :: rest)
      (hdone : ¬ l.Carries v.expected ∨ l.wordAt? l.pc = none) : Step k v { v with lines := rest }
  /-- A micro-op is cut from the oldest line. -/
  | cut (v : Lane) (l : Line) (rest : List Line) (inst : UInt32) (seq : UInt64)
      (hlines : v.lines = l :: rest) (hcarries : l.Carries v.expected)
      (hword : l.wordAt? l.pc = some inst)
      (hplain : k.predictJumps = true → ∀ offset, Isa.classify inst ≠ .jump offset) :
      Step k v { v with
        lines := l.enter (Isa.nextWord l.pc) :: rest
        ops := v.ops ++ [⟨.clear, l.pc, seq, l.streamSeq, inst, .clear, 0⟩] }
  /-- A jump is cut from the oldest line, and predicted. -/
  | cutJump (v : Lane) (l : Line) (rest : List Line) (inst : UInt32) (offset : Int)
      (seq : UInt64) (hlines : v.lines = l :: rest) (hcarries : l.Carries v.expected)
      (hword : l.wordAt? l.pc = some inst) (hjump : Isa.classify inst = .jump offset)
      (hfresh : k.fresh (v.expected.predictionSeq + 1)) :
      Step k v { v with
        lines := rest
        ops := v.ops ++
          [⟨.clear, l.pc, seq, l.streamSeq, inst, .set, Isa.displace l.pc offset⟩]
        expected := { v.expected with predictionSeq := v.expected.predictionSeq + 1 }
        predictions := v.predictions ++
          [.live .prediction k.thread (Isa.displace l.pc offset) l.streamSeq
            (v.expected.predictionSeq + 1)] }
  /-- A redirect arrives, and a prediction that arrives with it is passed over. -/
  | follow (v : Lane) (r : Redirect) (rest ps : List Redirect)
      (hredirects : v.redirects = r :: rest)
      (hps : ps = v.predictions ∨ ps = v.predictions.tail) :
      Step k v { v with
        redirects := rest, predictions := ps
        expected := ⟨r.newStreamSeq, r.newPredictionSeq⟩
        fetch := ⟨.after r.reason, r.target, r.newStreamSeq, r.newPredictionSeq⟩ }
  /-- A prediction arrives with the redirect of another thread, and is passed over. -/
  | overtake (v : Lane) (p : Redirect) (rest : List Redirect)
      (hpredictions : v.predictions = p :: rest) :
      Step k v { v with predictions := rest, overtaken := v.overtaken ++ [p.newStreamSeq] }
  /-- A prediction arrives for the stream in which the thread runs. -/
  | heed (v : Lane) (p : Redirect) (rest : List Redirect)
      (hpredictions : v.predictions = p :: rest) (hruns : v.fetch.state = .running)
      (hstream : p.newStreamSeq = v.fetch.streamSeq) :
      Step k v { v with
        predictions := rest
        fetch := { v.fetch with predictionSeq := p.newPredictionSeq, pc := p.target } }
  /-- A prediction arrives that is not for the stream in which the thread runs. -/
  | ignore (v : Lane) (p : Redirect) (rest : List Redirect)
      (hpredictions : v.predictions = p :: rest)
      (hold : ¬ (v.fetch.state = .running ∧ p.newStreamSeq = v.fetch.streamSeq)) :
      Step k v { v with predictions := rest }
  /-- The youngest line is cancelled, since the thread no longer asks for its like. -/
  | forget (v : Lane) (lines : List Line) (l : Line) (hlines : v.lines = lines ++ [l])
      (hold : ¬ l.Carries v.fetch.stamp) : Step k v { v with lines }
  /-- The thread asks for a line, and goes on after it. -/
  | request (v : Lane) (hruns : v.fetch.state = .running) :
      Step k v { v with
        lines := v.lines ++ [v.fetch.line k]
        fetch := { v.fetch with pc := v.fetch.lineBase k + k.lineBytes } }
  /-- The thread is woken. -/
  | wake (v : Lane) :
      Step k v { v with fetch := { v.fetch with state := .running }, wakes := v.wakes + 1 }

/-- A prediction that is on its way after a redirect was on its way before it. -/
theorem mem_of_passed {p : Redirect} {ps qs : List Redirect} (hps : ps = qs ∨ ps = qs.tail)
    (hp : p ∈ ps) : p ∈ qs := by
  rcases hps with rfl | rfl
  · exact hp
  · exact List.mem_of_mem_tail hp

/-- What any number of steps leads to. -/
abbrev Steps (k : Track) : Lane → Lane → Prop := Relation.ReflTransGen (Step k)

/-- To wake a thread, as often as it may be, is a sequence of steps. -/
theorem steps_woken {k : Track} (n : Nat) : ∀ v : Lane, Steps k v (woken^[n] v) := by
  induction n with
  | zero => exact fun _ => .refl
  | succ n ih => exact fun v => .head (.wake v) (ih v.woken)

/-- A step of the line fetch or of the slicer: micro-ops are only added to the lane, and redirects
only taken from it. -/
structure SupplyStep (k : Track) (v w : Lane) : Prop where
  step : Step k v w
  ops : v.ops <+: w.ops
  redirects : w.redirects <:+ v.redirects

/-- What any number of steps of the line fetch and of the slicer leads to. -/
abbrev SupplySteps (k : Track) : Lane → Lane → Prop := Relation.ReflTransGen (SupplyStep k)

namespace SupplySteps

variable {k : Track} {v w : Lane}

theorem steps (h : SupplySteps k v w) : Steps k v w :=
  Relation.ReflTransGen.mono (fun _ _ hs => SupplyStep.step hs) _ _ h

theorem ops (h : SupplySteps k v w) : v.ops <+: w.ops := by
  induction h with
  | refl => exact List.prefix_rfl
  | tail _ hlast ih => exact ih.trans hlast.ops

theorem redirects (h : SupplySteps k v w) : w.redirects <:+ v.redirects := by
  induction h with
  | refl => exact List.suffix_rfl
  | tail _ hlast ih => exact hlast.redirects.trans ih

end SupplySteps

end Lane

end InOrder
