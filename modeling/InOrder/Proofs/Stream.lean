import InOrder.Proofs.Evaluations
import InOrder.Proofs.Lane.Stream

/-!
# The instruction stream

What the line fetch and the slicer deliver for a thread, in a whole run without faults. The slicer
sends micro-ops (`sentIn`), each of a stream; the first stream begins at the entry of the program,
and every other one where a redirect leads that arrives (`startsIn`).

* `Session.streams_run_on`: every micro-op has the word of the image at its address, and the
  micro-ops of a stream run on from where it begins. The queues, the delays, the lines that are
  dropped and the other threads do not show.
* `Session.not_always_following`: a word that lies in two lines is skipped.
-/

namespace InOrder

/-! ## What arrives and what is sent -/

namespace Evaluation

/-- The micro-ops of thread `t` that the slicer sends. -/
def sent (t : UInt32) (v : Evaluation) : List MicroOp :=
  share t (v.writes.f2ToD.toList.flatMap Bundle.tagged)

/-- The redirects of thread `t` that arrive. -/
def told (t : UInt32) (v : Evaluation) : List Redirect :=
  redirectsOf t (present [v.pipeline.registers.eToF1.output])

end Evaluation

/-- The micro-ops of thread `t` that the slicer sends in some evaluations. -/
def sentIn (t : UInt32) (vs : List Evaluation) : List MicroOp := vs.flatMap (Evaluation.sent t)

/-- The streams of thread `t` that have begun after some evaluations from the start of a run. -/
def startsIn (m : Image) (t : UInt32) (vs : List Evaluation) : List StreamStart :=
  ⟨firstSeq, m.entry⟩ :: (vs.flatMap (Evaluation.told t)).map Redirect.start

theorem sentIn_append (t : UInt32) (vs vs' : List Evaluation) :
    sentIn t (vs ++ vs') = sentIn t vs ++ sentIn t vs' := List.flatMap_append

theorem startsIn_append (m : Image) (t : UInt32) (vs vs' : List Evaluation) :
    startsIn m t (vs ++ vs') =
      startsIn m t vs ++ (vs'.flatMap (Evaluation.told t)).map Redirect.start := by
  rw [startsIn, startsIn, List.flatMap_append, List.map_append, List.cons_append]

/-! ## A cycle -/

/-- In an evaluation each lane goes through steps of execute, and then through steps of the line
fetch and the slicer, which take what arrives and add what is sent. -/
theorem Pipeline.lane_supply {c : Config} {m : Image} {p : Pipeline Stages} {t : UInt32}
    {fresh : UInt64 → Prop} (hp : p.Sound c m) (ht : t.toNat < c.host.threads.toNat)
    (hfresh : ∀ x, ordinal x ≤ p.stats.cycles → fresh (x + 1)) (now : Nat) (h : History) :
    let v := p.lane h t
    let w := (p.evaluate now).pipeline.lane { h with
      retired := h.retired ++ (p.evaluate now).retired
      overtaken := h.overtaken ++ p.overtaken } t
    ∃ issued exec ops redirects,
      Lane.Steps (c.track m fresh t) v { v with issued, exec, ops, redirects } ∧
        Lane.SupplySteps (c.track m fresh t) { v with issued, exec, ops, redirects } w ∧
        w.ops = ops ++ Evaluation.sent t ⟨p, now⟩ ∧
        redirects = Evaluation.told t ⟨p, now⟩ ++ w.redirects := by
  obtain ⟨hholds, hretired⟩ := evaluate_holds hp.waiting hp.unitMode now
  intro v w
  have hw : w = laneOf (p.work now).stages (p.registers.write (p.work now).writes).advance
      { h with
        retired := h.retired ++ (p.work now).retired
        overtaken := h.overtaken ++ p.overtaken } t := by
    show Pipeline.lane _ _ t = _
    rw [lane, hholds.stages, hholds.registers, hretired]
  have hsent : Evaluation.sent t ⟨p, now⟩ =
      share t ((p.work now).writes.f2ToD.toList.flatMap Bundle.tagged) := by
    rw [Evaluation.sent, Evaluation.writes, struckWork_eq_work now hp.waiting hp.unitMode]
  rw [hw, hsent]
  exact laneOf_supply (hp.polled now) hp.registers ht hfresh (p.stats.cycles + 1) h

namespace Session

variable {c : Config} {m : Image} {s : Session} {t : UInt32} {vs : List Evaluation}

/-! ## A run -/

/-- The numbers of a lane are right, and its streams have run on through some evaluations. -/
structure Streams (c : Config) (m : Image) (t : UInt32) (vs : List Evaluation) (v : Lane) :
    Prop where
  numbered : v.Numbered
  delivers : v.Delivers (c.track m (· ≠ firstSeq) t) (startsIn m t vs) (sentIn t vs)

namespace Streams

variable {v w : Lane}

theorem start (c : Config) (m : Image) (t : UInt32) : Streams c m t [] (.start m.entry) :=
  ⟨.start m.entry, .start (c.track m (· ≠ firstSeq) t)⟩

theorem pend (h : Streams c m t vs v) (haltPending : Bool) :
    Streams c m t vs (v.pend haltPending) :=
  ⟨h.numbered.pend haltPending, h.delivers.serve v.issued _ v.ops v.redirects⟩

theorem woken (h : Streams c m t vs v) : Streams c m t vs v.woken := by
  refine ⟨h.numbered.step (k := c.track m (· ≠ firstSeq) t) (fun _ hx => hx) (.wake v), ?_⟩
  exact h.delivers.keep rfl h.delivers.lines fun a ha => ⟨a, ha, rfl⟩

theorem wokenOften (h : Streams c m t vs v) (n : Nat) :
    Streams c m t vs (Lane.woken^[n] v) := by
  induction n with
  | zero => exact h
  | succ n ih =>
    rw [Function.iterate_succ_apply']
    exact ih.woken

/-- Execute does not touch the streams. The line fetch and the slicer go on with them. -/
theorem cycle (hk : (c.track m (· ≠ firstSeq) t).Whole) (h : Streams c m t vs v)
    {issued : List (UInt64 × UInt32)} {exec : ExecThread} {ops : List MicroOp}
    {redirects : List Redirect} {e : Evaluation}
    (hexecute : Lane.Steps (c.track m (· ≠ firstSeq) t) v { v with issued, exec, ops, redirects })
    (hsupply : Lane.SupplySteps (c.track m (· ≠ firstSeq) t)
      { v with issued, exec, ops, redirects } w)
    (hops : w.ops = ops ++ e.sent t) (hredirects : redirects = e.told t ++ w.redirects)
    (hfits : ∀ o ∈ e.sent t, LineFits c.pipeline.lineBytes.toUInt64 o.pc) :
    Streams c m t (vs ++ [e]) w := by
  have hnumbered := h.numbered.steps (fun _ hx => hx) hexecute
  refine ⟨hnumbered.steps (fun _ hx => hx) hsupply.steps, ?_⟩
  have hdelivers := (h.delivers.serve issued exec ops redirects).steps hk (fun _ hx => hx) hnumbered
    hsupply hops hredirects hfits
  rwa [startsIn_append, sentIn_append, sentIn, sentIn, List.flatMap_singleton,
    List.flatMap_singleton]

end Streams

/-- What holds of a session with its evaluations while their count and the addresses fit in words. -/
def Streaming (c : Config) (m : Image) (t : UInt32) (s : Session) (vs : List Evaluation) : Prop :=
  s.Sound c m ∧ (s.pipeline.stats.cycles < UInt64.size →
    (∀ o ∈ sentIn t vs, LineFits c.pipeline.lineBytes.toUInt64 o.pc) →
      Streams c m t vs (s.lane t))

namespace Streaming

theorem step (hk : (c.track m (· ≠ firstSeq) t).Whole) (ht : t.toNat < c.host.threads.toNat)
    (h : Streaming c m t s vs) : Streaming c m t s.step (vs ++ s.evaluationOfStep) := by
  obtain ⟨hsound, hstreams⟩ := h
  refine ⟨hsound.step, fun hcycles hfits => ?_⟩
  have hbefore := hstreams (Nat.lt_of_le_of_lt s.cycles_le_step hcycles) fun o ho =>
    hfits o (sentIn_append t vs s.evaluationOfStep ▸ List.mem_append_left _ ho)
  cases hrun : s.pipeline.running with
  | false =>
    obtain ⟨hp, hh⟩ := pipeline_step_of_stopped hrun
    have hnone : s.evaluationOfStep = [] := by
      rw [evaluationOfStep, hrun]
      rfl
    rw [hnone, List.append_nil, lane, hp, hh]
    exact hbefore
  | true =>
    obtain ⟨hp, hh⟩ := pipeline_step hrun
    have hone : s.evaluationOfStep = [⟨s.pipeline, s.simulator.tick + s.simulator.period⟩] := by
      rw [evaluationOfStep, if_pos hrun]
    have hfresh : ∀ x, ordinal x ≤ s.pipeline.stats.cycles → x + 1 ≠ firstSeq := fun x hx =>
      add_one_ne_firstSeq hx (cycles_step hrun ▸ hcycles)
    obtain ⟨issued, exec, ops, redirects, hexecute, hsupply, hops, hredirects⟩ :=
      @Pipeline.lane_supply c m s.pipeline t (· ≠ firstSeq) hsound.pipeline ht hfresh
        (s.simulator.tick + s.simulator.period) s.history
    rw [hone] at hfits ⊢
    rw [lane, hp, hh]
    refine hbefore.cycle hk hexecute hsupply hops hredirects fun o ho => hfits o ?_
    rw [sentIn_append]
    exact List.mem_append_right _ (List.mem_flatMap.mpr ⟨_, List.mem_singleton_self _, ho⟩)

theorem wake (ht : t.toNat < c.host.threads.toNat) (h : Streaming c m t s vs) (t' : UInt32) :
    Streaming c m t (s.wake t') vs := by
  refine ⟨h.1.wake t', fun hcycles hfits => ?_⟩
  have hlane : (s.wake t').lane t = _ :=
    Pipeline.lane_wakeAll_eq ht [t'] s.history h.1.pipeline
  rw [hlane]
  exact (h.2 hcycles hfits).wokenOften _

theorem wakeAll (ht : t.toNat < c.host.threads.toNat) (h : Streaming c m t s vs) :
    Streaming c m t s.wakeAll vs := by
  refine ⟨h.1.wakeAll, fun hcycles hfits => ?_⟩
  have hlane : s.wakeAll.lane t = _ :=
    Pipeline.lane_wakeAll_eq ht s.threadNumbers s.history h.1.pipeline
  rw [hlane]
  exact (h.2 (Nat.lt_of_le_of_lt (s.cycles_le_after [.wakeAll]) hcycles) hfits).wokenOften _

theorem drain (ht : t.toNat < c.host.threads.toNat) (h : Streaming c m t s vs) :
    Streaming c m t s.drain vs := by
  refine ⟨h.1.drain, fun hcycles hfits => ?_⟩
  rw [lane_drain h.1 ht]
  exact (h.2 (Nat.lt_of_le_of_lt (s.cycles_le_after [.drain]) hcycles) hfits).pend true

theorem resume (ht : t.toNat < c.host.threads.toNat) (h : Streaming c m t s vs) :
    Streaming c m t s.resume vs := by
  refine ⟨h.1.resume, fun hcycles hfits => ?_⟩
  have hwoken := Pipeline.lane_wakeAll_eq ht (Pipeline.threadNumbers s.simulator.host.threads)
    s.history h.1.pipeline
  have hlane : s.resume.lane t = _ :=
    (Pipeline.lane_resume_eq h.1.pipeline ht s.simulator.host.threads _).trans
      (congrArg (Lane.pend · false) hwoken)
  rw [hlane]
  have hbefore := Nat.lt_of_le_of_lt (s.cycles_le_after [.resume]) hcycles
  exact ((h.2 hbefore hfits).wokenOften _).pend false

end Streaming

/-- **The instruction stream has no gaps**, but for words that lie in two lines. In a run without
faults in which the count of evaluations and the addresses fit in words, every micro-op that the
slicer sends for a thread has the word of the image at its address, and is of a stream that has
begun. The micro-ops of each stream run on: the first is where the redirect, or the entry of the
program, has told, and every other is where the one before it was predicted to lead, or at the next
word. Where the word at such an address lies in two lines, the one at the start of the second line
comes in its place; no multiple of four is such an address. -/
theorem streams_run_on (hc : c.FaultFree) (hnew : Session.new c m = .ok s) (calls : List Call)
    (hcycles : (s.after calls).pipeline.stats.cycles < UInt64.size)
    (ht : t.toNat < c.host.threads.toNat)
    (hfits : ∀ o ∈ sentIn t (s.evaluations calls),
      LineFits c.pipeline.lineBytes.toUInt64 o.pc) :
    (∀ o ∈ sentIn t (s.evaluations calls), o.inst = m.wordAt o.pc ∧
        o.streamSeq ∈ (startsIn m t (s.evaluations calls)).map StreamStart.streamSeq) ∧
      (∀ start ∈ startsIn m t (s.evaluations calls),
        RunsOn c.pipeline.lineBytes.toUInt64 start.pc
          (opsOf start.streamSeq (sentIn t (s.evaluations calls)))) ∧
      ∀ a : UInt64, a.toNat % 4 = 0 → firstWord c.pipeline.lineBytes.toUInt64 a = a := by
  obtain ⟨hsound, hlane, hwhole⟩ := of_new_eq_ok (t := t) hc hnew
  have hk := hwhole (· ≠ firstSeq)
  have hstart : Streaming c m t s [] := ⟨hsound, fun _ _ => (hlane ht).symm ▸ .start c m t⟩
  obtain ⟨-, hstreams⟩ := log_induction (P := Streaming c m t) (fun _ _ h => h.step hk ht)
    (fun _ _ t' h => h.wake ht t') (fun _ _ h => h.wakeAll ht) (fun _ _ h => h.drain ht)
    (fun _ _ h => h.resume ht) calls hstart
  have hdelivers := (hstreams hcycles hfits).delivers
  refine ⟨fun o ho => ⟨hdelivers.words o ho, hdelivers.started o ho⟩, hdelivers.runs, ?_⟩
  intro a ha
  exact firstWord_of_aligned hk ha

end Session

/-- A machine that predicts jumps. -/
def Config.foresighted : Config := { pipeline := { predictJumps := true } }

/-- A jump over one word, and a word that suspends, in a program that does not begin at a multiple
of four. -/
def Image.shifted : Image := .ofWords 0x80000002 [0x0080006f, 19, 115, 19, 19, 19, 19, 19]

/-- A thread is woken, and woken again when it was suspended. -/
def rewokenCalls : List Call :=
  .wake 0 :: List.replicate 11 .step ++ .wake 0 :: List.replicate 4 .step

/-- The first stream goes on where its jump leads, and passes over the word at `0x8000000e`, which
begins two bytes before the end of a line. So does the second stream, which begins there. -/
theorem streams_run_on_shifted : ∃ s, Session.new .foresighted .shifted = .ok s ∧
    startsIn .shifted 0 (s.evaluations rewokenCalls) = [⟨1, 0x80000002⟩, ⟨2, 0x8000000e⟩] ∧
    ((opsOf 1 (sentIn 0 (s.evaluations rewokenCalls))).map MicroOp.pc).take 4 =
      [0x80000002, 0x8000000a, 0x80000010, 0x80000014] ∧
    ((opsOf 2 (sentIn 0 (s.evaluations rewokenCalls))).map MicroOp.pc).take 2 =
      [0x80000010, 0x80000014] ∧
    ∀ start ∈ startsIn .shifted 0 (s.evaluations rewokenCalls),
      RunsOn 16 start.pc (opsOf start.streamSeq (sentIn 0 (s.evaluations rewokenCalls))) := by
  obtain ⟨s, hnew, hcycles, hfits, hstarts, hfirst, hsecond⟩ :
      ∃ s, Session.new .foresighted .shifted = .ok s ∧
        (s.after rewokenCalls).pipeline.stats.cycles < UInt64.size ∧
        (∀ o ∈ sentIn 0 (s.evaluations rewokenCalls), LineFits 16 o.pc) ∧
        startsIn .shifted 0 (s.evaluations rewokenCalls) = [⟨1, 0x80000002⟩, ⟨2, 0x8000000e⟩] ∧
        ((opsOf 1 (sentIn 0 (s.evaluations rewokenCalls))).map MicroOp.pc).take 4 =
          [0x80000002, 0x8000000a, 0x80000010, 0x80000014] ∧
        ((opsOf 2 (sentIn 0 (s.evaluations rewokenCalls))).map MicroOp.pc).take 2 =
          [0x80000010, 0x80000014] :=
    ⟨_, rfl, by decide +kernel⟩
  have hruns := Session.streams_run_on (t := 0) ⟨rfl, rfl⟩ hnew rewokenCalls hcycles (by decide)
    hfits
  exact ⟨s, hnew, hstarts, hfirst, hsecond, hruns.2.1⟩

/-- **A micro-op is not always followed by the one where it leads**: in the machine of the defaults,
a thread that has the word at `0x8000000a` goes on at `0x80000010`. -/
theorem not_always_following :
    ¬ ∀ (c : Config) (m : Image) (s : Session) (calls : List Call) (t : UInt32) (x : UInt64)
        (o o' : MicroOp), c.FaultFree → Session.new c m = .ok s →
      (s.after calls).simulator.tick < UInt64.size → t.toNat < c.host.threads.toNat →
      (∀ o ∈ sentIn t (s.evaluations calls), LineFits c.pipeline.lineBytes.toUInt64 o.pc) →
      [o, o'] <:+: opsOf x (sentIn t (s.evaluations calls)) → o'.pc = o.following := by
  intro hfollows
  obtain ⟨s, hnew, hclock, hfits, hinfix⟩ :
      ∃ s, Session.new {} (.ofWords 0x80000002 [19, 19, 19, 19, 115]) = .ok s ∧
        (s.after (.wakeAll :: List.replicate 8 .step)).simulator.tick < UInt64.size ∧
        (∀ o ∈ sentIn 0 (s.evaluations (.wakeAll :: List.replicate 8 .step)), LineFits 16 o.pc) ∧
        [⟨.clear, 0x8000000a, 3, 1, 19, .clear, 0⟩,
          ⟨.clear, 0x80000010, 4, 1, 0x730000, .clear, 0⟩] <:+:
            opsOf 1 (sentIn 0 (s.evaluations (.wakeAll :: List.replicate 8 .step))) :=
    ⟨_, rfl, by decide +kernel⟩
  have hpc := hfollows _ _ s _ 0 1 _ _ ⟨rfl, rfl⟩ hnew hclock (by decide) hfits hinfix
  exact absurd hpc (by decide)

end InOrder
