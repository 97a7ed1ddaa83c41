import InOrder.Proofs.Images
import InOrder.Proofs.Pipeline.Faults

/-!
# A flip in a register strikes once, and there only

Two pipelines differ in nothing but a flip that waits in one of them (`Pipeline.armed`). They are
called in the same way, and evaluated at the same ticks.

Before its tick the flip goes along with whatever happens to the pipeline
(`Pipeline.evaluate_armed`). At its tick it is consumed, after the bubbles of the cycle have been
observed. If there is such a bit, the payload that the stages read from its register differs in that
bit (`Pipeline.struck_armed`). A flip that hits nothing leaves no trace (`Pipeline.evaluate_spent`).

* `Pipeline.flip_isolated`: until its tick the flip changes nothing; then it changes one bit of what
  the stages read, or nothing for ever.
-/

namespace InOrder

/-! ## A register with a flip -/

namespace Register

variable {α : Type} [Payload α] {r : Register α} {f : Flip} {now : Nat}

/-- A flip waits for its tick. -/
theorem inject_early (h : now < f.tick) :
    ({ r with flip := some f } : Register α).inject now = ({ r with flip := some f }, .idle) :=
  if_pos h

/-- A flip whose tick has passed is dropped, and so is one of a bit that the payload does not
have. -/
theorem inject_spent (hr : r.flip = none) (h : f.tick ≤ now)
    (hmiss : f.tick = now → Payload.bitCount r.output ≤ f.bit) :
    ∃ i, (i ≠ .idle ∧ ∀ e, FaultLog.record e now i = []) ∧
      ({ r with flip := some f } : Register α).inject now = (r, i) := by
  have hnone : ({ r with flip := none } : Register α) = r := by rw [← hr]
  unfold inject
  dsimp only
  rw [if_neg (Nat.not_lt.mpr h), hnone]
  by_cases hlate : f.tick < now
  · rw [if_pos hlate]
    exact ⟨_, ⟨Injection.noConfusion, fun _ => rfl⟩, rfl⟩
  · have hdue : f.tick = now := by omega
    rw [if_neg hlate, Payload.flip?_eq_none_iff.mpr (hmiss hdue)]
    exact ⟨_, ⟨Injection.noConfusion, fun _ => rfl⟩, rfl⟩

/-- A flip of a bit that the payload has is applied. -/
theorem inject_due (hr : r.flip = none) (h : f.tick = now)
    (hbit : f.bit < Payload.bitCount r.output) : ∃ a, Payload.flip? r.output f.bit = some a ∧
    ({ r with flip := some f } : Register α).inject now = (r.setOutput a, .applied f.bit) := by
  have hnone : ({ r with flip := none } : Register α) = r := by rw [← hr]
  have hnot : ¬ now < f.tick ∧ ¬ f.tick < now := by omega
  cases ha : Payload.flip? r.output f.bit with
  | none => exact absurd (Payload.flip?_eq_none_iff.mp ha) (Nat.not_le.mpr hbit)
  | some a =>
    refine ⟨a, rfl, ?_⟩
    unfold inject
    dsimp only
    rw [if_neg hnot.1, if_neg hnot.2, hnone, ha]

end Register

/-! ## The registers with a flip in one of them -/

/-- What stands at the outputs agrees, but for that of one edge. -/
structure Outputs.AgreeBut (e : Edge) (o o' : Outputs) : Prop where
  lines : e ≠ .f1ToF2 → o'.f1ToF2 = o.f1ToF2
  cut : e ≠ .f2ToD → o'.f2ToD = o.f2ToD
  decoded : e ≠ .dToE → o'.dToE = o.dToE
  redirects : e ≠ .eToF1 → o'.eToF1 = o.eToF1
  predictions : e ≠ .f2ToF1 → o'.f2ToF1 = o.f2ToF1

namespace Registers

/-- The image of what stands at the output of an edge. -/
def image (rs : Registers) (e : Edge) : List UInt8 := rs.view e fun r => Payload.encode r.output

/-- The bits of that image. -/
def bits (rs : Registers) (e : Edge) : Nat := rs.view e fun r => Payload.bitCount r.output

/-- No flip is scheduled in the register of an edge. -/
def Unarmed (rs : Registers) (e : Edge) : Prop := rs.view e fun r => r.flip = none

variable {rs : Registers} {e : Edge} {f : Flip} {now : Nat} {w : Writes}

theorem write_armed : (rs.armed e f).write w = (rs.write w).armed e f := by
  have hwrite : ∀ {α : Type} (r : Register α) (a : Option α),
      ({ r with flip := some f } : Register α).write? a = { r.write? a with flip := some f } := by
    intro α r a
    cases a <;> rfl
  cases e <;> simp only [write, armed, change, hwrite]

theorem advance_armed : (rs.armed e f).advance = rs.advance.armed e f := by cases e <;> rfl

theorem outputs_armed : (rs.armed e f).outputs = rs.outputs := by cases e <;> rfl

theorem snapshot_armed : (rs.armed e f).snapshot = rs.snapshot := by cases e <;> rfl

theorem isEmpty_armed : (rs.armed e f).isEmpty = rs.isEmpty := by
  funext e'
  cases e <;> cases e' <;> rfl

theorem Unarmed.cycle (h : rs.Unarmed e) : (rs.write w).advance.Unarmed e := by
  have hflip : ∀ {α : Type} (r : Register α) (a : Option α),
      (r.write? a).advance.flip = r.flip := by
    intro α r a
    cases a <;> rfl
  cases e <;> exact (hflip _ _).trans h

theorem inject_armed_early (h : now < f.tick) :
    (rs.armed e f).inject e now = (rs.armed e f, .idle) := by
  cases e <;> simp only [inject, armed, change, Register.inject_early h]

theorem inject_armed_spent (hrs : rs.Unarmed e) (h : f.tick ≤ now)
    (hmiss : f.tick = now → rs.bits e ≤ f.bit) :
    ∃ i, (i ≠ .idle ∧ ∀ e, FaultLog.record e now i = []) ∧
      (rs.armed e f).inject e now = (rs, i) := by
  cases e <;>
  · obtain ⟨i, hi, heq⟩ := Register.inject_spent hrs h hmiss
    refine ⟨i, hi, ?_⟩
    simp only [inject, armed, change, heq]

theorem inject_armed_due (hrs : rs.Unarmed e) (h : f.tick = now) (hbit : f.bit < rs.bits e) :
    ((rs.armed e f).inject e now).2 = .applied f.bit ∧
      rs.outputs.AgreeBut e ((rs.armed e f).inject e now).1.outputs ∧
      Payload.DiffersAt f.bit (rs.image e) (((rs.armed e f).inject e now).1.image e) := by
  cases e <;>
  · obtain ⟨a, ha, heq⟩ := Register.inject_due hrs h hbit
    simp only [inject, armed, change, heq]
    refine ⟨trivial, ?_, Payload.differsAt_of_flip? ha⟩
    constructor <;> intro hne <;> first | rfl | exact absurd rfl hne

end Registers

/-! ## The log with a flip in one register -/

namespace FaultLog

variable {rs : Registers} {e : Edge} {f : Flip} {now : Nat}

/-- The log in which one edge waits for a flip. -/
def await (e : Edge) : FaultLog := ⟨[e], []⟩

/-- The one edge that waits is asked. -/
theorem evaluate_await (e : Edge) (now : Nat) (rs : Registers) :
    ((await e).evaluate now rs).1 =
        ⟨if (rs.inject e now).2 = .idle then [e] else [], record e now (rs.inject e now).2⟩ ∧
      ((await e).evaluate now rs).2.1 = (rs.inject e now).1 := by
  constructor
  · simp [evaluate, await, ask]
  · rfl

theorem evaluate_await_early (h : now < f.tick) :
    ((await e).evaluate now (rs.armed e f)).1 = await e ∧
      ((await e).evaluate now (rs.armed e f)).2.1 = rs.armed e f := by
  obtain ⟨hlog, hregisters⟩ := evaluate_await e now (rs.armed e f)
  rw [hlog, hregisters, Registers.inject_armed_early h]
  exact ⟨rfl, rfl⟩

theorem evaluate_await_spent (hrs : rs.Unarmed e) (h : f.tick ≤ now)
    (hmiss : f.tick = now → rs.bits e ≤ f.bit) :
    ((await e).evaluate now (rs.armed e f)).1 = {} ∧
      ((await e).evaluate now (rs.armed e f)).2.1 = rs := by
  obtain ⟨i, ⟨hidle, hrecord⟩, heq⟩ := Registers.inject_armed_spent hrs h hmiss
  obtain ⟨hlog, hregisters⟩ := evaluate_await e now (rs.armed e f)
  rw [hlog, hregisters, heq, if_neg hidle, hrecord]
  exact ⟨rfl, rfl⟩

theorem evaluate_await_due (hrs : rs.Unarmed e) (h : f.tick = now) (hbit : f.bit < rs.bits e) :
    ((await e).evaluate now (rs.armed e f)).1 = ⟨[], [⟨e, now, f.bit⟩]⟩ ∧
      rs.outputs.AgreeBut e ((await e).evaluate now (rs.armed e f)).2.1.outputs ∧
      Payload.DiffersAt f.bit (rs.image e)
        (((await e).evaluate now (rs.armed e f)).2.1.image e) := by
  obtain ⟨happlied, hagree, hdiffers⟩ := Registers.inject_armed_due hrs h hbit
  obtain ⟨hlog, hregisters⟩ := evaluate_await e now (rs.armed e f)
  rw [hlog, hregisters, happlied]
  exact ⟨rfl, hagree, hdiffers⟩

end FaultLog

/-! ## A pipeline with a flip in one register -/

namespace Pipeline

/-- The pipeline with a flip that waits in the register of an edge. -/
def armed (p : Pipeline Stages) (e : Edge) (f : Flip) : Pipeline Stages :=
  { p with registers := p.registers.armed e f, faults := .await e }

/-- No flip was applied, none waits, and none is scheduled in the register of an edge. -/
structure Plain (e : Edge) (p : Pipeline Stages) : Prop where
  faults : p.faults = {}
  registers : p.registers.Unarmed e

variable {p : Pipeline Stages} {e : Edge} {f : Flip} {now : Nat}

theorem Plain.evaluate (h : p.Plain e) : (p.evaluate now).pipeline.Plain e := by
  have hwaiting : p.faults.waiting = [] := by rw [h.faults]
  obtain ⟨hregisters, hfaults⟩ := registers_struck now hwaiting
  obtain ⟨-, hafter, -, hlog⟩ := p.evaluate_struck now
  refine ⟨by rw [hlog, hfaults, h.faults], ?_⟩
  rw [hafter, hregisters]
  exact h.registers.cycle

theorem isDrained_armed : (p.armed e f).isDrained = p.isDrained :=
  congrArg (fun isEmpty => (StageSet.drained p.stages).toList.all id && Edge.all.all isEmpty)
    Registers.isEmpty_armed

theorem runStages_armed : (p.armed e f).runStages.1 = p.runStages.1.armed e f := by
  unfold runStages
  simp only [armed, Registers.outputs_armed, Registers.write_armed]

theorem settle_armed : (p.armed e f).settle.1 = p.settle.1.armed e f := by
  have hdue : (p.armed e f).signalDue = p.signalDue := rfl
  unfold settle
  rw [isDrained_armed, hdue]
  split
  · split <;> rfl
  · rfl

theorem idle_armed : (p.armed e f).idle.1 = p.idle.1.armed e f := by
  have hallow : (p.armed e f).allowIdling = p.allowIdling := rfl
  unfold idle
  rw [hallow]
  split <;> rfl

/-! ### A cycle with a flip in one register -/

/-- Flips in the units have nothing to do with the registers. -/
theorem struck_armed_eq : (p.armed e f).struck now =
    { p.struck now with
      faults := ((FaultLog.await e).evaluate now (p.registers.armed e f)).1
      registers := ((FaultLog.await e).evaluate now (p.registers.armed e f)).2.1 } := by
  have hunits : ∀ (q : Pipeline Stages) (faults : FaultLog) (registers : Registers),
      ({ q with faults, registers } : Pipeline Stages).injectUnits.1 =
        { q.injectUnits.1 with faults, registers } := by
    intro q faults registers
    have hdue : ({ q with faults, registers } : Pipeline Stages).unitFaultDue = q.unitFaultDue :=
      rfl
    unfold injectUnits
    rw [hdue]
    split <;> rfl
  exact hunits { p.begin with
    faults := (p.faults.evaluate now p.registers).1
    registers := (p.faults.evaluate now p.registers).2.1
    stages := p.polled now } _ _

/-- What the faults of a cycle leave of a pipeline in which none waits. -/
theorem Plain.struck (h : p.Plain e) :
    (p.struck now).registers = p.registers ∧ (p.struck now).faults = {} := by
  have hwaiting : p.faults.waiting = [] := by rw [h.faults]
  obtain ⟨hregisters, hfaults⟩ := registers_struck now hwaiting
  exact ⟨hregisters, hfaults.trans h.faults⟩

/-- **Before its tick a flip goes along.** -/
theorem evaluate_armed (h : p.Plain e) (hnow : now < f.tick) :
    ((p.armed e f).evaluate now).pipeline = (p.evaluate now).pipeline.armed e f := by
  have hstruck : (p.armed e f).struck now = (p.struck now).armed e f := by
    obtain ⟨hlog, hregisters⟩ := FaultLog.evaluate_await_early hnow
    rw [struck_armed_eq, hlog, hregisters, armed, h.struck.1]
  have hfinished : (p.armed e f).finished now = (p.finished now).armed e f := by
    have hsnapshot : (p.armed e f).registers.snapshot = p.registers.snapshot :=
      Registers.snapshot_armed
    unfold finished
    rw [hstruck, runStages_armed, hsnapshot]
    simp only [armed, account, Registers.advance_armed]
  rw [(evaluate_eq_finished _ now).1, (evaluate_eq_finished p now).1, hfinished, idle_armed,
    settle_armed]

/-- **A flip that hits nothing leaves no trace.** -/
theorem evaluate_spent (h : p.Plain e) (hnow : f.tick ≤ now)
    (hmiss : f.tick = now → p.registers.bits e ≤ f.bit) :
    ((p.armed e f).evaluate now).pipeline = (p.evaluate now).pipeline := by
  have hstruck : (p.armed e f).struck now = p.struck now := by
    obtain ⟨hlog, hregisters⟩ := FaultLog.evaluate_await_spent h.registers hnow hmiss
    rw [struck_armed_eq, hlog, hregisters, ← h.struck.1, ← h.struck.2]
  have hfinished : (p.armed e f).finished now = p.finished now := by
    have hsnapshot : (p.armed e f).registers.snapshot = p.registers.snapshot :=
      Registers.snapshot_armed
    unfold finished
    rw [hstruck, hsnapshot]
  rw [(evaluate_eq_finished _ now).1, (evaluate_eq_finished p now).1, hfinished]

/-- **A flip of a bit that is there changes that bit** of what the stages read. -/
theorem struck_armed (h : p.Plain e) (hnow : f.tick = now) (hbit : f.bit < p.registers.bits e) :
    ((p.armed e f).struck now).faults = ⟨[], [⟨e, now, f.bit⟩]⟩ ∧
      (p.struck now).registers.outputs.AgreeBut e
        ((p.armed e f).struck now).registers.outputs ∧
      Payload.DiffersAt f.bit ((p.struck now).registers.image e)
        (((p.armed e f).struck now).registers.image e) := by
  rw [struck_armed_eq, h.struck.1]
  exact FaultLog.evaluate_await_due h.registers hnow hbit

end Pipeline

/-! ## Sequences of calls -/

/-- What a host can do with a pipeline. -/
inductive Order where
  | evaluate (now : Nat)
  | wake (thread : UInt32)
  | drain
  | resume (threads : Nat)
  | start
  | stop

/-- The tick of an evaluation. -/
def Order.tick? : Order → Option Nat
  | evaluate now => some now
  | _ => none

theorem Order.eq_evaluate {o : Order} {now : Nat} (h : o.tick? = some now) : o = .evaluate now := by
  cases o <;> cases h
  rfl

/-- The ticks of all evaluations, in order. -/
def ticks (orders : List Order) : List Nat := orders.filterMap Order.tick?

namespace Pipeline

/-- The pipeline after a call. -/
def perform (p : Pipeline Stages) : Order → Pipeline Stages
  | .evaluate now => (p.evaluate now).pipeline
  | .wake thread => (p.wakeFetch thread).1
  | .drain => p.drain.1
  | .resume threads => (p.resume threads).1
  | .start => p.start
  | .stop => p.stop

/-- The pipeline after several calls. -/
def performAll (p : Pipeline Stages) (orders : List Order) : Pipeline Stages :=
  orders.foldl perform p

theorem performAll_append (p : Pipeline Stages) (orders more : List Order) :
    p.performAll (orders ++ more) = (p.performAll orders).performAll more := List.foldl_append

variable {p : Pipeline Stages} {e : Edge} {f : Flip}

/-! ### What no call but an evaluation changes -/

/-- Neither registers nor faults are touched. -/
def SameFaults (p q : Pipeline Stages) : Prop := q.registers = p.registers ∧ q.faults = p.faults

theorem sameFaults_perform (p : Pipeline Stages) {o : Order} (ho : o.tick? = none) :
    p.SameFaults (p.perform o) := by
  cases o with
  | evaluate now => nomatch ho
  | wake thread => exact ⟨rfl, rfl⟩
  | drain =>
    simp only [perform, drain]
    split <;> exact ⟨rfl, rfl⟩
  | resume threads =>
    exact wakeAll_induction (P := p.SameFaults) (fun _ _ h => h) (threadNumbers threads) ⟨rfl, rfl⟩
  | start => exact ⟨rfl, rfl⟩
  | stop => exact ⟨rfl, rfl⟩

theorem wakeAll_armed : ∀ (threads : List UInt32) (p : Pipeline Stages),
    ((p.armed e f).wakeAll threads).1 = (p.wakeAll threads).1.armed e f
  | [], _ => rfl
  | t :: ts, p => wakeAll_armed ts (p.wakeFetch t).1

/-- A flip goes along with every call but an evaluation. -/
theorem perform_armed (p : Pipeline Stages) {o : Order} (ho : o.tick? = none) :
    (p.armed e f).perform o = (p.perform o).armed e f := by
  cases o with
  | evaluate now => nomatch ho
  | wake thread => rfl
  | drain =>
    have hstages : ({ p.armed e f with stages := StageSet.drain p.stages } : Pipeline Stages) =
        ({ p with stages := StageSet.drain p.stages } : Pipeline Stages).armed e f := rfl
    have hsame : (p.armed e f).stages = p.stages := rfl
    simp only [perform, drain, hsame, hstages, isDrained_armed]
    split <;> rfl
  | resume threads =>
    simp only [perform, resume, wakeAll_armed]
    rfl
  | start => rfl
  | stop => rfl

theorem Plain.perform (h : p.Plain e) (o : Order) : (p.perform o).Plain e := by
  cases ho : o.tick? with
  | none =>
    obtain ⟨hregisters, hfaults⟩ := p.sameFaults_perform ho
    exact ⟨hfaults.trans h.faults, hregisters ▸ h.registers⟩
  | some now =>
    obtain rfl := Order.eq_evaluate ho
    exact h.evaluate

theorem Plain.performAll (h : p.Plain e) (orders : List Order) : (p.performAll orders).Plain e := by
  induction orders generalizing p with
  | nil => exact h
  | cons o os ih => exact ih (h.perform o)

/-! ### What becomes of a flip -/

/-- Until its tick a flip goes along with all calls. -/
theorem performAll_armed {orders : List Order} (h : p.Plain e)
    (hearly : ∀ now ∈ ticks orders, now < f.tick) :
    (p.armed e f).performAll orders = (p.performAll orders).armed e f := by
  induction orders generalizing p with
  | nil => rfl
  | cons o os ih =>
    have hstep : (p.armed e f).perform o = (p.perform o).armed e f := by
      cases ho : o.tick? with
      | none => exact perform_armed p ho
      | some now =>
        have hnow : now < f.tick := hearly now (List.mem_filterMap.mpr ⟨o, List.mem_cons_self, ho⟩)
        obtain rfl := Order.eq_evaluate ho
        exact evaluate_armed h hnow
    have hrest : ∀ now ∈ ticks os, now < f.tick := by
      intro now hnow
      obtain ⟨o', ho', htick⟩ := List.mem_filterMap.mp hnow
      exact hearly now (List.mem_filterMap.mpr ⟨o', List.mem_cons_of_mem o ho', htick⟩)
    exact (congrArg (Pipeline.performAll · os) hstep).trans (ih (h.perform o) hrest)

/-- **A flip that finds no bit at its tick changes nothing**, neither before nor after. -/
theorem performAll_spent {orders : List Order} (h : p.Plain e)
    (hmiss : ∀ before after, orders = before ++ .evaluate f.tick :: after →
      (p.performAll before).registers.bits e ≤ f.bit) :
    (p.armed e f).performAll orders = p.performAll orders ∨
      (p.armed e f).performAll orders = (p.performAll orders).armed e f := by
  induction orders generalizing p with
  | nil => exact .inr rfl
  | cons o os ih =>
    have hrest : (p.armed e f).perform o = (p.perform o).armed e f →
        (p.armed e f).performAll (o :: os) = p.performAll (o :: os) ∨
          (p.armed e f).performAll (o :: os) = (p.performAll (o :: os)).armed e f := by
      intro hstep
      have hsame := congrArg (Pipeline.performAll · os) hstep
      exact (ih (h.perform o) fun before after hsplit =>
        hmiss (o :: before) after (congrArg (o :: ·) hsplit)).imp hsame.trans hsame.trans
    cases ho : o.tick? with
    | none => exact hrest (perform_armed p ho)
    | some now =>
      obtain rfl := Order.eq_evaluate ho
      by_cases hnow : now < f.tick
      · exact hrest (evaluate_armed h hnow)
      · have hspent : ((p.armed e f).evaluate now).pipeline = (p.evaluate now).pipeline :=
          evaluate_spent h (Nat.not_lt.mp hnow) fun hdue => hmiss [] os (hdue ▸ rfl)
        exact .inl (congrArg (Pipeline.performAll · os) hspent)

/-- What was applied stays in the log, and nothing is added where no flip waits. -/
theorem faults_performAll (h : p.faults.waiting = []) (orders : List Order) :
    (p.performAll orders).faults = p.faults := by
  induction orders generalizing p with
  | nil => rfl
  | cons o os ih =>
    have hstep : (p.perform o).faults = p.faults := by
      cases ho : o.tick? with
      | none => exact (p.sameFaults_perform ho).2
      | some now =>
        obtain rfl := Order.eq_evaluate ho
        exact (p.evaluate_struck now).2.2.2.trans (registers_struck now h).2
    exact (ih (by rw [hstep, h])).trans hstep

end Pipeline

/-! ## The start -/

/-- The configuration with a flip of a bit in the register of an edge. -/
def Config.withFlip (c : Config) (e : Edge) (tick bit : UInt64) : Config :=
  { c with faults := { c.faults with register := e.selector, tick, bit } }

namespace Pipeline

variable {c : Config} {m : Image} {e : Edge} {tick bit : UInt64} {p q : Pipeline Stages}
  {told told' : List Event}

/-- A flip that is configured waits in a pipeline that is new otherwise. -/
theorem armed_of_new (hnone : c.faults.register = "")
    (hq : Pipeline.new c (.new owner c m) = .ok (q, told))
    (hp : Pipeline.new (c.withFlip e tick bit) (.new owner (c.withFlip e tick bit) m) =
      .ok (p, told')) :
    q.Plain e ∧ p = q.armed e ⟨tick.toNat, bit.toNat⟩ := by
  have htarget : (c.withFlip e tick bit).faults.target = _ := FaultConfig.target_selector rfl
  obtain ⟨blank, -, hblank, rfl⟩ := of_new_of_none hnone hq
  obtain ⟨blank', registers, faults, scheduled, -, hblank', hfault, rfl⟩ := of_new_eq_ok hp
  obtain rfl := Except.ok.inj (hblank.symm.trans hblank')
  obtain ⟨rfl, rfl, rfl⟩ :=
    Except.ok.inj ((scheduleFault_of_target htarget blank).symm.trans hfault)
  refine ⟨⟨rfl, ?_⟩, rfl⟩
  obtain rfl := Registers.eq_of_new hblank
  cases e <;> rfl

/-- **A flip in a register is isolated.** Take two new pipelines of which one has a flip configured,
and the same calls for both, with evaluations at ticks that climb.

While no evaluation has reached the tick of the flip, the pipelines are equal but for the flip that
waits. If there is no evaluation at that tick, or no such bit at the output at that time, they stay
equal in this sense and nothing is ever applied. If there is such a bit, what the stages read in
that evaluation differs in the bit and is the same on all other edges; the cycle counts the same
bubbles; and from then on the flip is what was applied, once. -/
theorem flip_isolated (hnone : c.faults.register = "")
    (hq : Pipeline.new c (.new owner c m) = .ok (q, told))
    (hp : Pipeline.new (c.withFlip e tick bit) (.new owner (c.withFlip e tick bit) m) =
      .ok (p, told'))
    (orders : List Order) (hclimb : (ticks orders).Pairwise (· < ·)) :
    ((∀ now ∈ ticks orders, now < tick.toNat) →
      p.performAll orders = (q.performAll orders).armed e ⟨tick.toNat, bit.toNat⟩) ∧
    ((∀ before after, orders = before ++ .evaluate tick.toNat :: after →
        (q.performAll before).registers.bits e ≤ bit.toNat) →
      (p.performAll orders = q.performAll orders ∨
        p.performAll orders = (q.performAll orders).armed e ⟨tick.toNat, bit.toNat⟩) ∧
      (p.performAll orders).faults.applied = []) ∧
    ∀ before after, orders = before ++ .evaluate tick.toNat :: after →
      bit.toNat < (q.performAll before).registers.bits e →
      let read := ((q.performAll before).struck tick.toNat).registers
      let read' := ((p.performAll before).struck tick.toNat).registers
      read = (q.performAll before).registers ∧ read.outputs.AgreeBut e read'.outputs ∧
        Payload.DiffersAt bit.toNat (read.image e) (read'.image e) ∧
        ((p.performAll before).evaluate tick.toNat).pipeline.stats.bubbleTicks =
          ((q.performAll before).evaluate tick.toNat).pipeline.stats.bubbleTicks ∧
        (p.performAll orders).faults.applied = [⟨e, tick.toNat, bit.toNat⟩] := by
  obtain ⟨hplain, rfl⟩ := armed_of_new hnone hq hp
  refine ⟨fun hearly => performAll_armed hplain hearly, fun hmiss => ?_, ?_⟩
  · have hsame := performAll_spent (f := ⟨tick.toNat, bit.toNat⟩) hplain hmiss
    refine ⟨hsame, ?_⟩
    rcases hsame with hsame | hsame
    · rw [hsame, (hplain.performAll orders).faults]
    · rw [hsame]
      rfl
  · rintro before after rfl hbit
    have hearly : ∀ now ∈ ticks before, now < tick.toNat := by
      intro now hnow
      rw [ticks, List.filterMap_append] at hclimb
      exact (List.pairwise_append.mp hclimb).2.2 now hnow _ List.mem_cons_self
    have hbefore := hplain.performAll before
    rw [performAll_append, performAll_armed hplain hearly]
    obtain ⟨hlog, hagree, hdiffers⟩ :=
      struck_armed (f := ⟨tick.toNat, bit.toNat⟩) hbefore rfl hbit
    refine ⟨hbefore.struck.1, hagree, hdiffers, ?_, ?_⟩
    · rw [stats_evaluate, stats_evaluate]
      exact congrArg (fun snapshot => (Stats.addBubbles _ (Snapshot.bubble snapshot) _).bubbleTicks)
        Registers.snapshot_armed
    · have hfaults := (((q.performAll before).armed e ⟨tick.toNat, bit.toNat⟩).evaluate_struck
        tick.toNat).2.2.2.trans hlog
      have hstays := faults_performAll (congrArg FaultLog.waiting hfaults) after
      exact congrArg FaultLog.applied (hstays.trans hfaults)

end Pipeline

/-- Three plain words and one that suspends. -/
def Image.brief : Image := .ofWords 0x80000000 [19, 19, 19, 115]

/-- Calls with evaluations at six ticks, and a drain between the last two. -/
def briefOrders : List Order :=
  [.wake 0, .evaluate 2, .evaluate 3, .evaluate 5] ++
    .evaluate 6 :: [.evaluate 9, .drain, .evaluate 10]

/-- Bit 100 of the bundle on its way to decode is flipped at tick 6: it is the only bit that the
stages read otherwise. -/
theorem flip_isolated_brief : ∃ p q : Pipeline Stages,
    (∃ told, Pipeline.new {} (.new Pipeline.owner {} .brief) = .ok (q, told)) ∧
      (∃ told, Pipeline.new (Config.withFlip {} .f2ToD 6 100)
        (.new Pipeline.owner (Config.withFlip {} .f2ToD 6 100) .brief) = .ok (p, told)) ∧
      (p.performAll briefOrders).faults.applied = [⟨.f2ToD, 6, 100⟩] ∧
      Payload.DiffersAt 100
        (((q.performAll (briefOrders.take 4)).struck 6).registers.image .f2ToD)
        (((p.performAll (briefOrders.take 4)).struck 6).registers.image .f2ToD) ∧
      (q.performAll (briefOrders.take 4)).registers.snapshot.bubble.f2ToD = false := by
  refine ⟨_, _, ⟨_, rfl⟩, ⟨_, rfl⟩, ?_⟩
  obtain ⟨-, -, hdue⟩ := @Pipeline.flip_isolated {} .brief .f2ToD 6 100 _ _ _ _ rfl rfl rfl
    briefOrders (by decide)
  obtain ⟨-, -, hdiffers, -, happlied⟩ := hdue _ _ rfl (by decide +kernel)
  exact ⟨happlied, hdiffers, by decide +kernel⟩

end InOrder
