import InOrder.Proofs.DeadBits
import InOrder.Proofs.Isolation
import InOrder.Proofs.Pipeline.Steady

/-!
# Flips of dead bits in a pipeline

A flip waits in a register until its tick, and what it does is done in one cycle. When it hits a dead
bit, the stages work in that cycle as they would with other payloads at the outputs, which differ
from those before the flip in what is of no stream (`Registers.Alike`), and in nothing at all on the
edges of the redirects. After the cycle the outputs are gone.

* `Registers.alike_of_dead`: what a flip of a dead bit comes to for the stages.
* `Pipeline.Bears.evaluate`: a cycle of a pipeline in which a flip waits, or of one without, is a
  cycle of the stages on such outputs.
-/

namespace InOrder

/-! ## Redirects of the same effect -/

section SameEffect

variable {r r' b b' p p' : Redirect}

/-- The slicer follows redirects of the same effect alike. -/
theorem Slicer.follow_congr (h : r.SameEffect r') (s : Slicer) : s.follow r' = s.follow r := by
  unfold follow
  rw [h.isLive]
  by_cases hlive : r.isLive = true
  · obtain ⟨bubble, rfl⟩ := h.eq hlive
    rfl
  · rw [if_neg fun hc => hlive hc.1, if_neg fun hc => hlive hc.1]

/-- The line fetch takes up redirects of the same effect alike. -/
theorem LineFetch.redirect_congr (hb : b.SameEffect b') (hp : p.SameEffect p') (s : LineFetch) :
    s.redirect b' p' = s.redirect b p := by
  unfold redirect
  rw [hb.isLive, hp.isLive]
  by_cases hbranch : b.isLive = true
  · obtain ⟨bubble, rfl⟩ := hb.eq hbranch
    rw [if_pos hbranch, if_pos hbranch]
    rfl
  · rw [if_neg hbranch, if_neg hbranch]
    by_cases hprediction : p.isLive = true
    · obtain ⟨bubble, rfl⟩ := hp.eq hprediction
      rw [if_pos hprediction, if_pos hprediction]
      rfl
    · rw [if_neg hprediction, if_neg hprediction]

/-- The stages work alike on redirects of the same effect. -/
theorem Stages.evaluate_congr (s : Stages) (cycle : Nat) (o : Outputs)
    (hb : o.eToF1.SameEffect b') (hp : o.f2ToF1.SameEffect p') :
    s.evaluate cycle { o with eToF1 := b', f2ToF1 := p' } = s.evaluate cycle o := by
  have hslicer : ∀ (l : Line) (room : Bool),
      s.slicer.evaluate l b' room = s.slicer.evaluate l o.eToF1 room := by
    intro l room
    simp only [Slicer.evaluate, Slicer.follow_congr hb]
  have hfetch : ∀ room : Bool, s.lineFetch.evaluate cycle b' p' room =
      s.lineFetch.evaluate cycle o.eToF1 o.f2ToF1 room := by
    intro room
    unfold LineFetch.evaluate
    rw [LineFetch.redirect_congr hb hp]
  unfold evaluate
  simp only [hslicer, hfetch]

end SameEffect

/-! ## Registers -/

/-- What stands at the output does not last. -/
theorem Register.cycle_setOutput {α : Type} (r : Register α) (a : α) (w : Option α) :
    ((r.setOutput a).write? w).advance = (r.write? w).advance := by
  have hline := Register.Hit.cycle (r := r) ⟨a, r.flip, rfl⟩ w
  cases w <;> exact congrArg (Register.mk r.name r.edge · r.flip) hline

namespace Registers

/-- The bits that are not read of what stands at the output of an edge. -/
def DeadBit (rs : Registers) (e : Edge) (bit : Nat) : Prop :=
  match e with
  | .f1ToF2 => rs.f1ToF2.output.DeadBit bit
  | .f2ToD => rs.f2ToD.output.DeadBit bit
  | .dToE => rs.dToE.output.DeadBit bit
  | .eToF1 => rs.eToF1.output.DeadBit bit
  | .f2ToF1 => rs.f2ToF1.output.DeadBit bit

instance (rs : Registers) (e : Edge) (bit : Nat) : Decidable (rs.DeadBit e bit) := by
  unfold DeadBit
  cases e <;> exact inferInstance

/-- The registers with a bit flipped at the output of an edge, if there is such a bit. -/
def flipped (rs : Registers) (e : Edge) (bit : Nat) : Registers :=
  (rs.change e fun r => (r.setOutput (Payload.flip r.output bit).1, ())).1

/-- At the outputs there is the same, but for what is of no stream. -/
structure Alike (rs rs' : Registers) : Prop where
  lines : ∃ l, rs'.f1ToF2 = rs.f1ToF2.setOutput l ∧
    ∀ t, sift (linesOf t (present [l])) = sift (linesOf t (present [rs.f1ToF2.output]))
  cut : ∃ b, rs'.f2ToD = rs.f2ToD.setOutput b ∧
    ∀ t, sift (share t b.tagged) = sift (share t rs.f2ToD.output.tagged)
  decoded : ∃ b, rs'.dToE = rs.dToE.setOutput b ∧
    ∀ t, sift (share t b.tagged) = sift (share t rs.dToE.output.tagged)
  redirects : rs'.eToF1 = rs.eToF1
  predictions : rs'.f2ToF1 = rs.f2ToF1

/-- What is of no stream or has no reason is all that a bubble at an output can be made into. -/
structure Vacant (rs : Registers) : Prop where
  line : Payload.isBubble rs.f1ToF2.output = true → rs.f1ToF2.output.streamSeq = 0
  cut : Payload.isBubble rs.f2ToD.output = true → ∀ o ∈ rs.f2ToD.output.slots, o.streamSeq = 0
  decoded : Payload.isBubble rs.dToE.output = true → ∀ o ∈ rs.dToE.output.slots, o.streamSeq = 0
  redirect : Payload.isBubble rs.eToF1.output = true → rs.eToF1.output.reason = .noBranch
  prediction : Payload.isBubble rs.f2ToF1.output = true → rs.f2ToF1.output.reason = .noBranch
  named : Payload.isBubble rs.eToF1.output = false →
    Reason.ofCode rs.eToF1.output.reason.code = rs.eToF1.output.reason

variable {rs rs' : Registers} {e : Edge} {bit n : Nat}

namespace Alike

theorem refl (rs : Registers) : rs.Alike rs :=
  ⟨⟨_, rfl, fun _ => rfl⟩, ⟨_, rfl, fun _ => rfl⟩, ⟨_, rfl, fun _ => rfl⟩, rfl, rfl⟩

/-- After a cycle no difference is left. -/
theorem cycle (h : rs.Alike rs') (w : Writes) : (rs'.write w).advance = (rs.write w).advance := by
  obtain ⟨l, hlines, -⟩ := h.lines
  obtain ⟨b, hcut, -⟩ := h.cut
  obtain ⟨b', hdecoded, -⟩ := h.decoded
  simp only [write, advance, hlines, hcut, hdecoded, h.redirects, h.predictions,
    Register.cycle_setOutput]

theorem sound (h : rs.Alike rs') (hrs : rs.Sound n) : rs'.Sound n := by
  obtain ⟨l, hlines, -⟩ := h.lines
  obtain ⟨b, hcut, -⟩ := h.cut
  obtain ⟨b', hdecoded, -⟩ := h.decoded
  refine ⟨?_, ?_, ?_, h.redirects ▸ hrs.redirects, h.predictions ▸ hrs.predictions,
    h.redirects ▸ hrs.sent, h.predictions ▸ hrs.predicted⟩
  · rw [hlines]; exact ⟨hrs.lines.input, hrs.lines.blank⟩
  · rw [hcut]; exact ⟨hrs.cut.input, hrs.cut.blank⟩
  · rw [hdecoded]; exact ⟨hrs.decoded.input, hrs.decoded.blank⟩

/-- **What is of a stream is the same on every lane.** -/
theorem lane (h : rs.Alike rs') (s : Stages) (history : History) (t : UInt32) :
    (laneOf s rs' history t).sifted = (laneOf s rs history t).sifted := by
  obtain ⟨l, hlines, hline⟩ := h.lines
  obtain ⟨b, hcut, hb⟩ := h.cut
  obtain ⟨b', hdecoded, hb'⟩ := h.decoded
  have hops : sift (laneOf s rs' history t).ops = sift (laneOf s rs history t).ops := by
    have hheld : ∀ (r : Register Bundle) (b : Bundle), (r.setOutput b).held.flatMap Bundle.tagged =
        b.tagged ++ r.behind.flatMap Bundle.tagged := by
      intro r b
      show (present [b] ++ r.behind).flatMap Bundle.tagged = _
      rw [List.flatMap_append, Bundle.flatMap_tagged_present, List.flatMap_singleton]
    have hself : ∀ r : Register Bundle, r.held = (r.setOutput r.output).held := fun _ => rfl
    simp only [laneOf, hcut, hdecoded, List.flatMap_append, share_append, sift_append]
    rw [hself rs.dToE, hself rs.f2ToD]
    simp only [hheld, share_append, sift_append, hb, hb']
  have hls : sift (laneOf s rs' history t).lines = sift (laneOf s rs history t).lines := by
    have hheld : (rs.f1ToF2.setOutput l).held = present [l] ++ rs.f1ToF2.behind := rfl
    have hself : rs.f1ToF2.held = present [rs.f1ToF2.output] ++ rs.f1ToF2.behind := rfl
    simp only [laneOf, hlines, hheld, hself, linesOf_append, sift_append, hline]
  have hredirects : (laneOf s rs' history t).redirects = (laneOf s rs history t).redirects := by
    simp only [laneOf, h.redirects]
  have hpredictions : (laneOf s rs' history t).predictions = (laneOf s rs history t).predictions := by
    simp only [laneOf, h.predictions]
  exact Lane.ext rfl rfl hops rfl hls rfl hredirects hpredictions rfl rfl

end Alike

/-- **A flip of a dead bit is none for the stages**, but for what is of no stream. -/
theorem alike_of_dead (hrs : rs.Sound n) (hvacant : rs.Vacant)
    (hdead : bit < rs.bits e → rs.DeadBit e bit) :
    ∃ rs', rs.Alike rs' ∧ (∀ (s : Stages) cycle,
      s.evaluate cycle (rs.flipped e bit).outputs = s.evaluate cycle rs'.outputs) ∧
      ∀ w, ((rs.flipped e bit).write w).advance = (rs.write w).advance := by
  cases e with
  | f1ToF2 =>
    have halike : rs.Alike (rs.flipped .f1ToF2 bit) :=
      { Alike.refl rs with lines := ⟨_, rfl, Line.sift_flip hdead hvacant.line⟩ }
    exact ⟨_, halike, fun _ _ => rfl, halike.cycle⟩
  | f2ToD =>
    have halike : rs.Alike (rs.flipped .f2ToD bit) :=
      { Alike.refl rs with cut := ⟨_, rfl, Bundle.sift_flip hdead hvacant.cut⟩ }
    exact ⟨_, halike, fun _ _ => rfl, halike.cycle⟩
  | dToE =>
    have halike : rs.Alike (rs.flipped .dToE bit) :=
      { Alike.refl rs with decoded := ⟨_, rfl, Bundle.sift_flip hdead hvacant.decoded⟩ }
    exact ⟨_, halike, fun _ _ => rfl, halike.cycle⟩
  | eToF1 =>
    have heffect : rs.eToF1.output.SameEffect (Payload.flip rs.eToF1.output bit).1 :=
      .flip hdead hvacant.redirect hvacant.named
    refine ⟨rs, .refl rs, fun s cycle => ?_, fun w => ?_⟩
    · exact s.evaluate_congr cycle rs.outputs heffect (.refl _)
    · exact congrArg (Registers.mk _ _ _ · _) (rs.eToF1.cycle_setOutput _ w.eToF1)
  | f2ToF1 =>
    have hnamed : Payload.isBubble rs.f2ToF1.output = false →
        Reason.ofCode rs.f2ToF1.output.reason.code = rs.f2ToF1.output.reason := by
      intro hlive
      rw [(hrs.predicted _ (Register.output_mem_held hlive)).reason]
      rfl
    have heffect : rs.f2ToF1.output.SameEffect (Payload.flip rs.f2ToF1.output bit).1 :=
      .flip hdead hvacant.prediction hnamed
    refine ⟨rs, .refl rs, fun s cycle => ?_, fun w => ?_⟩
    · exact s.evaluate_congr cycle rs.outputs (.refl _) heffect
    · exact congrArg (Registers.mk _ _ _ _) (rs.f2ToF1.cycle_setOutput _ w.f2ToF1)

end Registers

/-! ## A flip at its tick -/

section Tick

variable {e : Edge} {f : Flip} {now : Nat}

theorem Register.inject_at {α : Type} [Payload α] {r : Register α} (hr : r.flip = none)
    (h : f.tick = now) : ∃ i, i ≠ .idle ∧ ({ r with flip := some f } : Register α).inject now =
      (r.setOutput (Payload.flip r.output f.bit).1, i) := by
  by_cases hbit : f.bit < Payload.bitCount r.output
  · obtain ⟨a, ha, heq⟩ := Register.inject_due hr h hbit
    refine ⟨.applied f.bit, Injection.noConfusion, ?_⟩
    rw [heq, Payload.flip, ha]
  · obtain ⟨i, ⟨hidle, -⟩, heq⟩ :=
      Register.inject_spent hr (Nat.le_of_eq h) fun _ => Nat.le_of_not_lt hbit
    refine ⟨i, hidle, ?_⟩
    rw [heq, Payload.flip, Payload.flip?_eq_none_iff.mpr (Nat.le_of_not_lt hbit)]
    rfl

theorem Registers.inject_armed_at {rs : Registers} (hrs : rs.Unarmed e) (h : f.tick = now) :
    ∃ i, i ≠ .idle ∧ (rs.armed e f).inject e now = (rs.flipped e f.bit, i) := by
  cases e <;>
  · obtain ⟨i, hidle, heq⟩ := Register.inject_at hrs h
    refine ⟨i, hidle, ?_⟩
    simp only [inject, armed, change, flipped, heq]

namespace Pipeline

variable {q : Pipeline Stages}

/-- **At its tick a flip is done**, and waits no longer. -/
theorem struck_armed_at (h : q.Plain e) (hnow : f.tick = now) :
    ((q.armed e f).struck now).registers = q.registers.flipped e f.bit ∧
      ((q.armed e f).struck now).faults.waiting = [] := by
  obtain ⟨i, hidle, heq⟩ := Registers.inject_armed_at h.registers hnow
  obtain ⟨hlog, hregisters⟩ := FaultLog.evaluate_await e now (q.registers.armed e f)
  rw [struck_armed_eq, hlog, hregisters, heq]
  exact ⟨rfl, if_neg hidle⟩

/-- The stages work on what the flip has left at the outputs. -/
theorem struckWork_armed (hunits : q.unitMode = none) : (q.armed e f).struckWork now =
    (q.polled now).evaluate (q.stats.cycles + 1) ((q.armed e f).struck now).registers.outputs := by
  have hdue : q.unitFaultDue = false := by rw [unitFaultDue, hunits]
  have hstages : ((q.armed e f).struck now).stages = q.polled now := by
    rw [struck_armed_eq]
    show (q.struck now).stages = _
    rw [(q.struck_units now).1, hdue, if_neg Bool.false_ne_true]
  rw [struckWork, hstages]
  rfl

end Pipeline

end Tick

/-! ## What a cycle keeps -/

/-- What stands in an empty slot. -/
structure Registers.Hollow (width : Nat) (rs : Registers) : Prop where
  line : rs.f1ToF2.line.blank = .empty
  cut : rs.f2ToD.line.blank = .empty width
  decoded : rs.dToE.line.blank = .empty width
  redirect : rs.eToF1.line.blank = .empty
  prediction : rs.f2ToF1.line.blank = .empty

theorem Registers.Hollow.cycle {width : Nat} {rs : Registers} (h : rs.Hollow width) (w : Writes) :
    (rs.write w).advance.Hollow width :=
  ⟨(rs.f1ToF2.blank_cycle _).trans h.line, (rs.f2ToD.blank_cycle _).trans h.cut,
    (rs.dToE.blank_cycle _).trans h.decoded, (rs.eToF1.blank_cycle _).trans h.redirect,
    (rs.f2ToF1.blank_cycle _).trans h.prediction⟩

namespace Pipeline

/-- What holds of a pipeline between cycles when nothing is corrupted, its empty slots included. -/
structure Orderly (c : Config) (m : Image) (p : Pipeline Stages) : Prop extends p.Steady c m where
  unitMode : p.unitMode = none
  predictions : p.registers.f2ToF1.Tidy
  hollow : p.registers.Hollow c.pipeline.width.toNat

/-- What the stages do in a cycle when they find these registers. -/
def workOn (p : Pipeline Stages) (now : Nat) (rs : Registers) : StageSet.Result Stages :=
  (p.polled now).evaluate (p.stats.cycles + 1) rs.outputs

/-- The pipeline after a cycle in which the stages found these registers. -/
def Follows (p : Pipeline Stages) (now : Nat) (rs : Registers) (p' : Pipeline Stages) : Prop :=
  p'.Holds (p.workOn now rs).stages (p.registers.write (p.workOn now rs).writes).advance
    (p.stats.cycles + 1)

variable {c : Config} {m : Image} {p q q' : Pipeline Stages} {rs : Registers} {now : Nat}
  {t : UInt32} {fresh : UInt64 → Prop} {e : Edge} {f : Flip}

namespace Orderly

/-- A new pipeline is orderly. -/
theorem unused (hc : c.Admitted) (hunit : c.faults.unit = false) {blank : Registers}
    (hblank : Registers.new owner c.pipeline = .ok blank) (m : Image) :
    (unused c (.new owner c m) blank {}).Orderly c m where
  toSteady := steady_unused hc hblank m
  unitMode := if_neg (by simp [hunit])
  predictions := by
    obtain rfl := Registers.eq_of_new hblank
    exact Register.tidy_new _ _ _ _ _
  hollow := by
    obtain rfl := Registers.eq_of_new hblank
    exact ⟨rfl, rfl, rfl, rfl, rfl⟩

theorem sound (h : q.Orderly c m) : q.Sound c m := ⟨h.stages, h.registers, h.waiting, h.unitMode⟩

theorem polled (h : q.Orderly c m) (now : Nat) : (q.polled now).Sound c m q.stats.cycles :=
  h.sound.polled now

/-- What stands at the outputs, if it is a bubble, is an empty slot. -/
theorem vacant (h : q.Orderly c m) {history : History}
    (hproper : ∀ t : UInt32, t.toNat < c.host.threads.toNat → (q.lane history t).Proper) :
    q.registers.Vacant := by
  have hslot : ∀ {α : Type} [Payload α] {r : Register α}, r.Tidy →
      Payload.isBubble r.output = true → r.output = r.line.blank :=
    fun hr => hr _ List.mem_cons_self
  have hempty : ∀ o ∈ (Bundle.empty c.pipeline.width.toNat).slots, o.streamSeq = 0 := by
    intro o ho
    rw [List.eq_of_mem_replicate ho]
    rfl
  refine ⟨fun hb => ?_, fun hb => ?_, fun hb => ?_, fun hb => ?_, fun hb => ?_, fun hlive => ?_⟩
  · rw [hslot h.tidy.lines hb, h.hollow.line]
    rfl
  · rw [hslot h.tidy.cut hb, h.hollow.cut]
    exact hempty
  · rw [hslot h.tidy.decoded hb, h.hollow.decoded]
    exact hempty
  · rw [hslot h.tidy.redirects hb, h.hollow.redirect]
    rfl
  · rw [hslot h.predictions hb, h.hollow.prediction]
    rfl
  · -- a redirect that is on its way is one of the lane of its thread
    have hmem := Register.output_mem_held hlive
    have hthread := (h.registers.sent _ hmem).thread
    exact (hproper _ hthread).named _ (List.mem_filter.mpr ⟨hmem, decide_eq_true rfl⟩)

theorem sent (h : q.Orderly c m) (halike : q.registers.Alike rs)
    (hlive : Payload.isBubble rs.outputs.eToF1 = false) :
    rs.outputs.eToF1.Sent c.host.threads.toNat :=
  (halike.sound h.registers).sent _ (Register.output_mem_held hlive)

/-- **A cycle keeps a pipeline orderly**, also one in which the stages find other payloads. -/
theorem follows (h : q.Orderly c m) (halike : q.registers.Alike rs)
    (hq' : q.Follows now rs q') : q'.Orderly c m := by
  obtain ⟨hstages, hwrites⟩ := (h.polled now).evaluate (q.stats.cycles + 1) (h.sent halike)
  obtain ⟨hlive, hqueued⟩ := Stages.live_evaluate (h.polled now) h.queued (q.stats.cycles + 1)
    (h.sent halike)
  obtain ⟨hs, hr, hcycles, hwaiting, hunits⟩ := hq'
  refine ⟨⟨?_, ?_, hwaiting, ?_, ?_⟩, hunits, ?_, ?_⟩
  · rw [hs, hcycles]; exact hstages
  · rw [hr]; exact h.registers.cycle hwrites
  · rw [hr]; exact h.tidy.cycle hlive
  · rw [hs]; exact hqueued
  · rw [hr]; exact h.predictions.cycle fun r hr => (hwrites.prediction r hr).live
  · rw [hr]; exact h.hollow.cycle _

/-- **Such a cycle is a sequence of steps for each lane**, from the lane that the stages find. -/
theorem lane_follows (h : q.Orderly c m) (halike : q.registers.Alike rs)
    (hq' : q.Follows now rs q') (ht : t.toNat < c.host.threads.toNat)
    (hfresh : ∀ x, ordinal x ≤ q.stats.cycles → fresh (x + 1)) (history : History) :
    Lane.Steps (c.track m fresh t) (laneOf q.stages rs history t)
      (q'.lane { history with
        retired := history.retired ++ (q.workOn now rs).retired
        overtaken := history.overtaken ++ q.overtaken } t) := by
  have hsteps := laneOf_evaluate (h.polled now) (halike.sound h.registers) ht hfresh
    (q.stats.cycles + 1) history
  rw [halike.cycle, halike.redirects, halike.predictions] at hsteps
  rw [lane, hq'.stages, hq'.registers]
  exact hsteps

end Orderly

/-! ## Pipelines with a flip that waits -/

/-- The pipeline `q`, in a register of which a flip may wait. -/
def Bears (p : Pipeline Stages) (e : Edge) (f : Flip) (q : Pipeline Stages) : Prop :=
  p = q ∨ q.Plain e ∧ p = q.armed e f

/-- The stages find the same at the outputs while the flip waits. -/
theorem Bears.reads (h : p.Bears e f q) : p.overtaken = q.overtaken ∧
    p.registers.bits e = q.registers.bits e ∧
      ∀ bit, p.registers.DeadBit e bit ↔ q.registers.DeadBit e bit := by
  rcases h with rfl | ⟨-, rfl⟩
  · exact ⟨rfl, rfl, fun _ => Iff.rfl⟩
  · cases e <;> exact ⟨rfl, rfl, fun _ => Iff.rfl⟩

/-- A flip that waits does not show in the statistics. -/
theorem Bears.stats (h : p.Bears e f q) : p.stats = q.stats := by
  rcases h with rfl | ⟨-, rfl⟩ <;> rfl

/-- **A flip of a dead bit does no harm**: a cycle is one of the stages, on registers in which they
find the same that is of a stream. -/
theorem Bears.evaluate (h : p.Bears e f q) (hq : q.Orderly c m) (hvacant : q.registers.Vacant)
    (hdead : now = f.tick → f.bit < q.registers.bits e → q.registers.DeadBit e f.bit) :
    ∃ q' rs, (p.evaluate now).pipeline.Bears e f q' ∧ q.registers.Alike rs ∧ q.Follows now rs q' ∧
      (p.evaluate now).retired = (q.workOn now rs).retired := by
  obtain ⟨hplainly, hretired⟩ := evaluate_holds hq.waiting hq.unitMode now
  rcases h with rfl | ⟨hplain, rfl⟩
  · exact ⟨_, p.registers, .inl rfl, .refl _, hplainly, hretired⟩
  · have hwork : (q.armed e f).struckWork now = _ := struckWork_armed hq.unitMode
    have hret := ((q.armed e f).evaluate_eq_finished now).2
    rcases Nat.lt_trichotomy now f.tick with hearly | hdue | hlate
    · -- the flip goes along
      refine ⟨_, q.registers, .inr ⟨hplain.evaluate, evaluate_armed hplain hearly⟩, .refl _, hplainly,
        ?_⟩
      have hregisters : ((q.armed e f).struck now).registers = q.registers.armed e f := by
        rw [struck_armed_eq, (FaultLog.evaluate_await_early hearly).2]
      rw [hret, hwork, hregisters, Registers.outputs_armed]
      rfl
    · -- the flip strikes
      obtain ⟨hregisters, hwaiting⟩ := struck_armed_at hplain hdue.symm
      obtain ⟨rs, halike, hevaluate, hcycle⟩ :=
        Registers.alike_of_dead hq.registers hvacant (hdead hdue)
      rw [hregisters, hevaluate] at hwork
      obtain ⟨hs, hr, hcycles, hfaults⟩ := (q.armed e f).evaluate_struck now
      rw [hwork] at hs hr hret
      rw [hregisters, hcycle] at hr
      exact ⟨_, rs, .inl rfl, halike, ⟨hs, hr, hcycles, by rw [hfaults, hwaiting],
        ((q.armed e f).units_evaluate now).1.trans hq.unitMode⟩, hret⟩
    · -- the flip was missed
      have hmiss : f.tick = now → q.registers.bits e ≤ f.bit := fun heq => by omega
      refine ⟨_, q.registers, .inl (evaluate_spent hplain (Nat.le_of_lt hlate) hmiss), .refl _,
        hplainly, ?_⟩
      have hregisters : ((q.armed e f).struck now).registers = q.registers := by
        rw [struck_armed_eq,
          (FaultLog.evaluate_await_spent hplain.registers (Nat.le_of_lt hlate) hmiss).2]
      rw [hret, hwork, hregisters]
      rfl

/-! ### Calls of the host -/

/-- What is done to a pipeline without regard to the flip is done to it with the flip. -/
theorem Bears.map (h : p.Bears e f q) {g : Pipeline Stages → Pipeline Stages}
    (harmed : ∀ q, g (q.armed e f) = (g q).armed e f) (hplain : ∀ q, q.Plain e → (g q).Plain e) :
    (g p).Bears e f (g q) := by
  rcases h with rfl | ⟨hq, rfl⟩
  · exact .inl rfl
  · exact .inr ⟨hplain q hq, harmed q⟩

theorem Bears.perform (h : p.Bears e f q) {o : Order} (ho : o.tick? = none) :
    (p.perform o).Bears e f (q.perform o) :=
  h.map (g := fun p => p.perform o) (fun q => perform_armed q ho) fun _ hq => hq.perform o

theorem Bears.wakeAll (h : p.Bears e f q) (ts : List UInt32) :
    (p.wakeAll ts).1.Bears e f (q.wakeAll ts).1 :=
  h.map (g := fun p => (p.wakeAll ts).1) (wakeAll_armed ts) fun _ hq =>
    wakeAll_induction (P := Plain e) (fun _ t hp => hp.perform (.wake t)) ts hq

namespace Orderly

/-- A call that touches neither registers nor what decode holds. -/
theorem call (h : q.Orderly c m) (hsound : q'.Sound c m) (hregisters : q'.registers = q.registers)
    (hdecode : q'.stages.decode = q.stages.decode) : q'.Orderly c m :=
  ⟨⟨hsound.stages, hsound.registers, hsound.waiting, hregisters ▸ h.tidy, hdecode ▸ h.queued⟩,
    hsound.unitMode, hregisters ▸ h.predictions, hregisters ▸ h.hollow⟩

theorem wakeFetch (h : q.Orderly c m) (t : UInt32) : (q.wakeFetch t).1.Orderly c m :=
  h.call (h.sound.wakeFetch t) rfl rfl

theorem wakeAll (h : q.Orderly c m) (ts : List UInt32) : (q.wakeAll ts).1.Orderly c m :=
  wakeAll_induction (P := Orderly c m) (fun _ t hp => hp.wakeFetch t) ts h

theorem drain (h : q.Orderly c m) : q.drain.1.Orderly c m := by
  refine h.call h.sound.drain ?_ ?_ <;>
  · unfold Pipeline.drain
    simp only
    split <;> rfl

theorem resume (h : q.Orderly c m) (n : Nat) : (q.resume n).1.Orderly c m := by
  have hwoken := h.wakeAll (threadNumbers n)
  exact hwoken.call (h.sound.resume n) rfl rfl

end Orderly

end Pipeline

end InOrder
