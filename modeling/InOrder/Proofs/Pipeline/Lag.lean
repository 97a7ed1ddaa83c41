import InOrder.Proofs.Pipeline.Steady
import InOrder.Proofs.Pipeline.Watch
import InOrder.Proofs.Stage.Later

/-!
# Two pipelines of which one rests

A pipeline that rests for want of work is some cycles behind one that goes on. It lags, but holds
the same: what it wrote down of cycles is as many cycles less, and predictions that no thread takes
up may still be in its register (`Pipeline.Lags`). The ticks for which it has not yet counted its
bubbles are a gap, in which the registers forward are empty.

* `Pipeline.Lags.evaluate`: when both are evaluated the gap is closed, and one lags as before.
* `Pipeline.Lags.rest`: when one rests, and there is nothing to do, it lags by a cycle more.
* `Pipeline.Lags.wakeFetch`: a thread is woken in both.
-/

namespace InOrder

/-! ## Registers -/

/-- What a register holds after a cycle hangs on what it held. -/
theorem Register.line_cycle {α : Type} {r r' : Register α} (h : r'.line = r.line) (w : Option α) :
    (r'.write? w).advance.line = (r.write? w).advance.line := by
  cases w <;> simp only [write?, write, advance, h]

theorem Registers.row_predictions (rs : Registers) (w : Writes) :
    (rs.write w).advance.f2ToF1.row =
      rs.f2ToF1.row.tail ++ [(rs.f2ToF1.write? w.f2ToF1).input] := Register.row_cycle _ _

/-- An empty register counts as a bubble. -/
theorem Registers.bubble_of_isEmpty {rs : Registers} {e : Edge} (h : rs.isEmpty e = true) :
    rs.snapshot.bubble.get e = true := by
  have houtput : ∀ {α : Type} [Payload α] (r : Register α), r.isEmpty = true →
      Payload.isBubble r.output = true := fun r hr => List.all_eq_true.mp hr _ List.mem_cons_self
  have hredirect : ∀ r : Redirect, Payload.isBubble r = true → Payload.countsAsBubble r = true := by
    intro r hr
    simp [Payload.countsAsBubble, Redirect.not_isLive hr]
  cases e
  · exact houtput rs.f1ToF2 h
  · exact houtput rs.f2ToD h
  · exact houtput rs.dToE h
  · exact hredirect _ (houtput rs.eToF1 h)
  · exact hredirect _ (houtput rs.f2ToF1 h)

namespace Registers.Agree

variable {rs rs' : Registers}

theorem cycle (h : rs.Agree rs') (w : Writes) : (rs.write w).advance.Agree (rs'.write w).advance :=
  ⟨Register.line_cycle h.lines _, Register.line_cycle h.cut _, Register.line_cycle h.decoded _,
    Register.line_cycle h.redirects _⟩

theorem trans {rs'' : Registers} (h : rs.Agree rs') (h' : rs'.Agree rs'') : rs.Agree rs'' :=
  ⟨h'.lines.trans h.lines, h'.cut.trans h.cut, h'.decoded.trans h.decoded,
    h'.redirects.trans h.redirects⟩

theorem outputs (h : rs.Agree rs') :
    rs'.outputs = { rs.outputs with f2ToF1 := rs'.f2ToF1.output } := by
  have houtput : ∀ {α : Type} {r r' : Register α}, r'.line = r.line → r'.output = r.output :=
    fun hline => congrArg DelayLine.output hline
  simp only [Registers.outputs, houtput h.lines, houtput h.cut, houtput h.decoded,
    houtput h.redirects]

theorem isEmpty (h : rs.Agree rs') {e : Edge} (he : e ≠ .f2ToF1) :
    rs'.isEmpty e = rs.isEmpty e := by
  have hempty : ∀ {α : Type} [Payload α] {r r' : Register α}, r'.line = r.line →
      r'.isEmpty = r.isEmpty := fun hline => by rw [Register.isEmpty, Register.isEmpty, hline]
  cases e with
  | f1ToF2 => exact hempty h.lines
  | f2ToD => exact hempty h.cut
  | dToE => exact hempty h.decoded
  | eToF1 => exact hempty h.redirects
  | f2ToF1 => exact absurd rfl he

theorem bubble (h : rs.Agree rs') {e : Edge} (he : e ≠ .f2ToF1) :
    rs'.snapshot.bubble.get e = rs.snapshot.bubble.get e := by
  have hcounts : ∀ {α : Type} [Payload α] {r r' : Register α}, r'.line = r.line →
      Payload.countsAsBubble r'.output = Payload.countsAsBubble r.output := fun hline => by
    rw [Register.output, Register.output, hline]
  cases e with
  | f1ToF2 => exact hcounts h.lines
  | f2ToD => exact hcounts h.cut
  | dToE => exact hcounts h.decoded
  | eToF1 => exact hcounts h.redirects
  | f2ToF1 => exact absurd rfl he

end Registers.Agree

/-! ## Quiet stages -/

/-- Quiet stages have written down no cycle. -/
theorem Stages.Quiet.later_eq {s : Stages} (h : s.Quiet) (d d' : Nat) (queue : MemoryQueue) :
    s.later d queue = s.later d' queue := by
  simp only [Stages.later, LineFetch.later, Execute.later, h.pending, h.units, Option.map_none,
    List.map_nil]

/-- Stages are as quiet at another time. -/
theorem Stages.Quiet.later {s : Stages} (h : s.Quiet) (d : Nat) (queue : MemoryQueue) :
    (s.later d queue).Quiet where
  pending := by simp only [Stages.later, LineFetch.later, h.pending, Option.map_none]
  stopped := h.stopped
  lines := h.lines
  bundles := h.bundles
  queued := h.queued
  units := by simp only [Stages.later, Execute.later, h.units, List.map_nil]
  halts := h.halts

namespace Pipeline

/-! ## The relation -/

/-- The pipeline `p` is `d` cycles behind `q`, and has not counted the last `gap` ticks, but is the
same for whoever looks at its stages and at the registers forward. -/
structure Lags (d gap : Nat) (p q : Pipeline Stages) : Prop where
  cycles : q.stats.cycles = p.stats.cycles + d
  stages : ∃ queue, q.stages = p.stages.later d queue
  registers : p.registers.Agree q.registers
  predictions : List.Forall₂ p.stages.lineFetch.Matches p.registers.f2ToF1.row
    q.registers.f2ToF1.row
  unitMode : q.unitMode = p.unitMode
  unitFlipped : q.unitFlipped = p.unitFlipped
  waits : p.signalDue = false ∧ q.signalDue = false
  last : q.lastSnapshot = p.lastSnapshot + gap
  bubbles : ∀ e ≠ .f2ToF1, q.stats.bubbleTicks.get e = p.stats.bubbleTicks.get e + gap
  /-- What has not been counted was empty all the time. -/
  empty : gap ≠ 0 → ∀ e ≠ .f2ToF1, p.registers.isEmpty e = true

variable {c c' : Config} {m m' : Image} {p q : Pipeline Stages} {d gap now : Nat}

/-- What is counted for an edge in a cycle. -/
theorem bubbleTicks_evaluate (p : Pipeline Stages) (now : Nat) (e : Edge) :
    (p.evaluate now).pipeline.stats.bubbleTicks.get e =
      if p.registers.snapshot.bubble.get e then
        p.stats.bubbleTicks.get e + (now - p.lastSnapshot)
      else p.stats.bubbleTicks.get e := by
  rw [stats_evaluate, Stats.addBubbles, PerEdge.get_ofFn]

/-- A pipeline that owes no signal only stops for want of work. -/
theorem idle_of_waits (h : p.signalDue = false) :
    p.idle.1.signalDue = false ∧ p.idle.1.allowIdling = p.allowIdling ∧
      p.idle.1.running = (p.running && !(p.allowIdling && !p.activity.isActive)) := by
  unfold idle
  cases hidling : p.allowIdling <;> simp [h, hidling]

theorem evaluate_of_waits (h : p.signalDue = false) (now : Nat) :
    (p.evaluate now).pipeline.signalDue = false ∧
      (p.evaluate now).pipeline.allowIdling = p.allowIdling ∧
      (p.evaluate now).pipeline.running =
        (p.running && !(p.allowIdling && !(p.finished now).activity.isActive)) := by
  obtain ⟨-, hdue, hrunning, hallow, -⟩ := p.lifecycle_finished now
  obtain ⟨hdue', hallow', hrunning'⟩ := idle_of_waits (hdue.trans h)
  rw [(p.evaluate_eq_finished now).1, settle_of_none hdue', hallow', hrunning', hallow, hrunning]
  exact ⟨hdue', rfl, rfl⟩

/-! ## Both are evaluated -/

/-- The faults strike both in the same way. -/
theorem Lags.struck (h : Lags d gap p q) (now : Nat) :
    (∃ queue, (q.struck now).stages = (p.struck now).stages.later d queue) ∧
      (q.struck now).unitFlipped = (p.struck now).unitFlipped := by
  obtain ⟨queue, hstages⟩ := h.stages
  obtain ⟨hstruck, hflipped⟩ := p.struck_units now
  obtain ⟨hstruck', hflipped'⟩ := q.struck_units now
  have hdue : q.unitFaultDue = p.unitFaultDue := by
    rw [unitFaultDue, unitFaultDue, h.unitMode, h.unitFlipped]
  have hpolled : q.polled now = (p.polled now).later d (queue.poll now).1 := by
    rw [polled, hstages]
    rfl
  have hflip : (q.polled now).execute.flipUnit = _ :=
    (congrArg (fun s => s.execute.flipUnit) hpolled).trans
      ((p.polled now).execute.flipUnit_later d (queue.poll now).1)
  rw [hstruck, hstruck', hflipped, hflipped', hdue, hflip, h.unitFlipped, hpolled]
  refine ⟨⟨(queue.poll now).1, ?_⟩, rfl⟩
  cases p.unitFaultDue <;> rfl

/-- The stages do the same work in both. -/
theorem Lags.struckWork (h : Lags d gap p q) (hp : p.Steady c m) (hq : q.Steady c' m') (now : Nat) :
    ∃ queue, q.struckWork now =
      { p.struckWork now with stages := (p.struckWork now).stages.later d queue } := by
  obtain ⟨queue, hstages⟩ := (h.struck now).1
  have hfetch : (p.struck now).stages.lineFetch = p.stages.lineFetch := by
    obtain ⟨units, hunits, -⟩ := p.stages_struck now
    rw [hunits]
    rfl
  have hmatches : (p.struck now).stages.lineFetch.Matches p.registers.outputs.f2ToF1
      q.registers.f2ToF1.output := hfetch ▸ (List.forall₂_cons.mp h.predictions).1
  refine ⟨queue, ?_⟩
  rw [Pipeline.struckWork, Pipeline.struckWork, (registers_struck now hp.waiting).1,
    (registers_struck now hq.waiting).1, hstages, h.registers.outputs, h.cycles,
    Nat.add_right_comm]
  exact Stages.evaluate_later _ d _ queue _ hmatches

/-- **When both are evaluated, the gap is closed**, and one lags as before. -/
theorem Lags.evaluate (h : Lags d gap p q) (hp : p.Steady c m) (hq : q.Steady c' m')
    (hkeeps : ∀ r, p.stages.lineFetch.Outdated r →
      (p.evaluate now).pipeline.stages.lineFetch.Outdated r)
    (hnow : q.lastSnapshot ≤ now) :
    Lags d 0 (p.evaluate now).pipeline (q.evaluate now).pipeline := by
  obtain ⟨hstages, hregisters, hcycles, -⟩ := p.evaluate_struck now
  obtain ⟨hstages', hregisters', hcycles', -⟩ := q.evaluate_struck now
  obtain ⟨hmode, hflipped, hlast⟩ := p.units_evaluate now
  obtain ⟨hmode', hflipped', hlast'⟩ := q.units_evaluate now
  obtain ⟨queue, hwork⟩ := h.struckWork hp hq now
  rw [(registers_struck now hp.waiting).1] at hregisters
  rw [(registers_struck now hq.waiting).1, hwork] at hregisters'
  rw [hwork] at hstages'
  have hinput : ∀ w : Option Redirect, (p.evaluate now).pipeline.stages.lineFetch.Matches
      (p.registers.f2ToF1.write? w).input (q.registers.f2ToF1.write? w).input := by
    intro w
    cases w with
    | none => exact .inr ⟨.of_bubble hp.registers.predictions.input,
        .of_bubble hq.registers.predictions.input⟩
    | some r => exact .inl rfl
  refine
    { cycles := ?cycles
      stages := ⟨queue, ?stages⟩
      registers := ?registers
      predictions := ?predictions
      unitMode := ?unitMode
      unitFlipped := ?unitFlipped
      waits := ⟨(evaluate_of_waits h.waits.1 now).1, (evaluate_of_waits h.waits.2 now).1⟩
      last := ?last
      bubbles := ?bubbles
      empty := fun hgap => absurd rfl hgap }
  case cycles => rw [hcycles, hcycles', h.cycles, Nat.add_right_comm]
  case stages => rw [hstages', hstages]
  case registers =>
    rw [hregisters, hregisters']
    exact h.registers.cycle _
  case predictions =>
    have htail := (List.forall₂_cons.mp h.predictions).2
    rw [hregisters, hregisters', Registers.row_predictions, Registers.row_predictions]
    exact List.rel_append (htail.imp fun _ _ hmatches => hmatches.imp hkeeps) (.cons (hinput _) .nil)
  case unitMode => rw [hmode, hmode', h.unitMode]
  case unitFlipped =>
    rw [hflipped, hflipped']
    exact (h.struck now).2
  case last => rw [hlast, hlast', Nat.add_zero]
  case bubbles =>
    -- what the first one had not counted are ticks in which its registers forward were empty
    intro e he
    rw [bubbleTicks_evaluate, bubbleTicks_evaluate, h.registers.bubble he, h.bubbles e he, h.last]
    have hlast := h.last
    by_cases hgap : gap = 0
    · split <;> omega
    · rw [Registers.bubble_of_isEmpty (h.empty hgap e he)]
      simp only [if_true]
      omega

/-! ## One rests -/

/-- **When one rests and nothing is to do, it lags by a cycle more.** -/
theorem Lags.rest {n : Nat} (h : Lags d gap p q) (hq : q.Steady c' m') (hw : q.Watched n)
    (hquiet : p.Quiet) (hold : ∀ r ∈ p.registers.f2ToF1.row, p.stages.lineFetch.Outdated r)
    (hnow : q.lastSnapshot ≤ now) :
    Lags (d + 1) (gap + (now - q.lastSnapshot)) p (q.evaluate now).pipeline := by
  obtain ⟨queue, hstages⟩ := h.stages
  have hempty : ∀ e ≠ .f2ToF1, p.registers.isEmpty e = true := fun _ he => hquiet.isEmpty he
  have hempty' : ∀ e ≠ .f2ToF1, q.registers.isEmpty e = true := fun e he =>
    (h.registers.isEmpty he).trans (hempty e he)
  have hquiet' : q.Quiet := ⟨hstages ▸ hquiet.stages.later d queue,
    hempty' .f1ToF2 Edge.noConfusion, hempty' .f2ToD Edge.noConfusion,
    hempty' .dToE Edge.noConfusion, hempty' .eToF1 Edge.noConfusion⟩
  obtain ⟨hwrites, -, hpolled, -⟩ := hquiet'.evaluate hw hq.waiting now
  obtain ⟨-, hregisters, hcycles, -⟩ := q.evaluate_struck now
  obtain ⟨hmode, hflipped, hlast⟩ := q.units_evaluate now
  rw [(registers_struck now hq.waiting).1, hwrites] at hregisters
  refine
    { cycles := ?cycles
      stages := ⟨(queue.poll now).1, ?stages⟩
      registers := ?registers
      predictions := ?predictions
      unitMode := hmode.trans h.unitMode
      unitFlipped := ?unitFlipped
      waits := ⟨h.waits.1, (evaluate_of_waits h.waits.2 now).1⟩
      last := ?last
      bubbles := ?bubbles
      empty := fun _ _ => hempty _ }
  case cycles => rw [hcycles, h.cycles, Nat.add_assoc]
  case stages =>
    rw [hpolled, hquiet.stages.later_eq (d + 1) d, polled, hstages]
    rfl
  case registers =>
    rw [hregisters]
    exact h.registers.trans ⟨hq.tidy.lines.line_idle hquiet'.lines,
      hq.tidy.cut.line_idle hquiet'.cut, hq.tidy.decoded.line_idle hquiet'.decoded,
      hq.tidy.redirects.line_idle hquiet'.redirects⟩
  case predictions =>
    -- no prediction in either register is one that a thread takes up, whatever has moved on
    have hold' := LineFetch.outdated_of_matches h.predictions hold
    have hlength : (q.registers.write {}).advance.f2ToF1.row.length =
        q.registers.f2ToF1.row.length := Register.length_row_cycle _ _
    rw [hregisters]
    refine LineFetch.matches_of_outdated ?_ hold fun r hr => ?_
    · rw [hlength, h.predictions.length_eq]
    · rw [Registers.row_predictions] at hr
      rcases List.mem_append.mp hr with hr | hr
      · exact hold' r (List.mem_of_mem_tail hr)
      · rw [List.mem_singleton.mp hr]
        exact .of_bubble hq.registers.predictions.input
  case unitFlipped =>
    have hunits : (q.polled now).execute.units = [] := hquiet'.stages.units
    rw [hflipped, (q.struck_units now).2, Execute.flipUnit, hunits, Bool.and_false, Bool.or_false,
      h.unitFlipped]
  case last =>
    have hlast' := h.last
    omega
  case bubbles =>
    intro e he
    rw [bubbleTicks_evaluate, Registers.bubble_of_isEmpty (hempty' e he), h.bubbles e he,
      Nat.add_assoc]
    rfl

/-! ## A thread is woken -/

/-- **A thread is woken in both.** -/
theorem Lags.wakeFetch (h : Lags d gap p q) (t : UInt32) :
    Lags d gap (p.wakeFetch t).1 (q.wakeFetch t).1 := by
  obtain ⟨queue, hstages⟩ := h.stages
  refine { h with stages := ⟨queue, ?_⟩, predictions := ?_ }
  · have hwoken : ((p.stages.later d queue).lineFetch.wake t).1 =
        (p.stages.lineFetch.wake t).1.later d :=
      congrArg Prod.fst (p.stages.lineFetch.wake_later d t)
    show ({ q.stages with lineFetch := (q.stages.lineFetch.wake t).1 } : Stages) = _
    rw [hstages, hwoken]
    rfl
  · exact h.predictions.imp fun _ _ hmatches => hmatches.imp fun _ hold => hold.wake t

end Pipeline

end InOrder
