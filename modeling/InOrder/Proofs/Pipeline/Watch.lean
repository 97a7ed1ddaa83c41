import InOrder.Proofs.Pipeline.Faults
import InOrder.Proofs.Stage.Quiet

/-!
# What the activity recorder sees

A pipeline stops for want of work when the recorder remembers no busy cycle. It remembers as many
cycles as the longest way forward takes, and a stage that writes to a register is busy. So each
slot of a register is as old as a cycle that is remembered, and it is a bubble unless that cycle was
busy (`Register.Seen`). This holds with faults as well, since what a flip hits is gone after the
cycle.

* `Pipeline.Watched` is what every cycle and every call keep of recorder and registers.
* `Pipeline.Watched.quiet_of_idle`: a pipeline that stops for want of work is quiet.
* `Pipeline.Quiet.evaluate`: a quiet pipeline does nothing when it is evaluated, and stays quiet.
-/

namespace InOrder

/-! ## Registers and cycles -/

namespace Register

variable {α : Type} [Payload α] {r r' : Register α} {past : List Bool}

/-- Each slot is a bubble unless the cycle in which it was written is noted as busy. -/
def Seen (r : Register α) (past : List Bool) : Prop :=
  ∃ recent, recent <:+ past ∧
    List.Forall₂ (fun a busy => Payload.isBubble a = false → busy = true) r.row recent

/-- A cycle that writes is busy, so it is noted. -/
theorem Seen.cycle (h : r.Seen past) (hr : r.Clean) {w : Option α} {busy : Bool}
    (hw : busy = false → w = none) : (r.write? w).advance.Seen (past ++ [busy]).tail := by
  obtain ⟨recent, ⟨older, rfl⟩, hrow⟩ := h
  obtain ⟨x, recent, rfl⟩ : ∃ x rest, recent = x :: rest :=
    List.exists_cons_of_ne_nil fun hnil => by rw [hnil] at hrow; nomatch hrow
  have hlast : Payload.isBubble (r.write? w).input = false → busy = true := by
    intro hlive
    refine Bool.eq_true_of_not_eq_false fun hidle => ?_
    rw [hw hidle, input_write?, Option.getD_none, hr.input] at hlive
    exact Bool.noConfusion hlive
  refine ⟨recent ++ [busy], ⟨(older ++ [x]).tail, ?_⟩, ?_⟩
  · rw [← List.tail_append_of_ne_nil (by simp)]
    simp only [List.append_assoc, List.cons_append, List.nil_append]
  · rw [row_cycle, row, List.tail_cons]
    exact List.rel_append (List.forall₂_cons.mp hrow).2 (.cons hlast .nil)

/-- A register all of whose cycles were not busy holds nothing. -/
theorem Seen.isEmpty (h : r.Seen past) (hr : r.Clean) (hidle : ∀ busy ∈ past, busy = false) :
    r.isEmpty = true := by
  obtain ⟨recent, hsuffix, hrow⟩ := h
  refine isEmpty_of_held hr ?_
  rw [List.eq_nil_iff_forall_not_mem]
  intro a ha
  rw [held_eq] at ha
  obtain ⟨hmem, hlive⟩ := mem_present.mp ha
  obtain ⟨i, hi, rfl⟩ := List.getElem_of_mem hmem
  have hi' : i < recent.length := hrow.length_eq ▸ hi
  have hbusy := hrow.get hi hi' hlive
  rw [List.get_eq_getElem, hidle _ (hsuffix.mem (List.getElem_mem hi'))] at hbusy
  exact Bool.noConfusion hbusy

/-- A new register holds nothing, whatever was noted. -/
theorem seen_new {name : String} {edge : Edge} {depth n : Nat} {blank : α} {flip : Option Flip}
    (hblank : Payload.isBubble blank = true) (hpos : 0 < depth) (hdepth : depth ≤ n) :
    (⟨name, edge, .new depth blank, flip⟩ : Register α).Seen (List.replicate n false) := by
  refine ⟨List.replicate depth false, ⟨List.replicate (n - depth) false, ?_⟩, ?_⟩
  · rw [List.replicate_append_replicate, Nat.sub_add_cancel hdepth]
  · refine List.forall₂_iff_zip.mpr ⟨?_, fun {a busy} hmem hlive => ?_⟩
    · rw [length_row_new hpos, List.length_replicate]
    · have hrow := (List.of_mem_zip hmem).1
      have ha : a = blank := by
        rcases List.mem_cons.mp hrow with rfl | hmiddle
        · rfl
        · exact List.eq_of_mem_replicate hmiddle
      rw [ha, hblank] at hlive
      exact Bool.noConfusion hlive

/-- The recorder has seen all that is written to the register. -/
structure Watched (r : Register α) (past : List Bool) : Prop where
  clean : r.Clean
  seen : r.Seen past

/-- What is watched is the line. -/
theorem Watched.of_line (h : r.Watched past) (hline : r'.line = r.line) : r'.Watched past := by
  have hrow : r'.row = r.row := by rw [row, row, output, output, hline]
  obtain ⟨recent, hsuffix, hseen⟩ := h.seen
  refine ⟨⟨?_, ?_⟩, recent, hsuffix, hrow ▸ hseen⟩
  · exact (congrArg (fun l => Payload.isBubble l.input) hline).trans h.clean.input
  · exact (congrArg (fun l => Payload.isBubble l.blank) hline).trans h.clean.blank

/-- A flip at the output does not hide a register from the recorder. -/
theorem Watched.cycle (h : r.Watched past) (hhit : r.Hit r') {w : Option α} {busy : Bool}
    (hw : busy = false → w = none) : (r'.write? w).advance.Watched (past ++ [busy]).tail :=
  Watched.of_line ⟨clean_cycle h.clean w, h.seen.cycle h.clean hw⟩ (hhit.cycle w)

theorem watched_new {name : String} {edge : Edge} {depth n : Nat} {blank : α} {flip : Option Flip}
    (hblank : Payload.isBubble blank = true) (hpos : 0 < depth) (hdepth : depth ≤ n) :
    (⟨name, edge, .new depth blank, flip⟩ : Register α).Watched (List.replicate n false) :=
  ⟨clean_new hblank, seen_new hblank hpos hdepth⟩

end Register

/-! ## Cycles that end in a stop -/

namespace Pipeline

variable {p : Pipeline Stages} {now : Nat}

/-- The lifecycle as the work of the stages leaves it. -/
theorem lifecycle_finished (p : Pipeline Stages) (now : Nat) :
    (p.finished now).activity = (p.activity.noteIf (p.struckWork now).busy).advance ∧
      (p.finished now).signalDue = p.signalDue ∧ (p.finished now).running = p.running ∧
      (p.finished now).allowIdling = p.allowIdling ∧
      (p.finished now).drainState = p.begin.drainState := by
  obtain ⟨units, unitFlipped, heq, -⟩ := p.struck_eq now
  rw [finished, struckWork, heq]
  exact ⟨rfl, rfl, rfl, rfl, rfl⟩

/-- No flip in a register tells that the pipeline idles. -/
theorem idle_not_mem_ask (now : Nat) (es : List Edge) :
    ∀ rs, Event.idle ∉ (FaultLog.ask now es rs).2.2 := by
  have hevent : ∀ name i, Event.idle ∉ FaultLog.event name now i := by
    intro name i
    cases i <;> simp [FaultLog.event]
  induction es with
  | nil => simp [FaultLog.ask]
  | cons e es ih =>
    intro rs hmem
    rcases List.mem_append.mp hmem with hmem | hmem
    · exact hevent _ _ hmem
    · exact ih _ hmem

theorem idle_not_mem_flipUnit (s : Execute) : Event.idle ∉ s.flipUnit.2.2 := by
  unfold Execute.flipUnit
  split <;> simp

theorem idle_not_mem_injectUnits (p : Pipeline Stages) : Event.idle ∉ p.injectUnits.2 := by
  unfold injectUnits
  split
  · exact idle_not_mem_flipUnit p.stages.execute
  · simp

theorem idle_not_mem_inject (p : Pipeline Stages) (now : Nat) : Event.idle ∉ (p.inject now).2 := by
  have hevents : (p.inject now).2 = (FaultLog.ask now p.faults.waiting p.registers).2.2 ++
      [.queuePolled now] ++ (injectUnits _).2 := rfl
  rw [hevents]
  simp only [List.mem_append, List.mem_singleton, not_or]
  exact ⟨⟨idle_not_mem_ask now _ _, by simp⟩, idle_not_mem_injectUnits _⟩

theorem idle_not_mem_redirect (s : LineFetch) (branch prediction : Redirect) :
    Event.idle ∉ (s.redirect branch prediction).2 := by
  unfold LineFetch.redirect LineFetch.changeStream
  split
  · split
    · split <;> simp
    · simp
  · split <;> simp

theorem idle_not_mem_execute (s : Execute) (cycle : Nat) (b : Bundle) :
    Event.idle ∉ (s.evaluate cycle b).events := by
  unfold Execute.evaluate
  dsimp only
  split <;> simp

theorem idle_not_mem_stages (s : Stages) (cycle : Nat) (o : Outputs) :
    Event.idle ∉ (s.evaluate cycle o).events := by
  intro hmem
  rcases List.mem_append.mp hmem with hmem | hmem
  · exact idle_not_mem_execute s.execute cycle o.dToE hmem
  · exact idle_not_mem_redirect s.lineFetch o.eToF1 o.f2ToF1 hmem

theorem idle_not_mem_settle (p : Pipeline Stages) : Event.idle ∉ p.settle.2.2 := by
  unfold settle
  split
  · split
    · simp
    · rename_i hbusy
      simp only [undrainedEvents, hbusy]
      simp
  · simp

/-- **A cycle tells that the pipeline idles if and only if it stops for want of work**: it may, no
signal is owed, and the recorder remembers nothing. -/
theorem idle_mem_iff : Event.idle ∈ (p.evaluate now).events ↔
    p.allowIdling = true ∧ p.signalDue = false ∧ (p.finished now).activity.isActive = false := by
  obtain ⟨-, hdue, -, hallow, -⟩ := p.lifecycle_finished now
  have hevents : (p.evaluate now).events = (p.begin.inject now).2 ++
      (p.struck now).runStages.2.events ++ [_, _] ++ (p.finished now).idle.2 ++
        (p.finished now).idle.1.settle.2.2 := rfl
  have hidle : Event.idle ∈ (p.evaluate now).events ↔ Event.idle ∈ (p.finished now).idle.2 := by
    rw [hevents]
    simp only [List.mem_append, List.mem_cons, idle_not_mem_inject, idle_not_mem_settle,
      show Event.idle ∉ (p.struck now).runStages.2.events from idle_not_mem_stages _ _ _]
    simp
  rw [hidle, idle, hallow, hdue]
  cases hidling : p.allowIdling <;> cases hsignal : p.signalDue <;> simp

/-! ## What every cycle keeps -/

/-- The recorder is right, and has seen all that is on its way forward. -/
structure Watched (n : Nat) (p : Pipeline Stages) : Prop where
  activity : p.activity.Tallied n
  lines : p.registers.f1ToF2.Watched p.activity.past
  cut : p.registers.f2ToD.Watched p.activity.past
  decoded : p.registers.dToE.Watched p.activity.past
  redirects : p.registers.eToF1.Watched p.activity.past
  draining : p.drainState = .draining → p.signalDue = true

/-- Stages and registers hold nothing, but for predictions, and nothing is to be done. -/
structure Quiet (p : Pipeline Stages) : Prop where
  stages : p.stages.Quiet
  lines : p.registers.isEmpty .f1ToF2 = true
  cut : p.registers.isEmpty .f2ToD = true
  decoded : p.registers.isEmpty .dToE = true
  redirects : p.registers.isEmpty .eToF1 = true

variable {n : Nat}

theorem activity_settle (p : Pipeline Stages) : p.settle.1.activity = p.activity := by
  unfold settle
  split
  · split <;> rfl
  · rfl

theorem activity_idle (p : Pipeline Stages) :
    p.idle.1.activity = if p.allowIdling then p.activity.unmarkAll else p.activity := by
  unfold idle
  split <;> rfl

/-- The recorder after a cycle: the cycle is noted, and no mark outlasts it where idling is
allowed. -/
theorem activity_evaluate (p : Pipeline Stages) (now : Nat) :
    (p.evaluate now).pipeline.activity =
      if p.allowIdling then (p.activity.noteIf (p.struckWork now).busy).advance.unmarkAll
      else (p.activity.noteIf (p.struckWork now).busy).advance := by
  obtain ⟨hactivity, -, -, hallow, -⟩ := p.lifecycle_finished now
  rw [(p.evaluate_eq_finished now).1, activity_settle, activity_idle, hallow, hactivity]

theorem past_evaluate (h : p.activity.Tallied n) (now : Nat) :
    (p.evaluate now).pipeline.activity.Tallied n ∧
      (p.evaluate now).pipeline.activity.past =
        (p.activity.past ++ [(p.struckWork now).busy]).tail := by
  obtain ⟨htallied, hpast, -⟩ := h.advance (p.struckWork now).busy
  obtain ⟨hunmarked, hpast', -⟩ := htallied.unmarkAll
  rw [activity_evaluate]
  split
  · exact ⟨hunmarked, hpast'.trans hpast⟩
  · exact ⟨htallied, hpast⟩

/-- A drain is only left with its signal. -/
theorem draining_evaluate (h : p.drainState = .draining → p.signalDue = true) (now : Nat) :
    (p.evaluate now).pipeline.drainState = .draining →
      (p.evaluate now).pipeline.signalDue = true := by
  obtain ⟨-, hdue, -, -, hdrain⟩ := p.lifecycle_finished now
  have hbegin : p.begin.drainState = .draining → p.signalDue = true := by
    unfold begin
    dsimp only
    split
    · exact fun hno => DrainState.noConfusion hno
    · exact h
  have hsettle : ∀ q : Pipeline Stages, (q.drainState = .draining → q.signalDue = true) →
      q.settle.1.drainState = .draining → q.settle.1.signalDue = true := by
    intro q hq
    unfold settle
    split
    · split
      · exact fun hno => DrainState.noConfusion hno
      · exact hq
    · exact hq
  rw [(p.evaluate_eq_finished now).1]
  refine hsettle _ ?_
  unfold idle
  split <;> rw [hdrain, hdue] <;> exact hbegin

namespace Watched

/-- **The recorder sees what is written in a cycle**, faults or not. -/
theorem evaluate (h : p.Watched n) (now : Nat) : (p.evaluate now).pipeline.Watched n := by
  obtain ⟨htallied, hpast⟩ := past_evaluate h.activity now
  have hhit := p.registers_struck_hit now
  have hwrites : (p.struckWork now).busy = false → _ := Stages.writes_of_busy
  obtain ⟨-, hregisters, -, -⟩ := p.evaluate_struck now
  refine ⟨htallied, ?_, ?_, ?_, ?_, draining_evaluate h.draining now⟩
  · rw [hpast, hregisters]
    exact h.lines.cycle hhit.lines fun hidle => (hwrites hidle).1
  · rw [hpast, hregisters]
    exact h.cut.cycle hhit.cut fun hidle => (hwrites hidle).2.1
  · rw [hpast, hregisters]
    exact h.decoded.cycle hhit.decoded fun hidle => (hwrites hidle).2.2.1
  · rw [hpast, hregisters]
    exact h.redirects.cycle hhit.redirects fun hidle => (hwrites hidle).2.2.2

theorem wakeFetch (h : p.Watched n) (t : UInt32) : (p.wakeFetch t).1.Watched n := by
  have hpast : (p.activity.mark .fetch1).past = p.activity.past := by
    unfold Activity.mark
    split <;> rfl
  refine ⟨h.activity.mark _, ?_, ?_, ?_, ?_, h.draining⟩
  · exact hpast.symm ▸ h.lines
  · exact hpast.symm ▸ h.cut
  · exact hpast.symm ▸ h.decoded
  · exact hpast.symm ▸ h.redirects

theorem wakeAll (ts : List UInt32) : ∀ {p : Pipeline Stages}, p.Watched n →
    (p.wakeAll ts).1.Watched n :=
  wakeAll_induction (fun _ t h => h.wakeFetch t) ts

theorem drain (h : p.Watched n) : p.drain.1.Watched n := by
  unfold Pipeline.drain
  simp only
  split
  · exact ⟨h.activity, h.lines, h.cut, h.decoded, h.redirects, fun hno => DrainState.noConfusion hno⟩
  · exact ⟨h.activity, h.lines, h.cut, h.decoded, h.redirects, fun _ => rfl⟩

theorem resume (h : p.Watched n) (threads : Nat) : (p.resume threads).1.Watched n :=
  { wakeAll (threadNumbers threads) h with draining := fun hno => DrainState.noConfusion hno }

/-- **A pipeline that stops for want of work is quiet**, and no drain is under way. -/
theorem quiet_of_idle (h : p.Watched n) (hpos : 0 < n)
    (hidle : Event.idle ∈ (p.evaluate now).events) :
    (p.evaluate now).pipeline.Quiet ∧ (p.evaluate now).pipeline.running = false ∧
      (p.evaluate now).pipeline.signalDue = false ∧
      (p.evaluate now).pipeline.drainState ≠ .draining := by
  obtain ⟨hallow, hdue, hinactive⟩ := idle_mem_iff.mp hidle
  obtain ⟨hactivity, hdue', hrunning, hallow', -⟩ := p.lifecycle_finished now
  have hwatched := h.evaluate now
  obtain ⟨htallied, hpast⟩ := past_evaluate h.activity now
  obtain ⟨hnoted, hpast', -⟩ := h.activity.advance (p.struckWork now).busy
  have hnone : ∀ busy ∈ (p.evaluate now).pipeline.activity.past, busy = false := by
    rw [hactivity] at hinactive
    rw [hpast, ← hpast']
    exact (hnoted.isActive_eq_false_iff.mp hinactive).2
  have hbusy : (p.struckWork now).busy = false := by
    refine hnone _ ?_
    have hlength := h.activity.length
    obtain ⟨x, past, hcons⟩ := List.exists_cons_of_ne_nil (List.ne_nil_of_length_pos (hlength ▸ hpos))
    rw [hpast, hcons]
    simp
  have hstages : (p.evaluate now).pipeline.stages.Quiet := by
    rw [(p.evaluate_struck now).1]
    exact Stages.quiet_of_busy hbusy
  have hend : (p.evaluate now).pipeline.running = false ∧
      (p.evaluate now).pipeline.signalDue = false := by
    obtain ⟨hdue'', -, hrunning'⟩ := idle_of_idling (hdue'.trans hdue) (hallow'.trans hallow)
    rw [(p.evaluate_eq_finished now).1, settle_of_none hdue'', hrunning', hinactive]
    exact ⟨Bool.and_false _, hdue''⟩
  refine ⟨⟨hstages, hwatched.lines.seen.isEmpty hwatched.lines.clean hnone,
    hwatched.cut.seen.isEmpty hwatched.cut.clean hnone,
    hwatched.decoded.seen.isEmpty hwatched.decoded.clean hnone,
    hwatched.redirects.seen.isEmpty hwatched.redirects.clean hnone⟩, hend.1, hend.2, fun hdrain => ?_⟩
  exact absurd (hwatched.draining hdrain) (by rw [hend.2]; exact Bool.false_ne_true)

end Watched

/-! ## Quiet pipelines -/

/-- The pipeline after evaluations at some ticks, with no other call in between. -/
def evaluateAll (p : Pipeline Stages) (ticks : List Nat) : Pipeline Stages :=
  ticks.foldl (fun p now => (p.evaluate now).pipeline) p

/-- An empty register to which nothing is written stays empty. -/
theorem isEmpty_cycle {α : Type} [Payload α] {r : Register α} (hr : r.Clean)
    (h : r.isEmpty = true) : (r.write? none).advance.isEmpty = true := by
  refine Register.isEmpty_of_held (Register.clean_cycle hr none) ?_
  rw [Register.held_cycle hr]
  exact (List.append_nil _).trans (List.append_eq_nil_iff.mp (Register.held_of_isEmpty h)).2

namespace Quiet

/-- Nothing but predictions is in the registers of a quiet pipeline. -/
theorem isEmpty (h : p.Quiet) {e : Edge} (he : e ≠ .f2ToF1) : p.registers.isEmpty e = true := by
  cases e with
  | f1ToF2 => exact h.lines
  | f2ToD => exact h.cut
  | dToE => exact h.decoded
  | eToF1 => exact h.redirects
  | f2ToF1 => exact absurd rfl he

/-- Nothing but a prediction comes to the stages of a quiet pipeline. -/
theorem outputs (h : p.Quiet) : p.registers.outputs.Quiet where
  line := List.all_eq_true.mp h.lines _ List.mem_cons_self
  cut := List.all_eq_true.mp h.cut _ List.mem_cons_self
  decoded := List.all_eq_true.mp h.decoded _ List.mem_cons_self
  redirect := List.all_eq_true.mp h.redirects _ List.mem_cons_self

/-- **A quiet pipeline does nothing when it is evaluated**, and stays quiet, where no register waits
for a flip. -/
theorem evaluate (h : p.Quiet) (hw : p.Watched n) (hwaiting : p.faults.waiting = []) (now : Nat) :
    (p.struckWork now).writes = {} ∧ (p.evaluate now).retired = [] ∧
      (p.evaluate now).pipeline.stages = p.polled now ∧ (p.evaluate now).pipeline.Quiet ∧
      (p.evaluate now).pipeline.faults.waiting = [] := by
  obtain ⟨units, hstruck, halike⟩ := p.stages_struck now
  obtain ⟨hregisters, hfaults⟩ := registers_struck now hwaiting
  obtain ⟨hstages', hregisters', -, hfaults'⟩ := p.evaluate_struck now
  obtain rfl : units = [] := by
    rw [h.stages.units] at halike
    exact List.forall₂_nil_left_iff.mp halike
  have hstages : (p.struck now).stages = p.polled now := by
    have hunits : (p.polled now).execute.units = [] := h.stages.units
    rw [hstruck, ← hunits]
  have hquiet : (p.polled now).Quiet := ⟨h.stages.pending, h.stages.stopped, h.stages.lines,
    h.stages.bundles, h.stages.queued, h.stages.units, h.stages.halts⟩
  obtain ⟨hsame, hwrites, hretired⟩ := hquiet.evaluate h.outputs (p.stats.cycles + 1)
  have hwork : p.struckWork now = (p.polled now).evaluate (p.stats.cycles + 1) p.registers.outputs := by
    rw [struckWork, hstages, hregisters]
  rw [hwork, hsame] at hstages'
  rw [hwork, hwrites, hregisters] at hregisters'
  refine ⟨hwork ▸ hwrites, ?_, hstages', ⟨hstages' ▸ hquiet, ?_, ?_, ?_, ?_⟩, ?_⟩
  · rw [(p.evaluate_eq_finished now).2, hwork, hretired]
  · rw [hregisters']
    exact isEmpty_cycle hw.lines.clean h.lines
  · rw [hregisters']
    exact isEmpty_cycle hw.cut.clean h.cut
  · rw [hregisters']
    exact isEmpty_cycle hw.decoded.clean h.decoded
  · rw [hregisters']
    exact isEmpty_cycle hw.redirects.clean h.redirects
  · rw [hfaults', hfaults, hwaiting]

/-- **A quiet pipeline stays quiet however often it is evaluated**, and its line fetch stays as it
is. -/
theorem evaluateAll (ticks : List Nat) : ∀ {p : Pipeline Stages}, p.Quiet → p.Watched n →
    p.faults.waiting = [] →
      (p.evaluateAll ticks).Quiet ∧ (p.evaluateAll ticks).Watched n ∧
        (p.evaluateAll ticks).faults.waiting = [] ∧
        (p.evaluateAll ticks).stages.lineFetch = p.stages.lineFetch := by
  induction ticks with
  | nil => exact fun h hw hwaiting => ⟨h, hw, hwaiting, rfl⟩
  | cons now ticks ih =>
    intro p h hw hwaiting
    obtain ⟨-, -, hstages, hquiet, hwaiting'⟩ := h.evaluate hw hwaiting now
    obtain ⟨hlast, hwatched, hnone, hsame⟩ := ih hquiet (hw.evaluate now) hwaiting'
    exact ⟨hlast, hwatched, hnone, hsame.trans (congrArg (·.lineFetch) hstages)⟩

end Quiet

end Pipeline

/-! ## The start -/

/-- A new register is watched, whatever flip is scheduled. -/
theorem Registers.watched_new {c : PipelineConfig} (hc : c.Admitted) {owner : String}
    {rs : Registers} (h : Registers.new owner c = .ok rs) :
    rs.f1ToF2.Watched (List.replicate c.longestForwardDelay false) ∧
      rs.f2ToD.Watched (List.replicate c.longestForwardDelay false) ∧
      rs.dToE.Watched (List.replicate c.longestForwardDelay false) ∧
      rs.eToF1.Watched (List.replicate c.longestForwardDelay false) := by
  obtain rfl := Registers.eq_of_new h
  have hbundle : Payload.isBubble (Bundle.empty c.width.toNat) = true := rfl
  unfold PipelineConfig.longestForwardDelay
  refine ⟨Register.watched_new Flag.isSet_set (hc.delays .f1ToF2) ?_,
    Register.watched_new hbundle (hc.delays .f2ToD) ?_,
    Register.watched_new hbundle (hc.delays .dToE) ?_,
    Register.watched_new Flag.isSet_set (hc.delays .eToF1) ?_⟩ <;> omega

/-- The longest way forward takes a cycle at least. -/
theorem PipelineConfig.Admitted.longestForwardDelay_pos {c : PipelineConfig} (hc : c.Admitted) :
    0 < c.longestForwardDelay := by
  have hdelay : 0 < c.delays.eToF1.toNat := hc.delays .eToF1
  unfold PipelineConfig.longestForwardDelay
  omega

/-- The recorder of a new pipeline has missed nothing. -/
theorem Pipeline.watched_of_new {c : Config} {stages : Stages} {p : Pipeline Stages}
    {events : List Event} (h : Pipeline.new c stages = .ok (p, events)) :
    p.Watched c.pipeline.longestForwardDelay ∧ 0 < c.pipeline.longestForwardDelay := by
  obtain ⟨blank, registers, faults, scheduled, hadmitted, hblank, hfaults, rfl⟩ := of_new_eq_ok h
  obtain ⟨hlines, hcut, hdecoded, hredirects⟩ :=
    Registers.watched_new hadmitted.toAdmitted hblank
  have hsame := agree_of_scheduleFault hfaults
  exact ⟨⟨.new _ _, hlines.of_line hsame.lines, hcut.of_line hsame.cut,
    hdecoded.of_line hsame.decoded, hredirects.of_line hsame.redirects,
    fun hno => DrainState.noConfusion hno⟩, hadmitted.longestForwardDelay_pos⟩

end InOrder
