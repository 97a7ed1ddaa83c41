import InOrder.Proofs.Evaluations

/-!
# Bubbles in the statistics

The statistics count, for each register, the ticks that passed before the evaluations in which its
output counted as a bubble. The output is looked at before the flips of the cycle, so a flip has no
part in this (`Pipeline.Metered.evaluate`).

Whether an output counts as a bubble was decided when the stages wrote to the input, as many
evaluations ago as the register has slots in its row. So what the outputs have shown, and then what
is still in the row, is what was written, with as many bubbles before it as the row is long
(`Pipeline.Metered.shown`).

* `bubbles_exact`: the count of bubbles is that sum of ticks, and no more than the time of the last
  evaluation. In a run that is evaluated at each step of the clock, and while the clock fits in a
  word, the other ticks, in which the output was no bubble, are a period for each payload that was
  written `delay` evaluations before the end, or earlier.
-/

namespace InOrder

/-! ## Registers -/

namespace Register

variable {α : Type} [Payload α] {r r' : Register α}

/-- Which slots of the row count as filled. -/
def loads (r : Register α) : List Bool := r.row.map fun a => !Payload.countsAsBubble a

/-- There is something to write that counts. -/
def effective (w : Option α) : Bool := w.any fun a => !Payload.countsAsBubble a

/-- Where nothing is written the input counts as a bubble. -/
structure Unwritten (r : Register α) : Prop where
  input : Payload.countsAsBubble r.input = true
  blank : Payload.countsAsBubble r.line.blank = true

/-- **After a cycle the row has what was written at its end**, also after a flip. -/
theorem loads_cycle (hit : r.Hit r') (h : r.Unwritten) (w : Option α) :
    (r'.write? w).advance.Unwritten ∧
      (r'.write? w).advance.loads = r.loads.tail ++ [effective w] := by
  have hline := hit.cycle w
  have hblank : (r.write? w).advance.line.input = r.line.blank ∧
      (r.write? w).advance.line.blank = r.line.blank := by
    unfold advance DelayLine.advance
    cases w <;> cases hm : r.line.middle <;> simp [write?, write, DelayLine.write, hm]
  have hloads : (r'.write? w).advance.loads = (r.write? w).advance.loads :=
    congrArg (fun l : DelayLine α => (l.output :: l.middle).map fun a => !Payload.countsAsBubble a)
      hline
  refine ⟨⟨?_, ?_⟩, ?_⟩
  · rw [input, hline, hblank.1]
    exact h.blank
  · rw [hline, hblank.2]
    exact h.blank
  · rw [hloads, loads, row_cycle, List.map_append, List.map_tail, input_write?]
    cases w with
    | none => simp [loads, effective, h.input]
    | some a => rfl

theorem loads_new {name : String} {edge : Edge} {depth : Nat} {blank : α} {flip : Option Flip}
    (hdepth : 0 < depth) (hblank : Payload.countsAsBubble blank = true) :
    (⟨name, edge, .new depth blank, flip⟩ : Register α).Unwritten ∧
      (⟨name, edge, .new depth blank, flip⟩ : Register α).loads = List.replicate depth false := by
  obtain ⟨n, rfl⟩ : ∃ n, depth = n + 1 := ⟨depth - 1, by omega⟩
  have hrow : (⟨name, edge, .new (n + 1) blank, flip⟩ : Register α).row =
      List.replicate (n + 1) blank := rfl
  refine ⟨⟨hblank, hblank⟩, ?_⟩
  rw [loads, hrow, List.map_replicate, hblank]
  rfl

end Register

namespace Registers

variable {rs rs' : Registers} {e : Edge}

def loads (rs : Registers) (e : Edge) : List Bool := rs.view e Register.loads

def Unwritten (rs : Registers) (e : Edge) : Prop := rs.view e Register.Unwritten

/-- A flip that is scheduled is not seen by what looks at the line only. -/
theorem view_armed {β : Type} {g : {α : Type} → [Payload α] → Register α → β}
    (hg : ∀ {α : Type} [Payload α] (r : Register α) (f : Flip), g { r with flip := some f } = g r)
    (rs : Registers) (e e' : Edge) (f : Flip) : (rs.armed e f).view e' g = rs.view e' g := by
  cases e <;> cases e' <;> first | rfl | exact hg _ f

end Registers

/-- There is something to write for an edge that counts. -/
def Writes.effective (w : Writes) : Edge → Bool
  | .f1ToF2 => Register.effective w.f1ToF2
  | .f2ToD => Register.effective w.f2ToD
  | .dToE => Register.effective w.dToE
  | .eToF1 => Register.effective w.eToF1
  | .f2ToF1 => Register.effective w.f2ToF1

theorem Registers.loads_cycle {rs rs' : Registers} {e : Edge} (hit : rs.Hit rs')
    (h : rs.Unwritten e) (w : Writes) : (rs'.write w).advance.Unwritten e ∧
      (rs'.write w).advance.loads e = (rs.loads e).tail ++ [w.effective e] := by
  cases e with
  | f1ToF2 => exact Register.loads_cycle hit.lines h w.f1ToF2
  | f2ToD => exact Register.loads_cycle hit.cut h w.f2ToD
  | dToE => exact Register.loads_cycle hit.decoded h w.dToE
  | eToF1 => exact Register.loads_cycle hit.redirects h w.eToF1
  | f2ToF1 => exact Register.loads_cycle hit.predictions h w.f2ToF1

/-! ## Evaluations -/

namespace Evaluation

/-- What stands at the output of an edge before any flip counts as a bubble. -/
def bubble (v : Evaluation) (e : Edge) : Bool :=
  v.pipeline.registers.view e fun r => Payload.countsAsBubble r.output

/-- The stages write to the input of an edge what does not count as a bubble. -/
def sends (v : Evaluation) (e : Edge) : Bool := v.writes.effective e

end Evaluation

/-- The tick of the last of some evaluations, before which the last was at tick `last`. -/
def lastTick (last : Nat) : List Evaluation → Nat
  | [] => last
  | v :: vs => lastTick v.now vs

/-- The ticks that passed before those of some evaluations in which the output of an edge counts as
a bubble. The evaluation before them was at tick `last`. -/
def bubbleTime (e : Edge) (last : Nat) : List Evaluation → Nat
  | [] => 0
  | v :: vs => (if v.bubble e then v.now - last else 0) + bubbleTime e v.now vs

section Time

variable {e : Edge}

theorem lastTick_concat (v : Evaluation) (vs : List Evaluation) :
    ∀ last, lastTick last (vs ++ [v]) = v.now := by
  induction vs with
  | nil => exact fun _ => rfl
  | cons u vs ih => exact fun _ => ih u.now

theorem bubbleTime_concat (v : Evaluation) (vs : List Evaluation) : ∀ last,
    bubbleTime e last (vs ++ [v]) =
      bubbleTime e last vs + if v.bubble e then v.now - lastTick last vs else 0 := by
  induction vs with
  | nil => exact fun _ => Nat.add_comm _ _
  | cons u vs ih =>
    intro last
    rw [List.cons_append, bubbleTime, ih, bubbleTime, lastTick, Nat.add_assoc]

/-- As long as the ticks climb, no time is counted twice. -/
theorem bubbleTime_le (vs : List Evaluation) : ∀ {last : Nat},
    (last :: vs.map Evaluation.now).Pairwise (· ≤ ·) →
      bubbleTime e last vs + last ≤ lastTick last vs := by
  induction vs with
  | nil => exact fun _ => Nat.le_of_eq (Nat.zero_add _)
  | cons v vs ih =>
    intro last hclimb
    obtain ⟨hfirst, hrest⟩ := List.pairwise_cons.mp hclimb
    have hle : last ≤ v.now := hfirst v.now List.mem_cons_self
    have hkept := ih hrest
    rw [bubbleTime, lastTick]
    split <;> omega

end Time

/-! ## The pipeline -/

namespace Pipeline

/-- The statistics of a pipeline say what they say of the evaluations that led to it, and its
register of an edge has what was written last. -/
structure Metered (e : Edge) (depth : Nat) (p : Pipeline Stages) (vs : List Evaluation) : Prop where
  unwritten : p.registers.Unwritten e
  shown : vs.map (!·.bubble e) ++ p.registers.loads e =
    List.replicate depth false ++ vs.map (·.sends e)
  time : p.stats.bubbleTicks.get e = bubbleTime e 0 vs
  last : p.lastSnapshot = lastTick 0 vs
  cycles : p.stats.cycles = vs.length

namespace Metered

variable {e : Edge} {depth : Nat} {p q : Pipeline Stages} {vs : List Evaluation}

/-- The row begins with what the output shows. -/
theorem loads_eq (p : Pipeline Stages) (e : Edge) (now : Nat) :
    p.registers.loads e = (!Evaluation.bubble ⟨p, now⟩ e) :: (p.registers.loads e).tail := by
  cases e <;> rfl

/-- **An evaluation adds the time that has passed, if the output counts as a bubble**, and moves the
row on by what is written. -/
theorem evaluate (h : p.Metered e depth vs) (now : Nat) :
    (p.evaluate now).pipeline.Metered e depth (vs ++ [⟨p, now⟩]) := by
  obtain ⟨-, hregisters, hcycles, -⟩ := p.evaluate_struck now
  obtain ⟨hunwritten, hloads⟩ :=
    Registers.loads_cycle (p.registers_struck_hit now) h.unwritten (p.struckWork now).writes
  rw [← hregisters] at hunwritten hloads
  have hlast : (p.evaluate now).pipeline.lastSnapshot = now := (p.units_evaluate now).2.2
  have hbubble : p.registers.snapshot.bubble.get e = Evaluation.bubble ⟨p, now⟩ e :=
    p.registers.get_bubble_snapshot e
  refine ⟨hunwritten, ?_, ?_, ?_, ?_⟩
  · have hshown := h.shown
    rw [loads_eq p e now] at hshown
    rw [hloads, List.map_append, List.map_append, List.append_assoc,
      ← List.append_assoc _ (List.tail _), ← List.append_assoc, ← List.append_assoc (List.replicate _ _), ← hshown]
    rfl
  · rw [p.stats_evaluate now, bubbleTime_concat, ← h.time, ← h.last, ← hbubble]
    show (Stats.addBubbles _ _ _).bubbleTicks.get e = _
    rw [Stats.addBubbles, PerEdge.get_ofFn]
    split <;> rfl
  · rw [hlast, lastTick_concat]
  · rw [hcycles, h.cycles, List.length_append, List.length_singleton]

/-- What touches neither registers nor statistics is not seen. -/
theorem of_eq (h : p.Metered e depth vs) (hregisters : q.registers = p.registers)
    (hstats : q.stats = p.stats) (hlast : q.lastSnapshot = p.lastSnapshot) :
    q.Metered e depth vs :=
  ⟨hregisters ▸ h.unwritten, hregisters ▸ h.shown, hstats ▸ h.time, hlast ▸ h.last,
    hstats ▸ h.cycles⟩

theorem wakeFetch (h : p.Metered e depth vs) (t : UInt32) :
    (p.wakeFetch t).1.Metered e depth vs := h.of_eq rfl rfl rfl

theorem drain (h : p.Metered e depth vs) : p.drain.1.Metered e depth vs := by
  unfold Pipeline.drain
  simp only
  split <;> exact h.of_eq rfl rfl rfl

theorem resume (h : p.Metered e depth vs) (n : Nat) : (p.resume n).1.Metered e depth vs := by
  have hwoken : (p.wakeAll (threadNumbers n)).1.Metered e depth vs :=
    wakeAll_induction (P := fun q => q.Metered e depth vs) (fun _ t h => h.wakeFetch t) _ h
  exact hwoken.of_eq rfl rfl rfl

theorem perform (h : p.Metered e depth vs) {o : Order} (ho : o.tick? = none) :
    (p.perform o).Metered e depth vs := by
  cases o with
  | evaluate now => nomatch ho
  | wake t => exact h.wakeFetch t
  | drain => exact h.drain
  | resume n => exact h.resume n
  | start => exact h.of_eq rfl rfl rfl
  | stop => exact h.of_eq rfl rfl rfl

/-- **The outputs have shown what was written in the first evaluations**, all but as many as the row
has slots. -/
theorem countP_bubble (h : p.Metered e depth vs) :
    vs.countP (!·.bubble e) = (vs.take (vs.length - depth)).countP (·.sends e) := by
  have hshown := congrArg (List.take vs.length) h.shown
  rw [List.take_left' (List.length_map _), List.take_append, List.length_replicate,
    ← List.map_take] at hshown
  have hnone : ((List.replicate depth false).take vs.length).countP id = 0 := by
    rw [List.take_replicate, List.countP_replicate]
    rfl
  have hcount := congrArg (List.countP id) hshown
  rw [List.countP_append, hnone, Nat.zero_add, List.countP_map, List.countP_map] at hcount
  exact hcount

end Metered

/-- Blank registers with a flip in one of them. -/
theorem view_of_scheduleFault {β : Type} {g : {α : Type} → [Payload α] → Register α → β}
    (hg : ∀ {α : Type} [Payload α] (r : Register α) (f : Flip), g { r with flip := some f } = g r)
    {rs rs' : Registers} {c : FaultConfig} {faults : FaultLog} {events : List Event}
    (h : scheduleFault rs c = .ok (rs', faults, events)) (e : Edge) :
    rs'.view e g = rs.view e g := by
  obtain ⟨target, htarget, -⟩ := of_bind_eq_ok h
  cases target with
  | none =>
    rw [scheduleFault, htarget] at h
    obtain rfl := congrArg Prod.fst (Except.ok.inj h)
    rfl
  | some e' =>
    rw [scheduleFault_of_target htarget] at h
    obtain rfl := congrArg Prod.fst (Except.ok.inj h)
    exact Registers.view_armed hg rs e' e _

theorem metered_of_new {c : Config} {stages : Stages} {p : Pipeline Stages} {events : List Event}
    (h : Pipeline.new c stages = .ok (p, events)) (e : Edge) :
    p.Metered e (c.pipeline.delays.get e).toNat [] := by
  obtain ⟨blank, registers, faults, scheduled, hadmitted, hblank, hfaults, rfl⟩ := of_new_eq_ok h
  have hnew : blank.Unwritten e ∧
      blank.loads e = List.replicate (c.pipeline.delays.get e).toNat false := by
    obtain rfl := Registers.eq_of_new hblank
    have hdelay := hadmitted.delays e
    cases e <;> exact Register.loads_new hdelay (by rfl)
  refine ⟨?_, ?_, PerEdge.get_all 0 e, rfl, rfl⟩
  · have hflip : ∀ {α : Type} [Payload α] (r : Register α) (f : Flip),
        ({ r with flip := some f } : Register α).Unwritten = r.Unwritten := fun _ _ =>
      propext ⟨fun h => ⟨h.input, h.blank⟩, fun h => ⟨h.input, h.blank⟩⟩
    exact (view_of_scheduleFault hflip hfaults e).mpr hnew.1
  · exact ((view_of_scheduleFault (fun _ _ => rfl) hfaults e).trans hnew.2).trans
      (List.append_nil _).symm

end Pipeline

/-! ## Sessions -/

/-- The clock of a session, and what it says of the evaluations if each of its steps was one. -/
structure Session.Timed (period : Nat) (e : Edge) (s : Session) (vs : List Evaluation) : Prop where
  clock : s.simulator.period = period
  tick : period * vs.length ≤ s.simulator.tick
  last : lastTick 0 vs ≤ s.simulator.tick
  bubbles : bubbleTime e 0 vs ≤ lastTick 0 vs
  /-- The last evaluation is at the tick of the clock, and a period of it is counted for each one in
  which the output is no bubble. -/
  whole : s.simulator.tick = period * vs.length → lastTick 0 vs = s.simulator.tick ∧
    bubbleTime e 0 vs + period * vs.countP (!·.bubble e) = s.simulator.tick

/-- A step that is an evaluation is a period more, with a bubble or without. -/
theorem Session.Timed.step {period : Nat} {e : Edge} {s : Session} {vs : List Evaluation}
    (h : s.Timed period e vs) : s.step.Timed period e (vs ++ s.evaluationOfStep) := by
  have htick := s.tick_step
  have hpositive := s.simulator.period_pos
  have hle := h.tick
  have hlast := h.last
  have hbubbles := h.bubbles
  rw [h.clock] at htick hpositive
  refine ⟨s.period_step.trans h.clock, ?_, ?_, ?_, ?_⟩
  · rw [evaluationOfStep, htick]
    split
    · rw [List.length_append, List.length_singleton, Nat.mul_succ]
      omega
    · rw [List.append_nil]
      omega
  · rw [evaluationOfStep, htick, h.clock]
    split
    · rw [lastTick_concat]
    · rw [List.append_nil]
      omega
  · rw [evaluationOfStep, h.clock]
    split
    · rw [bubbleTime_concat, lastTick_concat]
      dsimp only
      split <;> omega
    · rw [List.append_nil]
      exact hbubbles
  · intro hwhole
    rw [evaluationOfStep, h.clock] at hwhole ⊢
    rw [htick] at hwhole ⊢
    by_cases hrun : s.pipeline.running = true
    · rw [if_pos hrun] at hwhole ⊢
      rw [List.length_append, List.length_singleton, Nat.mul_succ] at hwhole
      obtain ⟨hlast, hcount⟩ := h.whole (by omega)
      rw [lastTick_concat, bubbleTime_concat, hlast, List.countP_append, List.countP_singleton]
      refine ⟨rfl, ?_⟩
      dsimp only
      rw [Nat.add_sub_cancel_left, Nat.mul_add]
      cases Evaluation.bubble ⟨s.pipeline, s.simulator.tick + period⟩ e
      · simp only [Bool.not_false, Bool.false_eq_true, if_true, if_false]
        omega
      · simp only [Bool.not_true, Bool.false_eq_true, if_true, if_false]
        omega
    · rw [if_neg hrun, List.append_nil] at hwhole
      omega

/-- **Bubbles are counted exactly.** In a new pipeline, with any faults, that is evaluated at ticks
that do not fall, the bubble ticks of a register are the ticks that passed before those evaluations
in which its output counted as a bubble, before any flip; so they are no more than the tick of the
last evaluation, and fit in a word where the ticks do. In a session they are no more than the clock
tells. If the clock fits in a word of 64 bits and each step was an evaluation, the ticks that are no
bubbles are a period for each payload that counts and that the stages wrote to the register, up to
`delay` evaluations before the end. -/
theorem bubbles_exact {c : Config} {m : Image} (e : Edge) :
    (∀ p events, Pipeline.new c (.new Pipeline.owner c m) = .ok (p, events) → ∀ orders,
      (ticks orders).Pairwise (· ≤ ·) →
        (p.performAll orders).stats.bubbleTicks.get e = bubbleTime e 0 (p.evaluations orders) ∧
        (p.performAll orders).stats.bubbleTicks.get e ≤ (p.performAll orders).lastSnapshot) ∧
    ∀ s, Session.new c m = .ok s → ∀ calls,
      (s.after calls).pipeline.stats.cycles = (s.evaluations calls).length ∧
      (s.after calls).pipeline.stats.bubbleTicks.get e ≤ (s.after calls).simulator.tick ∧
      ((s.after calls).simulator.tick < UInt64.size →
        (s.after calls).simulator.tick =
          c.host.clockPeriod.toNat * (s.after calls).pipeline.stats.cycles →
        (s.after calls).pipeline.stats.bubbleTicks.get e + c.host.clockPeriod.toNat *
            ((s.evaluations calls).take ((s.after calls).pipeline.stats.cycles -
              (c.pipeline.delays.get e).toNat)).countP (·.sends e) =
          c.host.clockPeriod.toNat * (s.after calls).pipeline.stats.cycles) := by
  constructor
  · intro p events hnew orders hclimb
    have hmetered := Pipeline.log_induction
      (P := fun p vs => p.Metered e (c.pipeline.delays.get e).toNat vs)
      (fun _ _ now h => h.evaluate now) (fun _ _ _ ho h => h.perform ho) orders
      (Pipeline.metered_of_new hnew e)
    have hfrom : (0 :: (p.evaluations orders).map Evaluation.now).Pairwise (· ≤ ·) := by
      rw [Pipeline.map_now_evaluations]
      exact List.pairwise_cons.mpr ⟨fun now _ => Nat.zero_le now, hclimb⟩
    refine ⟨hmetered.time, ?_⟩
    rw [hmetered.time, hmetered.last]
    exact bubbleTime_le _ hfrom
  · intro s hnew calls
    obtain ⟨⟨events, hsimulator⟩, -⟩ := Session.simulator_of_new hnew
    obtain ⟨⟨told, hpipeline⟩, hhost, hperiod⟩ := Simulator.of_new_eq_ok hsimulator
    have hmetered := Session.pipeline_log_induction
      (P := fun p vs => p.Metered e (c.pipeline.delays.get e).toNat vs)
      (fun _ _ now h => h.evaluate now) (fun _ _ t h => h.wakeFetch t) (fun _ _ h => h.drain)
      (fun _ _ n h => h.resume n) calls (Pipeline.metered_of_new hpipeline e)
    have htick : s.simulator.tick = 0 := congrArg Host.tick hhost
    have hstart : s.Timed c.host.clockPeriod.toNat e [] :=
      ⟨hperiod, Nat.zero_le _, Nat.zero_le _, Nat.le_refl _, fun _ => ⟨htick.symm, htick.symm⟩⟩
    have htimed := Session.log_induction
      (P := fun s vs => s.Timed c.host.clockPeriod.toNat e vs) (fun _ _ h => h.step)
      (fun _ _ _ h => ⟨h.clock, h.tick, h.last, h.bubbles, h.whole⟩)
      (fun _ _ h => ⟨h.clock, h.tick, h.last, h.bubbles, h.whole⟩)
      (fun _ _ h => ⟨h.clock, h.tick, h.last, h.bubbles, h.whole⟩)
      (fun _ _ h => ⟨h.clock, h.tick, h.last, h.bubbles, h.whole⟩) calls hstart
    refine ⟨hmetered.cycles, ?_, fun _ hwhole => ?_⟩
    · rw [hmetered.time]
      exact Nat.le_trans htimed.bubbles htimed.last
    · rw [hmetered.cycles] at hwhole ⊢
      rw [← hmetered.countP_bubble, hmetered.time, ← hwhole]
      exact (htimed.whole hwhole).2

/-- A clock with a period of three ticks, and a flip in a register of delay two. -/
def Config.thrice : Config :=
  { host := { clockPeriod := 3 }
    pipeline := { delays := ⟨1, 2, 1, 1, 1⟩ }
    faults := { register := "f2ToD", tick := 15, bit := 0 } }

/-- A thread is woken, and eight steps are made. -/
def thriceCalls : List Call := .wake 0 :: List.replicate 8 .step

/-- Twelve of the 24 ticks are bubbles, although one of them was flipped. The others are four
bundles, so there were four in the first six evaluations. -/
theorem bubbles_exact_thrice : ∃ s, Session.new .thrice .brief = .ok s ∧
    (s.after thriceCalls).pipeline.faults.applied = [⟨.f2ToD, 15, 0⟩] ∧
    (s.after thriceCalls).pipeline.stats.bubbleTicks.get .f2ToD = 12 ∧
    ((s.evaluations thriceCalls).take 6).countP (·.sends .f2ToD) = 4 := by
  obtain ⟨s, hnew, hflip, htick, hcycles, hticks⟩ : ∃ s, Session.new .thrice .brief = .ok s ∧
      (s.after thriceCalls).pipeline.faults.applied = [⟨.f2ToD, 15, 0⟩] ∧
      (s.after thriceCalls).simulator.tick = 24 ∧
      (s.after thriceCalls).pipeline.stats.cycles = 8 ∧
      (s.after thriceCalls).pipeline.stats.bubbleTicks.get .f2ToD = 12 :=
    ⟨_, rfl, by decide +kernel⟩
  have hcounted := ((bubbles_exact .f2ToD).2 s hnew thriceCalls).2.2
  rw [hcycles, hticks, htick] at hcounted
  have hsum : 12 + 3 * ((s.evaluations thriceCalls).take 6).countP (·.sends .f2ToD) = 24 :=
    hcounted (by decide) rfl
  exact ⟨s, hnew, hflip, hticks, by omega⟩

end InOrder
