import InOrder.Proofs.Pipeline.Dead
import InOrder.Proofs.Session

/-!
# Flips of dead bits in a session

A session in which a bit of a payload is flipped that is not read goes on as a pipeline without the
flip would, but for what is of no stream (`Session.Stands`). Such chaff takes room in the queues and
slots in the bundles, so the flip can change when things happen, but it is thrown away where it
comes to the front, and each thread keeps to its course (`Session.flip_masked`).
-/

namespace InOrder

namespace Session

variable {c : Config} {m : Image} {e : Edge} {f : Flip} {s : Session} {q q' : Pipeline Stages}
  {t : UInt32}

/-- What the flip does in the next step, if it is due there, is done to a dead bit. -/
def FlipsDead (e : Edge) (f : Flip) (s : Session) : Prop :=
  s.pipeline.running = true → s.simulator.tick + s.simulator.period = f.tick →
    f.bit < s.pipeline.registers.bits e → s.pipeline.registers.DeadBit e f.bit

instance (e : Edge) (f : Flip) (s : Session) : Decidable (s.FlipsDead e f) := by
  unfold FlipsDead
  exact inferInstance

/-- The numbers of streams and predictions that are given out. -/
def Given (x : UInt64) : Prop := x ≠ firstSeq ∧ x ≠ 0

/-- The session stands the flip: its pipeline is `q`, but that the flip may still wait in it; without
chaff the lanes of `q` keep to the course, and so does all that has retired. -/
structure Stands (c : Config) (m : Image) (e : Edge) (f : Flip) (q : Pipeline Stages)
    (s : Session) : Prop where
  bears : s.pipeline.Bears e f q
  orderly : q.Orderly c m
  /-- The evaluations give out numbers that fit in a word, and there has to be a next one. -/
  straight : q.stats.cycles + 1 < UInt64.size → ∀ t : UInt32,
    t.toNat < c.host.threads.toNat → (q.lane s.history t).Straight (c.track m Given t)
  retires : ∀ t : UInt32, t.toNat < c.host.threads.toNat →
    ∃ n, trail t s.history.retired = m.course n

namespace Stands

/-- What retires in a cycle was issued before it, so it is what the course has next. -/
theorem retires_workOn (hq : (q.lane s.history t).Straight (c.track m Given t)) (now : Nat)
    (rs : Registers) :
    ∃ n, trail t (s.history.retired ++ (q.workOn now rs).retired) = m.course n := by
  have hretired : (q.workOn now rs).retired = _ :=
    ((q.polled now).execute.evaluate_retired (q.stats.cycles + 1) rs.outputs.dToE).1
  have hissued : trail t (s.history.retired ++ (q.polled now).execute.units.map InFlight.retired) =
    m.course _ := hq.issued
  rw [← List.takeWhile_append_dropWhile
    (l := (q.polled now).execute.units) (p := Execute.isDone (q.stats.cycles + 1)), List.map_append,
    ← List.append_assoc, ← hretired, trail_append] at hissued
  exact ⟨_, Image.eq_course_of_append hissued⟩

/-- A call that does not advance the clock and retires nothing. -/
theorem call {simulator : Simulator Stages} {woken : List UInt32} (h : s.Stands c m e f q)
    (hbears : simulator.pipeline.Bears e f q') (hq' : q'.Orderly c m) (hstats : q'.stats = q.stats)
    (hlane : ∀ t : UInt32, t.toNat < c.host.threads.toNat →
      (q.lane s.history t).Straight (c.track m Given t) →
        (q'.lane { s.history with woken } t).Straight (c.track m Given t)) :
    Stands c m e f q' { simulator, history := { s.history with woken } } where
  bears := hbears
  orderly := hq'
  straight hcycles t ht := hlane t ht (h.straight (hstats ▸ hcycles) t ht)
  retires := h.retires

theorem wake (h : s.Stands c m e f q) (hc : c.Admitted) (hm : m.WordAligned) (t' : UInt32) :
    (s.wake t').Stands c m e f (q.wakeFetch t').1 := by
  refine h.call (h.bears.perform (o := .wake t') rfl) (h.orderly.wakeFetch t') rfl
    fun t ht hq => ?_
  exact hq.steps (fun _ hx => hx) (hc.whole m Given t) hm
    (Pipeline.lane_wakeFetch h.orderly.sound ht t' s.history)

theorem wakeAll (h : s.Stands c m e f q) (hc : c.Admitted) (hm : m.WordAligned) :
    s.wakeAll.Stands c m e f (q.wakeAll s.threadNumbers).1 := by
  refine h.call (h.bears.wakeAll s.threadNumbers) (h.orderly.wakeAll s.threadNumbers) ?_
    fun t ht hq => ?_
  · exact Pipeline.wakeAll_induction (P := fun q' => q'.stats = q.stats) (fun _ _ hq => hq)
      s.threadNumbers rfl
  · exact hq.steps (fun _ hx => hx) (hc.whole m Given t) hm
      (Pipeline.lane_wakeAll ht s.threadNumbers s.history h.orderly.sound)

theorem drain (h : s.Stands c m e f q) : s.drain.Stands c m e f q.drain.1 := by
  refine h.call (h.bears.perform (o := .drain) rfl) h.orderly.drain ?_ fun t ht hq => ?_
  · unfold Pipeline.drain
    simp only
    split <;> rfl
  · have hpend := hq.pend true
    rw [← Pipeline.lane_drain h.orderly.sound ht] at hpend
    exact hpend

theorem resume (h : s.Stands c m e f q) (hc : c.Admitted) (hm : m.WordAligned) :
    s.resume.Stands c m e f (q.resume s.simulator.host.threads).1 := by
  refine h.call (h.bears.perform (o := .resume s.simulator.host.threads) rfl)
    (h.orderly.resume _) ?_ fun t ht hq => ?_
  · exact Pipeline.wakeAll_induction (P := fun q' => q'.stats = q.stats) (fun _ _ hq => hq)
      s.threadNumbers rfl
  · obtain ⟨v, hsteps, hlane⟩ := Pipeline.lane_resume (k := c.track m Given t) h.orderly.sound ht
      s.simulator.host.threads s.history
    have hpend := (hq.steps (fun _ hx => hx) (hc.whole m Given t) hm hsteps).pend false
    rw [← hlane] at hpend
    exact hpend

/-- **A step keeps it.** -/
theorem step (h : s.Stands c m e f q) (hc : c.Admitted) (hm : m.WordAligned)
    (hdead : s.FlipsDead e f) (hcycles : s.step.pipeline.stats.cycles < UInt64.size) :
    ∃ q', s.step.Stands c m e f q' := by
  cases hrun : s.pipeline.running with
  | false =>
    obtain ⟨hp, hh⟩ := pipeline_step_of_stopped hrun
    exact ⟨q, hp ▸ h.bears, h.orderly, hh ▸ h.straight, hh ▸ h.retires⟩
  | true =>
    obtain ⟨hp, hh⟩ := pipeline_step hrun
    have hstraight := h.straight (by rw [← h.bears.stats, ← cycles_step hrun]; exact hcycles)
    have hvacant := h.orderly.vacant fun t ht => (hstraight t ht).proper
    obtain ⟨hovertaken, hbits, hsame⟩ := h.bears.reads
    have hhits : s.simulator.tick + s.simulator.period = f.tick →
        f.bit < q.registers.bits e → q.registers.DeadBit e f.bit := by
      intro hnow hbit
      exact (hsame f.bit).mp (hdead hrun hnow (hbits ▸ hbit))
    obtain ⟨q', rs, hbears, halike, hfollows, hretired⟩ := h.bears.evaluate h.orderly hvacant hhits
    refine ⟨q', hp ▸ hbears, h.orderly.follows halike hfollows, fun hlast t ht => ?_,
      fun t ht => ?_⟩
    · rw [hfollows.cycles] at hlast
      -- the numbers that are given out in this cycle have not come round
      have hgiven : ∀ x, ordinal x ≤ q.stats.cycles → Given (x + 1) := fun x hx =>
        ⟨add_one_ne_firstSeq hx (by omega), add_one_ne_zero hx (by omega)⟩
      have hsteps := h.orderly.lane_follows halike hfollows ht hgiven s.history
      have hfound := (hstraight t ht).of_sifted (halike.lane q.stages s.history t)
      rw [hh, hretired, hovertaken]
      exact hfound.steps (fun _ hx => hx) (hc.whole m Given t) hm hsteps
    · rw [hh, hretired]
      exact retires_workOn (hstraight t ht) _ rs

/-- A call of the host keeps it, while the count of evaluations fits in a word. -/
theorem perform (h : s.Stands c m e f q) (hc : c.Admitted) (hm : m.WordAligned) {call : Call}
    (hcall : ∀ limit, call ≠ .run limit) (hdead : call = .step → s.FlipsDead e f)
    (hcycles : (s.perform call).pipeline.stats.cycles < UInt64.size) :
    ∃ q', (s.perform call).Stands c m e f q' := by
  cases call with
  | step => exact h.step hc hm (hdead rfl) hcycles
  | run limit => exact absurd rfl (hcall limit)
  | wake t => exact ⟨_, h.wake hc hm t⟩
  | wakeAll => exact ⟨_, h.wakeAll hc hm⟩
  | drain => exact ⟨_, h.drain⟩
  | resume => exact ⟨_, h.resume hc hm⟩

/-- **Sequences of calls keep it**, as long. -/
theorem after (hc : c.Admitted) (hm : m.WordAligned) {calls : List Call} :
    ∀ {s : Session} {q : Pipeline Stages}, s.Stands c m e f q →
      (∀ limit, Call.run limit ∉ calls) →
      (∀ before after, calls = before ++ .step :: after → (s.after before).FlipsDead e f) →
      (s.after calls).pipeline.stats.cycles < UInt64.size →
        ∃ q', (s.after calls).Stands c m e f q' := by
  induction calls with
  | nil => exact fun h _ _ _ => ⟨_, h⟩
  | cons call calls ih =>
    intro s q h hcalls hdead hcycles
    have hlast := (s.perform call).cycles_le_after calls
    have hlt : (s.perform call).pipeline.stats.cycles < UInt64.size :=
      Nat.lt_of_le_of_lt hlast hcycles
    obtain ⟨q', hq'⟩ := h.perform hc hm
      (fun limit heq => hcalls limit (heq ▸ List.mem_cons_self))
      (fun heq => hdead [] calls (heq ▸ rfl)) hlt
    exact ih hq' (fun limit hmem => hcalls limit (List.mem_cons_of_mem call hmem))
      (fun before after hsplit => hdead (call :: before) after (congrArg (call :: ·) hsplit)) hcycles

/-- A new session stands the flip that is configured. -/
theorem start (hregister : c.faults.register = e.selector) (hunit : c.faults.unit = false)
    (hnew : Session.new c m = .ok s) : c.Admitted ∧
      ∃ q, s.Stands c m e ⟨c.faults.tick.toNat, c.faults.bit.toNat⟩ q := by
  obtain ⟨⟨events, hsimulator⟩, hhistory⟩ := simulator_of_new hnew
  obtain ⟨⟨told, hpipeline⟩, hhost, -⟩ := Simulator.of_new_eq_ok hsimulator
  obtain ⟨blank, registers, faults, scheduled, hadmitted, hblank, hfault, hp⟩ :=
    Pipeline.of_new_eq_ok hpipeline
  have hscheduled :=
    Pipeline.scheduleFault_of_target (FaultConfig.target_selector hregister) blank
  obtain ⟨rfl, rfl, rfl⟩ := Except.ok.inj (hscheduled.symm.trans hfault)
  obtain ⟨-, hempty, -⟩ := Registers.of_new_eq_ok hblank c.host.threads.toNat
  have hunarmed : blank.Unarmed e := by
    obtain rfl := Registers.eq_of_new hblank
    cases e <;> rfl
  refine ⟨hadmitted, .unused c (.new Pipeline.owner c m) blank {}, ?_⟩
  exact
    { bears := .inr ⟨⟨rfl, hunarmed⟩, hp⟩
      orderly := .unused hadmitted hunit hblank m
      straight := fun _ t ht => by
        have hlane := laneOf_new hempty m ht
        rw [hhistory, Pipeline.lane, Pipeline.unused, hlane]
        exact .start (c.track m Given t)
      retires := fun t _ => ⟨0, by rw [hhistory]; rfl⟩ }

end Stands

/-- **Flips of dead bits are masked.** Take a configuration that keeps every bound, with a flip in the
register of an edge and none in the units. It makes a session, and whatever is called there, with
runs told step by step, if the bit that is flipped is dead, each thread retires a first part of its
course, while the count of evaluations fits in a word: the flip takes no instruction from it, adds
none, and puts no other in the place of one. -/
theorem flip_masked (hcheck : c.check = .ok ()) (hregister : c.faults.register = e.selector)
    (hunit : c.faults.unit = false) (hm : m.WordAligned) :
    ∃ s₀, Session.new c m = .ok s₀ ∧ ∀ calls : List Call, (∀ limit, Call.run limit ∉ calls) →
      (∀ before after, calls = before ++ .step :: after →
        (s₀.after before).FlipsDead e ⟨c.faults.tick.toNat, c.faults.bit.toNat⟩) →
      (s₀.after calls).pipeline.stats.cycles < UInt64.size →
      ∀ t : UInt32, t.toNat < c.host.threads.toNat →
        ∃ n, trail t (s₀.after calls).history.retired = m.course n := by
  have hfaults : ∀ rs, ∃ r, Pipeline.scheduleFault rs c.faults = .ok r := fun rs =>
    ⟨_, Pipeline.scheduleFault_of_target (FaultConfig.target_selector hregister) rs⟩
  obtain ⟨s₀, hnew⟩ : ∃ s₀, Session.new c m = .ok s₀ :=
    exists_bind_eq_ok (Simulator.exists_new_of_scheduleFault hfaults hcheck _) fun _ => ⟨_, rfl⟩
  refine ⟨s₀, hnew, fun calls hcalls hdead hcycles => ?_⟩
  obtain ⟨hadmitted, q, hstands⟩ := Stands.start hregister hunit hnew
  obtain ⟨q', hq'⟩ := hstands.after hadmitted hm hcalls hdead hcycles
  exact hq'.retires

end Session

/-- Calls that wake a thread, and time for it to go twice through the pipeline. -/
def wakeCalls : List Call := .wake 0 :: List.replicate 12 .step

/-- At tick 5 the latch of an empty line is flipped. The line that comes of it is of no stream; it is
queued behind the line that was asked for, and the thread retires its jump as before. -/
theorem flip_masked_bubble :
    ∃ s₀, Session.new (Config.withFlip {} .f1ToF2 5 0) .spin = .ok s₀ ∧
      (s₀.after (wakeCalls.take 6)).pipeline.faults.applied = [⟨.f1ToF2, 5, 0⟩] ∧
      (s₀.after (wakeCalls.take 6)).pipeline.stages.slicer.input.entries.map Line.streamSeq =
        [firstSeq, 0] ∧
      trail 0 (s₀.after wakeCalls).history.retired = [(0x80000000, 0x6f), (0x80000000, 0x6f)] ∧
      ∀ t : UInt32, t.toNat < 1 →
        ∃ n, trail t (s₀.after wakeCalls).history.retired = Image.spin.course n := by
  obtain ⟨s₀, hnew, hmasked⟩ := Session.flip_masked (c := .withFlip {} .f1ToF2 5 0) (e := .f1ToF2)
    (by decide) rfl rfl Image.wordAligned_spin
  obtain ⟨s, hs, happlied, hqueued, htrail, hall, hcycles⟩ : ∃ s,
      Session.new (Config.withFlip {} .f1ToF2 5 0) .spin = .ok s ∧
      (s.after (wakeCalls.take 6)).pipeline.faults.applied = [⟨.f1ToF2, 5, 0⟩] ∧
      (s.after (wakeCalls.take 6)).pipeline.stages.slicer.input.entries.map Line.streamSeq =
        [firstSeq, 0] ∧
      trail 0 (s.after wakeCalls).history.retired = [(0x80000000, 0x6f), (0x80000000, 0x6f)] ∧
      (∀ k < 13, (s.after (wakeCalls.take k)).FlipsDead .f1ToF2 ⟨5, 0⟩) ∧
      (s.after wakeCalls).pipeline.stats.cycles = 12 :=
    ⟨_, rfl, by decide +kernel, by decide +kernel, by decide +kernel, by decide +kernel,
      by decide +kernel⟩
  obtain rfl := Except.ok.inj (hs.symm.trans hnew)
  refine ⟨s, hs, happlied, hqueued, htrail, hmasked wakeCalls (by simp [wakeCalls]) ?_ ?_⟩
  · intro before after hsplit
    have htake : wakeCalls.take before.length = before := by rw [hsplit, List.take_left]
    have hlt : before.length < wakeCalls.length := by simp [hsplit]
    exact htake ▸ hall before.length hlt
  · rw [hcycles]
    decide

end InOrder
