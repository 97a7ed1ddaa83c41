import InOrder.Proofs.Checkpoint

/-!
# Resumption before a drain is complete

A resumption wakes all threads and takes back the halts that are still pending. What it does not
take back are the halts on their way to the line fetch: they arrive later, and stop a thread that
was just woken.

* `Session.Sound.not_halted`: if no halt is on its way, no thread is halted until the next drain.
  After a complete drain there is none (`Session.Sound.not_halted_of_drained`).
* `Session.Sound.halts`: a halt on its way halts its thread, whatever woke it.
* `Session.Reached.resume_wins_iff`: so a resumption wins over a drain if and only if no halt is on
  its way.
-/

namespace InOrder

/-! ## What is on its way in a register -/

/-- What is live in a slot of the register of redirects was sent by execute, and is on its way. -/
theorem Registers.Sound.of_slot {n : Nat} {rs : Registers} (h : rs.Sound n) {r : Redirect}
    (hr : r ∈ rs.eToF1.line.slots) (hlive : r.isLive = true) : r ∈ rs.eToF1.row ∧ r.Sent n := by
  have hbubble : Payload.isBubble r = false := by
    simp only [Redirect.isLive, Bool.and_eq_true, Bool.not_eq_eq_eq_not, Bool.not_true] at hlive
    exact hlive.1
  have hrow := Register.mem_row h.redirects hr hbubble
  exact ⟨hrow, h.sent r (Register.mem_held.mpr ⟨List.mem_cons.mp hrow, hbubble⟩)⟩

/-- To wake threads does not touch the registers. -/
theorem Pipeline.registers_wakeAll (ts : List UInt32) :
    ∀ p : Pipeline Stages, (p.wakeAll ts).1.registers = p.registers := fun p =>
  wakeAll_induction (P := fun q => q.registers = p.registers) (fun _ _ h => h) ts rfl

/-! ## A halt arrives -/

namespace LineFetch

variable {n : Nat} {m : Image} {bytes : UInt64} {s : LineFetch} {branch : Redirect}

/-- A halt that arrives halts its thread. -/
theorem halted_evaluate (h : s.Sound n m bytes) (hb : branch.Sent n) (hhalt : branch.reason = .halt)
    (cycle : Nat) (prediction : Redirect) (room : Bool) :
    ((s.evaluate cycle branch prediction room).stage.thread? branch.thread).map (·.state) =
      some .halted := by
  have hself : branch.thread.toNat < s.threads.length := by rw [h.length]; exact hb.thread
  rw [stage_evaluate, map_requestNext (fun _ _ => rfl), thread?_deliver, redirect_of_sent h hb,
    thread?_keepPending, thread?_setThread_self hself, hhalt]
  rfl

end LineFetch

namespace Session

variable {c : Config} {m : Image} {s : Session} {t : UInt32}

/-- The state of a thread in the line fetch. -/
def state? (s : Session) (t : UInt32) : Option FetchState :=
  (s.pipeline.stages.lineFetch.thread? t).map (·.state)

/-- A step after a wakeup is a cycle of the pipeline. -/
theorem cycle_of_wake (h : s.Sound c m) (t : UInt32) :
    ∃ room w, ((s.wake t).step.pipeline.stages.lineFetch =
        ((s.wake t).pipeline.stages.lineFetch.evaluate (s.pipeline.stats.cycles + 1)
          s.pipeline.registers.eToF1.output s.pipeline.registers.f2ToF1.output room).stage) ∧
      (s.wake t).step.pipeline.registers.eToF1 = (s.pipeline.registers.eToF1.write? w).advance := by
  have hwoken := (h.wake t).pipeline
  have hstep := (pipeline_step (s := s.wake t) rfl).1
  have hholds := (Pipeline.evaluate_holds hwoken.waiting hwoken.unitMode
    ((s.wake t).simulator.tick + (s.wake t).simulator.period)).1
  rw [hstep, hholds.stages, hholds.registers]
  exact ⟨_, _, rfl, rfl⟩

/-- **A halt on its way halts its thread**, however often threads are woken meanwhile. -/
theorem Sound.halts (h : s.Sound c m) {r : Redirect}
    (hr : r ∈ s.pipeline.registers.eToF1.line.slots) (hlive : r.isLive = true)
    (hhalt : r.reason = .halt) :
    ∃ calls : List Call, (∀ call ∈ calls, call = .step ∨ ∃ t, call = .wake t) ∧
      (s.after calls).state? r.thread = some .halted := by
  obtain ⟨hrow, hsent⟩ := h.pipeline.registers.of_slot hr hlive
  obtain ⟨slot, hslot⟩ := List.getElem?_of_mem hrow
  clear hr hrow
  -- a halt that is one slot further from the output arrives one cycle later
  induction slot generalizing s with
  | zero =>
    obtain ⟨room, w, hstage, -⟩ := cycle_of_wake h 0
    refine ⟨[.wake 0, .step], by simp, ?_⟩
    have hout : s.pipeline.registers.eToF1.output = r := Option.some.inj hslot
    show ((s.wake 0).step.pipeline.stages.lineFetch.thread? r.thread).map (·.state) = _
    rw [hstage, hout]
    exact LineFetch.halted_evaluate (h.wake 0).pipeline.stages.lineFetch hsent hhalt _ _ _
  | succ slot ih =>
    obtain ⟨room, w, -, hregister⟩ := cycle_of_wake h 0
    have hnext : (s.wake 0).step.pipeline.registers.eToF1.row[slot]? = some r := by
      have htail : s.pipeline.registers.eToF1.row.tail[slot]? = some r := hslot
      rw [hregister, Register.row_cycle,
        List.getElem?_append_left (List.getElem?_eq_some_iff.mp htail).1, htail]
    obtain ⟨calls, hcalls, hhalted⟩ := ih (h.wake 0).step hnext
    refine ⟨.wake 0 :: .step :: calls, ?_, hhalted⟩
    simpa using hcalls

/-! ## No halt arrives -/

theorem registers_resume (s : Session) : s.resume.pipeline.registers = s.pipeline.registers :=
  Pipeline.registers_wakeAll s.threadNumbers s.pipeline

/-- A resumption wakes every thread, so that it stays awake unless a halt is on its way. -/
theorem Sound.awake_resume (h : s.Sound c m) (ht : t.toNat < c.host.threads.toNat)
    (hnone : ∀ r ∈ s.pipeline.registers.eToF1.line.slots, r.isLive = true → r.reason ≠ .halt) :
    (s.resume.lane t).Awake := by
  obtain ⟨v, -, hlane⟩ := lane_resume (k := c.track m (fun _ => True) t) h ht
  have hmem : t ∈ s.threadNumbers := by
    rw [threadNumbers, h.threads]
    exact List.mem_map.mpr ⟨t.toNat, List.mem_range.mpr ht, UInt32.ofNat_toNat⟩
  have hruns : (s.resume.lane t).fetch.state = .running :=
    Pipeline.running_wakeAll ht s.resume.history s.threadNumbers h.pipeline (.inl hmem)
  refine ⟨?_, ?_, ?_⟩
  · rw [hruns]
    exact FetchState.noConfusion
  · intro r hr
    have hheld : r ∈ s.resume.pipeline.registers.eToF1.held := (List.mem_filter.mp hr).1
    rw [registers_resume] at hheld
    exact hnone r (Register.mem_slots hheld) (h.pipeline.registers.sent r hheld).isLive
  · rw [hlane]
    rfl

/-- **No thread is halted between a resumption and the next drain**, if no halt is on its way at the
resumption. -/
theorem Sound.not_halted (h : s.Sound c m)
    (hnone : ∀ r ∈ s.pipeline.registers.eToF1.line.slots, r.isLive = true → r.reason ≠ .halt)
    {calls : List Call} (hcalls : Call.drain ∉ calls) (ht : t.toNat < c.host.threads.toNat) :
    (s.resume.after calls).state? t ≠ some .halted := by
  have hawake : ((s.resume.after calls).lane t).Awake :=
    after_lane (fun _ => True) h.resume ht calls (fun _ _ => trivial)
      (fun _ _ hv hw => hv.steps hw) (fun _ hv => ⟨hv.state, hv.redirects, rfl⟩)
      (fun hmem => absurd hmem hcalls) (h.awake_resume ht hnone)
  rw [state?, (h.resume.after calls).pipeline.thread? ht (s.resume.after calls).history]
  exact fun heq => hawake.state (Option.some.inj heq)

/-- In a drained pipeline no halt is on its way, so a resumption after a complete drain wins. -/
theorem Sound.not_halted_of_drained (h : s.Sound c m) (hdrained : s.pipeline.isDrained = true)
    {calls : List Call} (hcalls : Call.drain ∉ calls) (ht : t.toNat < c.host.threads.toNat) :
    (s.resume.after calls).state? t ≠ some .halted := by
  refine h.not_halted (fun r hr hlive => ?_) hcalls ht
  have hempty : s.pipeline.registers.eToF1.isEmpty = true :=
    (Pipeline.drained_iff.mp hdrained).registers .eToF1
  rw [Redirect.not_isLive (List.all_eq_true.mp hempty r hr)] at hlive
  exact absurd hlive Bool.false_ne_true

/-- **A resumption wins over a drain if and only if no halt of the drain is on its way.** Then no
thread is halted, whatever steps and wakeups follow. -/
theorem Reached.resume_wins_iff (hc : c.FaultFree) (h : Reached c m s) :
    (∀ calls : List Call, (∀ call ∈ calls, call = .step ∨ ∃ t, call = .wake t) →
      ∀ t : UInt32, t.toNat < c.host.threads.toNat →
        (s.resume.after calls).state? t ≠ some .halted) ↔
      ∀ r ∈ s.pipeline.registers.eToF1.line.slots, r.isLive = true → r.reason ≠ .halt := by
  have hs := h.sound hc
  constructor
  · intro hwins r hr hlive hhalt
    have hslot : r ∈ s.resume.pipeline.registers.eToF1.line.slots := by rwa [registers_resume]
    obtain ⟨calls, hcalls, hhalted⟩ := hs.resume.halts hslot hlive hhalt
    exact hwins calls hcalls r.thread (hs.pipeline.registers.of_slot hr hlive).2.thread hhalted
  · intro hnone calls hcalls t ht
    refine hs.not_halted hnone (fun hmem => ?_) ht
    rcases hcalls _ hmem with hcall | ⟨t, hcall⟩
    · exact Call.noConfusion hcall
    · exact Call.noConfusion hcall

/-! ## A halt that arrives late -/

/-- A drain that is not complete: the halt is in the register when the resumption comes. -/
def lateResumption : List Call := [.wakeAll, .step, .step, .step, .drain, .step]

theorem resume_wins_iff_late : ∃ s, Session.Reached {} .spin s ∧
    ((∀ calls : List Call, (∀ call ∈ calls, call = .step ∨ ∃ t, call = .wake t) →
      ∀ t : UInt32, t.toNat < 1 → (s.resume.after calls).state? t ≠ some .halted) ↔
      ∀ r ∈ s.pipeline.registers.eToF1.line.slots, r.isLive = true → r.reason ≠ .halt) := by
  obtain ⟨s, hreached⟩ : ∃ s, Session.Reached {} .spin s := ⟨_, ⟨_, lateResumption, rfl, rfl⟩⟩
  exact ⟨s, hreached, hreached.resume_wins_iff (by decide)⟩

/-- **A thread can be halted after a resumption**, by the drain before it. -/
theorem not_resume_wins : ¬ ∀ (c : Config) (m : Image) (s : Session), c.FaultFree → Reached c m s →
    ∀ calls : List Call, (∀ call ∈ calls, call = .step ∨ ∃ t, call = .wake t) →
      ∀ t : UInt32, t.toNat < c.host.threads.toNat →
        (s.resume.after calls).state? t ≠ some .halted := by
  intro hall
  obtain ⟨s, hreached, hhalted⟩ : ∃ s, Session.Reached {} .spin s ∧
      (s.resume.after [.step]).state? 0 = some .halted :=
    ⟨_, ⟨_, lateResumption, rfl, rfl⟩, by decide +kernel⟩
  exact hall {} .spin s (by decide) hreached [.step] (by simp) 0 (by decide) hhalted

end Session

end InOrder
