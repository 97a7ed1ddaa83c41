import InOrder.Proofs.Pipeline.Watch
import InOrder.Proofs.Session

/-!
# Signals of complete drains

A drain that finds the pipeline busy owes its host a signal. Whether one is owed, how far the drain
has come and whether the pipeline runs are three fields, each of them written by several calls;
`Pipeline.Owing` says how they hang together, whatever faults strike.

* `Pipeline.Owing.evaluate`: a cycle gives the signal exactly if it takes a drain to its end, and
  then the pipeline is empty and has stopped.
* `Session.signals_after_le`: over any calls no more signals are given than were owed before, and
  than drains have asked for since.
* `Session.signals_drains`: both, of every session that calls lead to.
-/

namespace InOrder

/-! ## The cycle -/

namespace Pipeline

/-- A signal is owed for a drain that is under way, and nothing stops the pipeline before it is
given. -/
structure Owing (p : Pipeline Stages) : Prop where
  due : p.signalDue = true ↔ p.drainState = .draining
  runs : p.drainState = .draining → p.running = true

/-- A cycle that begins leaves a drain as it is. -/
theorem drainState_begin {p : Pipeline Stages} :
    p.begin.drainState = .draining ↔ p.drainState = .draining := by
  show (if p.drainState = .resuming then .running else p.drainState) = DrainState.draining ↔ _
  cases p.drainState <;> decide

/-- What is done for want of work does not concern drains. -/
theorem drains_idle (p : Pipeline Stages) :
    p.idle.1.signalDue = p.signalDue ∧ p.idle.1.drainState = p.drainState := by
  unfold idle
  split <;> exact ⟨rfl, rfl⟩

theorem drainDone_evaluate (p : Pipeline Stages) (now : Nat) :
    (p.evaluate now).drainDone = (p.finished now).idle.1.settle.2.1 := rfl

variable {p : Pipeline Stages}

/-- Where no signal is owed, a cycle gives none, and no drain begins or ends. -/
theorem drains_evaluate_of_none (h : p.signalDue = false) (now : Nat) :
    (p.evaluate now).drainDone = false ∧ (p.evaluate now).pipeline.signalDue = false ∧
      (p.evaluate now).pipeline.drainState = p.begin.drainState := by
  obtain ⟨-, hsignal, -, -, hstate⟩ := p.lifecycle_finished now
  obtain ⟨hidle, hidleState⟩ := (p.finished now).drains_idle
  have hnone : (p.finished now).idle.1.signalDue = false := (hidle.trans hsignal).trans h
  rw [drainDone_evaluate, (p.evaluate_eq_finished now).1, settle_of_none hnone]
  refine ⟨?_, hnone, hidleState.trans hstate⟩
  rw [settle, hnone, if_neg Bool.false_ne_true]

/-- Where a signal is owed, a cycle gives it if the pipeline is then empty, and stops. -/
theorem drains_evaluate_of_due (h : p.signalDue = true) (now : Nat) :
    ((p.evaluate now).drainDone = true ∧ (p.evaluate now).pipeline.signalDue = false ∧
        (p.evaluate now).pipeline.drainState = .drained ∧
        (p.evaluate now).pipeline.isDrained = true ∧
        (p.evaluate now).pipeline.running = false) ∨
      ((p.evaluate now).drainDone = false ∧ (p.evaluate now).pipeline.signalDue = true ∧
        (p.evaluate now).pipeline.drainState = p.begin.drainState ∧
        (p.evaluate now).pipeline.running = p.running) := by
  obtain ⟨-, hsignal, hruns, -, hstate⟩ := p.lifecycle_finished now
  obtain ⟨-, hidleState⟩ := (p.finished now).drains_idle
  obtain ⟨hidleRuns, hdue⟩ := idle_of_due (hsignal.trans h)
  rw [drainDone_evaluate, (p.evaluate_eq_finished now).1, settle, if_pos hdue]
  split
  · rename_i hdrained
    exact .inl ⟨rfl, rfl, rfl, (isDrained_congr rfl rfl).trans hdrained, rfl⟩
  · exact .inr ⟨rfl, hdue, hidleState.trans hstate, hidleRuns.trans hruns⟩

namespace Owing

theorem of_none (hdue : p.signalDue = false) (hstate : p.drainState ≠ .draining) : p.Owing where
  due := iff_of_false (by rw [hdue]; exact Bool.false_ne_true) hstate
  runs := fun hdraining => absurd hdraining hstate

theorem of_due (hdue : p.signalDue = true) (hstate : p.drainState = .draining)
    (hruns : p.running = true) : p.Owing where
  due := iff_of_true hdue hstate
  runs := fun _ => hruns

theorem state_ne (h : p.Owing) (hdue : p.signalDue = false) : p.drainState ≠ .draining := by
  intro hstate
  exact Bool.false_ne_true (hdue.symm.trans (h.due.mpr hstate))

/-- **A cycle gives the signal exactly if it takes a drain to its end.** Then the pipeline is empty
and has stopped. What is owed or has been given stays as it was. -/
theorem evaluate (h : p.Owing) (now : Nat) :
    (p.evaluate now).pipeline.Owing ∧
      ((p.evaluate now).drainDone = true ↔
        p.drainState = .draining ∧ (p.evaluate now).pipeline.drainState = .drained) ∧
      ((p.evaluate now).drainDone = true → (p.evaluate now).pipeline.isDrained = true ∧
        (p.evaluate now).pipeline.running = false) ∧
      (p.evaluate now).drainDone.toNat + (p.evaluate now).pipeline.signalDue.toNat =
        p.signalDue.toNat := by
  cases hdue : p.signalDue with
  | false =>
    have hstate := h.state_ne hdue
    obtain ⟨hdone, hsignal, hnext⟩ := drains_evaluate_of_none hdue now
    rw [hdone, hsignal]
    refine ⟨.of_none hsignal ?_, iff_of_false Bool.false_ne_true fun hboth => hstate hboth.1,
      fun hgiven => absurd hgiven Bool.false_ne_true, rfl⟩
    rw [hnext]
    exact fun hbegun => hstate (drainState_begin.mp hbegun)
  | true =>
    have hstate := h.due.mp hdue
    rcases drains_evaluate_of_due hdue now with
      ⟨hdone, hsignal, hnext, hend⟩ | ⟨hdone, hsignal, hnext, hruns⟩
    · rw [hdone, hsignal]
      refine ⟨.of_none hsignal ?_, iff_of_true rfl ⟨hstate, hnext⟩, fun _ => hend, rfl⟩
      rw [hnext]
      decide
    · have hgoes := hnext.trans (drainState_begin.mpr hstate)
      rw [hdone, hsignal]
      refine ⟨.of_due hsignal hgoes (hruns.trans (h.runs hstate)),
        iff_of_false Bool.false_ne_true fun hboth => ?_,
        fun hgiven => absurd hgiven Bool.false_ne_true, rfl⟩
      exact absurd (hgoes.symm.trans hboth.2) (by decide)

/-! ## The calls -/

/-- To wake a thread leaves a drain as it is. -/
theorem wakeFetch (h : p.Owing) (t : UInt32) : (p.wakeFetch t).1.Owing := ⟨h.due, fun _ => rfl⟩

theorem wakeAll (h : p.Owing) (ts : List UInt32) :
    (p.wakeAll ts).1.Owing ∧ (p.wakeAll ts).1.signalDue = p.signalDue :=
  wakeAll_induction (P := fun q => q.Owing ∧ q.signalDue = p.signalDue)
    (fun _ t hq => ⟨hq.1.wakeFetch t, hq.2⟩) ts ⟨h, rfl⟩

/-- A signal is owed for a drain that is not complete at once, and for no other. -/
theorem drain (p : Pipeline Stages) :
    p.drain.1.Owing ∧ p.drain.1.signalDue.toNat = (!p.drain.2.1).toNat := by
  unfold Pipeline.drain
  simp only
  split
  · exact ⟨.of_none rfl (by simp [stop]), rfl⟩
  · exact ⟨.of_due rfl rfl rfl, rfl⟩

/-- After a resumption no signal is owed. -/
theorem resume (p : Pipeline Stages) (n : Nat) :
    (p.resume n).1.Owing ∧ (p.resume n).1.signalDue = false :=
  ⟨.of_none rfl (by simp [Pipeline.resume]), rfl⟩

end Owing

end Pipeline

/-! ## Sessions -/

namespace Session

variable {c : Config} {m : Image} {s : Session}

/-- The complete drains of which the host was told. -/
def signals (s : Session) : Nat := s.simulator.host.signals

/-- The signals that the host has been given or is owed. -/
def promised (s : Session) : Nat := s.signals + s.pipeline.signalDue.toNat

/-- How many of some calls are drains that are not complete at once. -/
def unfinished (s : Session) : List Call → Nat
  | [] => 0
  | .drain :: calls => (!s.simulator.drain.2.1).toNat + s.drain.unfinished calls
  | call :: calls => (s.perform call).unfinished calls

/-- **A step gives one signal if it takes a drain to its end, and else none.** -/
theorem signals_step_of_owing (h : s.pipeline.Owing) :
    s.step.pipeline.Owing ∧ s.step.promised = s.promised ∧
      (s.step.signals = s.signals ∨ s.step.signals = s.signals + 1) ∧
      (s.step.signals = s.signals + 1 ↔
        s.pipeline.drainState = .draining ∧ s.step.pipeline.drainState = .drained) ∧
      (s.step.signals = s.signals + 1 →
        s.step.pipeline.isDrained = true ∧ s.step.pipeline.running = false) := by
  cases hruns : s.pipeline.running with
  | false =>
    -- a drain that is under way keeps the pipeline going, so there is none
    have hstate : s.pipeline.drainState ≠ .draining := fun hdraining =>
      Bool.false_ne_true (hruns.symm.trans (h.runs hdraining))
    have hstopped : ¬ s.simulator.pipeline.running = true := by
      rw [show s.simulator.pipeline.running = false from hruns]
      exact Bool.false_ne_true
    have hsignals : s.step.signals = s.signals := by
      unfold signals step Simulator.step
      rw [if_neg hstopped]
    obtain ⟨hp, -⟩ := pipeline_step_of_stopped hruns
    rw [promised, promised, hsignals, hp]
    exact ⟨h, rfl, .inl rfl, iff_of_false (by omega) fun hboth => hstate hboth.1, by omega⟩
  | true =>
    obtain ⟨howing, hdone, hend, hpromised⟩ := h.evaluate (s.simulator.tick + s.simulator.period)
    have hsignals : s.step.signals = s.signals +
        (s.pipeline.evaluate (s.simulator.tick + s.simulator.period)).drainDone.toNat := by
      rw [signals, signals_step hruns]
      cases (s.pipeline.evaluate (s.simulator.tick + s.simulator.period)).drainDone <;> rfl
    have hone : s.step.signals = s.signals + 1 ↔
        (s.pipeline.evaluate (s.simulator.tick + s.simulator.period)).drainDone = true := by
      rw [hsignals, Nat.add_left_cancel_iff]
      exact Bool.toNat_eq_one
    have hstep : s.step.signals = s.signals ∨ s.step.signals = s.signals + 1 := by
      have hle := (s.pipeline.evaluate (s.simulator.tick + s.simulator.period)).drainDone.toNat_le
      omega
    refine ⟨?_, ?_, hstep, ?_⟩
    · exact (pipeline_step hruns).1 ▸ howing
    · rw [promised, promised, hsignals, (pipeline_step hruns).1]
      omega
    · rw [hone, (pipeline_step hruns).1]
      exact ⟨hdone, hend⟩

/-- A run promises nothing, as the steps that it takes do not. -/
theorem promised_run (h : s.pipeline.Owing) (limit : Nat) :
    (s.run limit).pipeline.Owing ∧ (s.run limit).promised = s.promised := by
  obtain ⟨n, hn⟩ := s.run_iterate limit
  rw [hn]
  clear hn
  induction n with
  | zero => exact ⟨h, rfl⟩
  | succ n ih =>
    obtain ⟨howing, hpromised⟩ := ih
    rw [Function.iterate_succ_apply']
    obtain ⟨howing', hpromised', -⟩ := signals_step_of_owing howing
    exact ⟨howing', hpromised'.trans hpromised⟩

/-- A drain promises a signal if it is not complete at once, and takes back what was owed. -/
theorem promised_drain (s : Session) : s.drain.pipeline.Owing ∧
    s.drain.promised = s.signals + (!s.simulator.drain.2.1).toNat := by
  obtain ⟨howing, hdue⟩ := Pipeline.Owing.drain s.pipeline
  exact ⟨howing, congrArg (s.signals + ·) hdue⟩

/-- A resumption takes back what was owed. -/
theorem promised_resume (s : Session) : s.resume.pipeline.Owing ∧
    s.resume.promised = s.signals := by
  obtain ⟨howing, hdue⟩ := Pipeline.Owing.resume s.pipeline s.simulator.host.threads
  exact ⟨howing, congrArg (fun due : Bool => s.signals + due.toNat) hdue⟩

/-- **A call promises a signal only if it is a drain that is not complete at once.** -/
theorem promised_perform_le (h : s.pipeline.Owing) (call : Call) (calls : List Call) :
    (s.perform call).pipeline.Owing ∧
      (s.perform call).promised + (s.perform call).unfinished calls ≤
        s.promised + s.unfinished (call :: calls) := by
  cases call with
  | step =>
    obtain ⟨howing, hpromised, -⟩ := signals_step_of_owing h
    exact ⟨howing, Nat.le_of_eq (congrArg (· + _) hpromised)⟩
  | run limit =>
    obtain ⟨howing, hpromised⟩ := promised_run h limit
    exact ⟨howing, Nat.le_of_eq (congrArg (· + _) hpromised)⟩
  | wake t => exact ⟨h.wakeFetch t, Nat.le_refl _⟩
  | wakeAll =>
    obtain ⟨howing, hdue⟩ := h.wakeAll s.threadNumbers
    have hpromised : s.wakeAll.promised = s.promised :=
      congrArg (fun due : Bool => s.signals + due.toNat) hdue
    exact ⟨howing, Nat.le_of_eq (congrArg (· + _) hpromised)⟩
  | drain =>
    obtain ⟨howing, hpromised⟩ := s.promised_drain
    refine ⟨howing, ?_⟩
    show s.drain.promised + s.drain.unfinished calls ≤
      s.promised + ((!s.simulator.drain.2.1).toNat + s.drain.unfinished calls)
    rw [hpromised, promised]
    omega
  | resume =>
    obtain ⟨howing, hpromised⟩ := s.promised_resume
    refine ⟨howing, ?_⟩
    show s.resume.promised + s.resume.unfinished calls ≤ s.promised + s.resume.unfinished calls
    rw [hpromised, promised]
    omega

/-- **Over any calls no more signals are given than were promised before, and than drains have
asked for since.** -/
theorem signals_after_le (calls : List Call) : ∀ {s : Session}, s.pipeline.Owing →
    (s.after calls).pipeline.Owing ∧
      (s.after calls).signals ≤ s.promised + s.unfinished calls := by
  induction calls with
  | nil => exact fun h => ⟨h, by unfold promised; exact Nat.le_add_right _ _⟩
  | cons call calls ih =>
    intro s h
    obtain ⟨howing, hle⟩ := promised_perform_le h call calls
    obtain ⟨hafter, hsignals⟩ := ih howing
    exact ⟨hafter, Nat.le_trans hsignals hle⟩

/-- A new session owes no signal, and has given none. -/
theorem owing_of_new (h : new c m = .ok s) : s.pipeline.Owing ∧ s.promised = 0 := by
  obtain ⟨⟨events, hsimulator⟩, -⟩ := simulator_of_new h
  obtain ⟨⟨told, hpipeline⟩, hhost, -⟩ := Simulator.of_new_eq_ok hsimulator
  obtain ⟨blank, registers, faults, scheduled, -, -, -, heq⟩ := Pipeline.of_new_eq_ok hpipeline
  have hstopped : s.pipeline = .unused c (.new Pipeline.owner c m) registers faults := heq
  rw [promised, signals, hhost, hstopped]
  exact ⟨.of_none rfl (fun hstate => nomatch hstate), rfl⟩

/-- **Signals and drains.** After any calls a signal is owed exactly while a drain is under way, and
the pipeline does not stop in that time. Only a step gives a signal, and one at a time: a step that
takes a drain to its end, after which the pipeline is empty and has stopped. A run is some number of
steps. So there are never more signals than drains that were not complete at once; and a drain that
was complete at once, or that a resumption left, is not signalled later: after it there are no more
signals than further drains ask for. -/
theorem signals_drains {s₀ : Session} (h : new c m = .ok s₀) (calls : List Call) :
    let s := s₀.after calls
    ((s.pipeline.signalDue = true ↔ s.pipeline.drainState = .draining) ∧
      (s.pipeline.drainState = .draining → s.pipeline.running = true)) ∧
    ((s.step.signals = s.signals ∨ s.step.signals = s.signals + 1) ∧
      (s.step.signals = s.signals + 1 ↔
        s.pipeline.drainState = .draining ∧ s.step.pipeline.drainState = .drained) ∧
      (s.step.signals = s.signals + 1 →
        s.step.pipeline.isDrained = true ∧ s.step.pipeline.running = false)) ∧
    (∀ limit, ∃ n, s.run limit = step^[n] s) ∧
    (∀ call, call ≠ .step → (∀ limit, call ≠ .run limit) → (s.perform call).signals = s.signals) ∧
    s.signals ≤ s₀.unfinished calls ∧
    (s.simulator.drain.2.1 = true →
      ∀ more, (s.drain.after more).signals ≤ s.signals + s.drain.unfinished more) ∧
    ∀ more, (s.resume.after more).signals ≤ s.signals + s.resume.unfinished more := by
  intro s
  obtain ⟨hstart, hzero⟩ := owing_of_new h
  obtain ⟨howing, hle⟩ := signals_after_le calls hstart
  obtain ⟨-, -, hsteps⟩ := signals_step_of_owing howing
  refine ⟨⟨howing.due, howing.runs⟩, hsteps, s.run_iterate, fun call hstep hrun => ?_, ?_,
    fun hempty more => ?_, fun more => ?_⟩
  · cases call with
    | step => exact absurd rfl hstep
    | run limit => exact absurd rfl (hrun limit)
    | wake t => rfl
    | wakeAll => rfl
    | drain => rfl
    | resume => rfl
  · rwa [hzero, Nat.zero_add] at hle
  · obtain ⟨hdrain, hpromised⟩ := s.promised_drain
    have hle := (signals_after_le more hdrain).2
    rw [hpromised, hempty] at hle
    exact hle
  · obtain ⟨hresume, hpromised⟩ := s.promised_resume
    exact hpromised ▸ (signals_after_le more hresume).2

end Session

/-- A pipeline that may idle, a flip that makes a line out of nothing, and a unit that is corrupted
once. -/
def Config.smudged : Config :=
  { pipeline := { idling := true }
    faults := { register := "f1ToF2", tick := 1, bit := 0, unit := true } }

/-- Two words, the second of which suspends. -/
def Image.pair : Image := .ofWords 0x80000000 [19, 115]

/-- A drain that is left, and one that completes. -/
def drainedTwice : List Call :=
  [.wakeAll, .step, .step, .drain, .resume, .step, .drain, .run 40]

/-- Of two drains that were not complete at once, the first is left and the second is signalled; a
third is complete at once. -/
theorem signals_drains_twice : ∃ s₀, Session.new .smudged .pair = .ok s₀ ∧
    s₀.unfinished drainedTwice = 2 ∧ (s₀.after drainedTwice).signals = 1 ∧
    (s₀.after drainedTwice).simulator.drain.2.1 = true ∧
    (s₀.after drainedTwice).signals ≤ s₀.unfinished drainedTwice ∧
    ∀ more, ((s₀.after drainedTwice).drain.after more).signals ≤
      (s₀.after drainedTwice).signals + (s₀.after drainedTwice).drain.unfinished more := by
  obtain ⟨s₀, hnew, hunfinished, hsignals, hempty⟩ : ∃ s₀, Session.new .smudged .pair = .ok s₀ ∧
      s₀.unfinished drainedTwice = 2 ∧ (s₀.after drainedTwice).signals = 1 ∧
      (s₀.after drainedTwice).simulator.drain.2.1 = true :=
    ⟨_, rfl, by decide +kernel, by decide +kernel, by decide +kernel⟩
  obtain ⟨-, -, -, -, hle, hlater, -⟩ := Session.signals_drains hnew drainedTwice
  exact ⟨s₀, hnew, hunfinished, hsignals, hempty, hle, hlater hempty⟩

end InOrder
