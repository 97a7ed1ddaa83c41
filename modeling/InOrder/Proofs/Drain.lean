import InOrder.Proofs.Machine.Drain

/-!
# Drains complete

A drain that is not complete at once keeps the pipeline going until it is empty, and then tells the
host, once.

* `Session.Reached.drain_completes`: every drain comes to this, whatever state it is asked for in,
  and what retires meanwhile is what was in the functional units.
-/

namespace InOrder

namespace Pipeline

/-- A drain that is not complete at once starts the pipeline, and owes its host a signal. -/
theorem drain_of_false {p : Pipeline Stages} (h : p.drain.2.1 = false) :
    p.drain.1.isDrained = false ∧ p.drain.1.running = true ∧ p.drain.1.signalDue = true := by
  unfold drain at h ⊢
  simp only at h ⊢
  split at h
  · exact absurd h (by simp)
  · rename_i hbusy
    rw [if_neg hbusy]
    exact ⟨(isDrained_congr rfl rfl).trans (Bool.eq_false_iff.mpr hbusy), rfl, rfl⟩

/-- A drain that is complete at once leaves a pipeline empty, and no signal is owed. -/
theorem drain_of_true {p : Pipeline Stages} (h : p.drain.2.1 = true) :
    p.drain.1.isDrained = true ∧ p.drain.1.signalDue = false := by
  unfold drain at h ⊢
  simp only at h ⊢
  split at h
  · rename_i hdrained
    rw [if_pos hdrained]
    exact ⟨(isDrained_congr rfl rfl).trans hdrained, rfl⟩
  · exact absurd h Bool.false_ne_true

variable {c : Config} {m : Image} {p : Pipeline Stages}

/-- A drain concerns execute alone, of stages and registers. -/
theorem machine_drain (p : Pipeline Stages) (hist : History) : p.drain.1.machine hist =
    { p.machine hist with stages := { p.stages with execute := p.stages.execute.drain } } := by
  unfold drain
  simp only
  split <;> rfl

/-- The machine of a pipeline of which a drain was asked drains. -/
theorem Sound.draining_drain (h : p.Sound c m) (hist : History) :
    (p.drain.1.machine hist).Draining c := by
  refine ⟨?_, fun t ht => .inl ?_⟩
  · rw [machine_drain]
    rfl
  · show (p.drain.1.lane hist t).exec.haltPending = true
    rw [lane_drain h ht]
    rfl

/-- A drain asks each thread for a halt. -/
theorem Sound.pendingHalts_drain (h : p.Sound c m) (hist : History) :
    (p.drain.1.machine hist).pendingHalts = c.host.threads.toNat := by
  rw [machine_drain]
  show (p.stages.execute.threads.map fun th => { th with haltPending := true }).countP
    (·.haltPending) = _
  rw [List.countP_map, ← h.stages.execute.length]
  exact List.countP_eq_length.mpr fun th _ => rfl

end Pipeline

namespace Session

variable {c : Config} {m : Image} {s : Session}

/-- The pipeline goes on, and owes its host the signal of a complete drain. -/
structure Draining (s : Session) : Prop where
  running : s.pipeline.running = true
  due : s.pipeline.signalDue = true

/-- **A session drains until its pipeline is empty**; then it stops, and the host is told. -/
theorem Draining.step (hd : s.Draining) (h : s.Sound c m) :
    (s.step.pipeline.isDrained = false →
      s.step.Draining ∧ s.step.simulator.host.signals = s.simulator.host.signals) ∧
    (s.step.pipeline.isDrained = true →
      s.step.pipeline.running = false ∧ s.step.pipeline.drainState = .drained ∧
        s.step.simulator.host.signals = s.simulator.host.signals + 1) := by
  obtain ⟨hcomplete, hbusy⟩ := Pipeline.evaluate_of_due h.pipeline.waiting h.pipeline.unitMode
    hd.due (s.simulator.tick + s.simulator.period)
  rw [signals_step hd.running, (pipeline_step hd.running).1]
  constructor
  · intro hnot
    obtain ⟨hdone, hrunning, hdue⟩ := hbusy hnot
    refine ⟨⟨?_, ?_⟩, ?_⟩
    · rw [(pipeline_step hd.running).1]
      exact hrunning.trans hd.running
    · rw [(pipeline_step hd.running).1]
      exact hdue
    · rw [hdone, if_neg Bool.false_ne_true]
  · intro hdrained
    obtain ⟨hdone, hrunning, hstate⟩ := hcomplete hdrained
    exact ⟨hrunning, hstate, if_pos hdone⟩

/-- Once a session has stopped, steps advance its clock and do nothing else. -/
theorem iterate_of_stopped (h : s.pipeline.running = false) (k : Nat) :
    (step^[k] s).simulator = { s.simulator with
      host := { s.simulator.host with tick := s.simulator.tick + k * s.simulator.period } } := by
  induction k with
  | zero =>
    rw [Nat.zero_mul, Nat.add_zero]
    rfl
  | succ k ih =>
    have hstopped : ¬ (step^[k] s).simulator.pipeline.running = true := by
      rw [ih]
      exact Bool.eq_false_iff.mp h
    rw [Function.iterate_succ_apply', Session.step, Simulator.step, if_neg hstopped, ih,
      Nat.succ_mul, ← Nat.add_assoc]
    rfl

/-- The machine of a session of which a drain was asked drains. -/
theorem Sound.draining_drain (h : s.Sound c m) : s.drain.machine.Draining c :=
  h.pipeline.draining_drain s.history

/-- A drain asks each thread for a halt. -/
theorem Sound.pendingHalts_drain (h : s.Sound c m) :
    s.drain.machine.pendingHalts = c.host.threads.toNat :=
  h.pipeline.pendingHalts_drain s.history

/-- Until its pipeline is empty a session drains, and the host is told nothing. -/
theorem Draining.iterate (hd : s.Draining) (h : s.Sound c m) {n : Nat}
    (hbusy : ∀ k ≤ n, ¬ (s.machine.after k).Empty) :
    (Session.step^[n] s).Draining ∧ (Session.step^[n] s).machine = s.machine.after n ∧
      (Session.step^[n] s).simulator.host.signals = s.simulator.host.signals := by
  induction n with
  | zero => exact ⟨hd, rfl, rfl⟩
  | succ n ih =>
    obtain ⟨hdraining, hmachine, hsignals⟩ := ih fun k hk => hbusy k (Nat.le_succ_of_le hk)
    have hnext : (Session.step^[n] s).step.machine = s.machine.after (n + 1) := by
      rw [machine_step (h.iterate n) hdraining.running, hmachine, Machine.after_succ]
    have hnot : (Session.step^[n] s).step.pipeline.isDrained = false := by
      rw [Bool.eq_false_iff]
      intro hdrained
      have hempty := (Pipeline.isDrained_iff_empty (Session.step^[n] s).step.history).mp hdrained
      exact hbusy (n + 1) (Nat.le_refl _) (hnext ▸ hempty)
    obtain ⟨hdraining', hsignals'⟩ := (hdraining.step (h.iterate n)).1 hnot
    rw [Function.iterate_succ_apply']
    exact ⟨hdraining', hnext, hsignals'.trans hsignals⟩

/-- Until its pipeline is empty the machine of a session that drains goes on. -/
theorem Draining.machine_iterate (hd : s.Draining) (h : s.Sound c m) {n : Nat}
    (hbusy : ∀ k < n, ¬ (s.machine.after k).Empty) :
    (Session.step^[n] s).machine = s.machine.after n :=
  Session.machine_iterate h fun _ hk =>
    (hd.iterate h fun j hj => hbusy j (Nat.lt_of_le_of_lt hj hk)).1.running

/-- **A drain ends in the first cycle after which the machine is empty.** The host is told then, and
not before. -/
theorem Draining.completes (hd : s.Draining) (h : s.Sound c m) (hbusy : ¬ s.machine.Empty)
    (hempty : ∃ k, (s.machine.after k).Empty) :
    ∃ n, (s.machine.after (n + 1)).Empty ∧
      (∀ k ≤ n + 1, (Session.step^[k] s).machine = s.machine.after k) ∧
      (∀ k ≤ n, (Session.step^[k] s).Draining ∧
        (Session.step^[k] s).simulator.host.signals = s.simulator.host.signals) ∧
      (Session.step^[n + 1] s).simulator.host.signals = s.simulator.host.signals + 1 ∧
      (Session.step^[n + 1] s).pipeline.drainState = .drained ∧
      (Session.step^[n + 1] s).pipeline.isDrained = true ∧
      (Session.step^[n + 1] s).pipeline.running = false := by
  classical
  obtain ⟨n, hn⟩ : ∃ n, Nat.find hempty = n := ⟨_, rfl⟩
  have hlast : (s.machine.after n).Empty := hn ▸ Nat.find_spec hempty
  have hbefore : ∀ k < n, ¬ (s.machine.after k).Empty := fun k hk =>
    Nat.find_min hempty (hn ▸ hk)
  cases n with
  | zero => exact absurd hlast hbusy
  | succ n =>
    have hgoing := fun k (hk : k ≤ n) => hd.iterate h (n := k) fun j hj => hbefore j (by omega)
    have hmachine : ∀ k ≤ n + 1, (Session.step^[k] s).machine = s.machine.after k := fun k hk =>
      hd.machine_iterate h fun j hj => hbefore j (Nat.lt_of_lt_of_le hj hk)
    obtain ⟨hdraining, -, hsignals⟩ := hgoing n (Nat.le_refl n)
    have hdrained : (Session.step^[n] s).step.pipeline.isDrained = true := by
      rw [← hmachine (n + 1) (Nat.le_refl _), Function.iterate_succ_apply'] at hlast
      exact (Pipeline.isDrained_iff_empty (Session.step^[n] s).step.history).mpr hlast
    obtain ⟨hstopped, hstate, htold⟩ := (hdraining.step (h.iterate n)).2 hdrained
    refine ⟨n, hlast, hmachine, fun k hk => ⟨(hgoing k hk).1, (hgoing k hk).2.2⟩, ?_⟩
    rw [Function.iterate_succ_apply']
    exact ⟨htold.trans (congrArg (· + 1) hsignals), hstate, hdrained, hstopped⟩

/-- What has retired when the units are empty is all that was issued. -/
theorem Sound.retired_eq (h : s.Sound c m) (hunits : s.machine.stages.execute.units = []) :
    s.pipeline.retired = s.machine.ran.length := by
  rw [Machine.ran, hunits, List.map_nil, List.append_nil]
  exact h.count

/-- A drain does not touch what was issued. -/
theorem Sound.ran_drain (h : s.Sound c m) : s.drain.machine.ran.length =
    s.pipeline.retired + s.pipeline.stages.execute.units.length := by
  have hmachine : s.drain.machine = _ := s.pipeline.machine_drain s.history
  rw [hmachine]
  show (s.history.retired ++ s.pipeline.stages.execute.units.map _).length = _
  rw [List.length_append, List.length_map, h.count]

/-- **As long as a halt is pending or on its way, the machine is not empty**, and it is not empty at
once when the drain is not complete at once. -/
theorem Sound.not_empty_drain (h : s.Sound c m) (hf : s.pipeline.Fitted c) (ha : c.Admitted)
    (hdrain : s.simulator.drain.2.1 = false) {k : Nat}
    (hk : k < c.host.threads.toNat + c.pipeline.delays.eToF1.toNat) :
    ¬ (s.drain.machine.after k).Empty := by
  intro hempty
  have hpending := h.pendingHalts_drain
  have hthreads := ha.threads
  have hrow : s.drain.machine.registers.eToF1.row.length = c.pipeline.delays.eToF1.toNat :=
    hf.drain.row
  cases k with
  | zero =>
    have hdrained := (Pipeline.isDrained_iff_empty s.drain.history).mpr hempty
    exact absurd ((Pipeline.drain_of_false hdrain).1.symm.trans hdrained) (by simp)
  | succ k =>
    have hregister := h.draining_drain.busy_register h.drain.machine (k := k) (by omega) (by omega)
    exact absurd (hregister.symm.trans (hempty.registers .eToF1)) (by simp)

/-- **Every drain completes, with one signal.** A drain that is not complete at once ends after some
number of steps: the pipeline is empty and has stopped, the host was told in the last step and not
before, and from then on only the clock advances. What retires meanwhile are the micro-ops that were
in the functional units. No drain ends before the last halt has arrived, and as long the count
of evaluations has to fit in a word. -/
theorem Reached.drain_completes (hc : c.FaultFree) (h : Reached c m s)
    (hdrain : s.simulator.drain.2.1 = false)
    (hcycles : s.pipeline.stats.cycles +
      (c.host.threads.toNat + c.pipeline.delays.eToF1.toNat) < UInt64.size) :
    ∃ n, c.host.threads.toNat + c.pipeline.delays.eToF1.toNat ≤ n ∧
      (∀ k < n, (step^[k] s.drain).simulator.host.signals = s.simulator.host.signals) ∧
      (step^[n] s.drain).simulator.host.signals = s.simulator.host.signals + 1 ∧
      (step^[n] s.drain).pipeline.drainState = .drained ∧
      (step^[n] s.drain).pipeline.isDrained = true ∧
      (step^[n] s.drain).pipeline.running = false ∧
      (step^[n] s.drain).pipeline.retired =
        s.pipeline.retired + s.pipeline.stages.execute.units.length ∧
      ∀ k, (step^[n + k] s.drain).simulator = { (step^[n] s.drain).simulator with
        host := { (step^[n] s.drain).simulator.host with
          tick := (step^[n] s.drain).simulator.tick +
            k * (step^[n] s.drain).simulator.period } } := by
  have hs := h.sound hc
  have hd := hs.drain
  have hdraining := hs.draining_drain
  have hpending := hs.pendingHalts_drain
  obtain ⟨-, hrunning, hdue⟩ := Pipeline.drain_of_false hdrain
  have hgoes : s.drain.Draining := ⟨hrunning, hdue⟩
  obtain ⟨hfitted, hadmitted⟩ := h.fitted hc
  have hsized : s.drain.machine.stages.Sized := hfitted.drain.sized
  have hrow : s.drain.machine.registers.eToF1.row.length = c.pipeline.delays.eToF1.toNat :=
    hfitted.drain.row
  have hempty : ∃ k, (s.drain.machine.after k).Empty := by
    refine hdraining.eventually_empty hd.machine hsized fun t ht => ?_
    have hnumbered : (s.drain.lane t).Numbered := by
      rw [lane_drain hs ht]
      exact (h.numbered hc (by omega) ht).pend true
    refine Machine.numbered_after hd.machine ht hnumbered ?_
    have hsame : s.drain.pipeline.stats.cycles = s.pipeline.stats.cycles :=
      congrArg Prod.fst (Pipeline.counts_drain s.pipeline)
    rw [hpending, hrow]
    omega
  have hthreads := hadmitted.threads
  obtain ⟨n, hlast, hmachine, hgoing, htold, hstate, hdrained, hstopped⟩ :=
    hgoes.completes hd (hs.not_empty_drain hfitted hadmitted hdrain (k := 0) (by omega)) hempty
  refine ⟨n + 1, ?_, fun k hk => (hgoing k (Nat.le_of_lt_succ hk)).2, htold, hstate, hdrained,
    hstopped, ?_, fun k => ?_⟩
  · exact Nat.le_of_not_lt fun hlt => hs.not_empty_drain hfitted hadmitted hdrain hlt hlast
  · have hran := hdraining.ran_after hd.machine (n + 1)
    rw [← hmachine (n + 1) (Nat.le_refl _)] at hran hlast
    rw [(hd.iterate (n + 1)).retired_eq hlast.units, hran, hs.ran_drain]
  · rw [Nat.add_comm, Function.iterate_add_apply]
    exact iterate_of_stopped hstopped k

/-- A drain that is asked for while a jump is in a unit. -/
theorem drain_completes_spin : ∃ s, Reached {} .spin s ∧
    s.simulator.drain.2.1 = false ∧ s.pipeline.stages.execute.units.length = 1 ∧
    s.pipeline.stats.cycles + (1 + 1) < UInt64.size ∧
    ∃ n, 1 + 1 ≤ n ∧
      (∀ k < n, (step^[k] s.drain).simulator.host.signals = s.simulator.host.signals) ∧
      (step^[n] s.drain).simulator.host.signals = s.simulator.host.signals + 1 ∧
      (step^[n] s.drain).pipeline.drainState = .drained ∧
      (step^[n] s.drain).pipeline.isDrained = true ∧
      (step^[n] s.drain).pipeline.running = false ∧
      (step^[n] s.drain).pipeline.retired =
        s.pipeline.retired + s.pipeline.stages.execute.units.length ∧
      ∀ k, (step^[n + k] s.drain).simulator = { (step^[n] s.drain).simulator with
        host := { (step^[n] s.drain).simulator.host with
          tick := (step^[n] s.drain).simulator.tick +
            k * (step^[n] s.drain).simulator.period } } := by
  obtain ⟨s, hreached, hdrain, hunits, hcycles⟩ : ∃ s, Reached {} .spin s ∧
      s.simulator.drain.2.1 = false ∧ s.pipeline.stages.execute.units.length = 1 ∧
      s.pipeline.stats.cycles + (1 + 1) < UInt64.size :=
    ⟨_, ⟨_, .wakeAll :: List.replicate 5 .step, rfl, rfl⟩, by decide +kernel, by decide +kernel,
      by decide +kernel⟩
  exact ⟨s, hreached, hdrain, hunits, hcycles,
    hreached.drain_completes (by decide) hdrain hcycles⟩

end Session

end InOrder
