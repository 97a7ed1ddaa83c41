import InOrder.Proofs.Pipeline.Lag
import InOrder.Proofs.Returns

/-!
# Idling does not show

Whether a pipeline may idle makes no difference to what it computes, to what it shows of its
threads, nor to what it counts. The session that may idle and the one that may not are followed side
by side (`Pipeline.Tandem`): they are evaluated together, or else one rests because there is nothing
to do. While it rests, nothing is on its way but predictions for streams that their threads have
left, since a thread whose prediction is on its way runs (`Pipeline.Steady.outdated`). It is woken
when a thread is, and goes on where the other one is.

The numbers of cycles are not the same in both. What is said is of calls that return in both: of two
lines asked for at one tick, one can be due in a cycle that has no number of 64 bits.

* `Pipeline.Tandem.together`, `Pipeline.Tandem.rest` and `Pipeline.Tandem.wakeFetch`: the two
  pipelines are evaluated together, or one rests, or a thread is woken in both.
* `Session.idling_transparent`: after any steps and wakeups that return both sessions show the same.
-/

namespace InOrder

/-- The configuration in which a pipeline may idle, or may not. -/
def Config.withIdling (c : Config) (idling : Bool) : Config :=
  { c with pipeline := { c.pipeline with idling } }

namespace Pipeline

variable {c : Config} {m : Image} {p : Pipeline Stages} {t : UInt32} {now : Nat}

/-! ## Outdated predictions -/

/-- A thread that the line fetch has is the thread of a lane. -/
theorem Steady.fetch_eq (h : p.Steady c m) {th : FetchThread}
    (hth : p.stages.lineFetch.thread? t = some th) (history : History) :
    t.toNat < c.host.threads.toNat ∧ (p.lane history t).fetch = th := by
  refine ⟨?_, by rw [lane, laneOf, hth]; rfl⟩
  rw [← h.stages.lineFetch.length]
  exact (List.getElem?_eq_some_iff.mp hth).1

/-- **In a quiet pipeline all predictions are outdated**: no thread runs, so none is owed. -/
theorem Steady.outdated (h : p.Steady c m) (hquiet : p.stages.Quiet) {history : History}
    (hn : ∀ t : UInt32, t.toNat < c.host.threads.toNat → (p.lane history t).Numbered) :
    ∀ r ∈ p.registers.f2ToF1.row, p.stages.lineFetch.Outdated r := by
  intro r hr hlive th hth
  obtain ⟨ht, hfetch⟩ := h.fetch_eq hth history
  have hbubble : Payload.isBubble r = false :=
    Bool.eq_false_iff.mpr fun hbubble => by simp [Redirect.not_isLive hbubble] at hlive
  have hheld : r ∈ p.registers.f2ToF1.held := by
    rw [Register.held_eq]
    exact mem_present.mpr ⟨hr, hbubble⟩
  have hmem : r ∈ (p.lane history r.thread).predictions :=
    List.mem_filter.mpr ⟨hheld, decide_eq_true rfl⟩
  have hstopped : (p.lane history r.thread).fetch.state ≠ .running :=
    hfetch ▸ hquiet.stopped th (List.mem_of_getElem? hth)
  have howed := ((hn r.thread ht).rests hstopped).2.2
  have hle := (hn r.thread ht).predictions_le r hmem
  have hne := Lane.ne_of_owed howed hmem
  rw [hfetch] at hle hne
  exact Nat.lt_of_le_of_ne hle fun heq => hne (ordinal_inj heq)

/-- A prediction that is outdated stays so in a cycle. -/
theorem Steady.outdated_evaluate (h : p.Steady c m) (hcycles : p.stats.cycles + 1 < UInt64.size)
    {history : History}
    (hn : ∀ t : UInt32, t.toNat < c.host.threads.toNat → (p.lane history t).Numbered)
    (now : Nat) {r : Redirect} (hold : p.stages.lineFetch.Outdated r) :
    (p.evaluate now).pipeline.stages.lineFetch.Outdated r := by
  refine hold.mono fun th' hth' => ?_
  obtain ⟨ht, hfetch'⟩ := (h.evaluate now).fetch_eq hth' { history with
    retired := history.retired ++ (p.evaluate now).retired
    overtaken := history.overtaken ++ p.overtaken }
  have hth : p.stages.lineFetch.thread? r.thread = some _ :=
    List.getElem?_eq_getElem (h.stages.lineFetch.length.symm ▸ ht)
  have hle := (h.numbered ht hcycles now (hn r.thread ht)).2
  rw [hfetch', (h.fetch_eq hth history).2] at hle
  exact ⟨_, hth, hle⟩

/-- A thread that is woken does not change a number. -/
theorem Steady.numbered_wakeFetch (h : p.Steady c m) (ht : t.toNat < c.host.threads.toNat)
    (t' : UInt32) {history : History} (hn : (p.lane history t).Numbered) :
    ((p.wakeFetch t').1.lane { history with woken := history.woken ++ [t'] } t).Numbered := by
  have hsound : ({ p with unitMode := none } : Pipeline Stages).Sound c m :=
    ⟨h.stages, h.registers, h.waiting, rfl⟩
  have hsteps : Lane.Steps (c.track m (· ≠ firstSeq) t) (p.lane history t) _ :=
    lane_wakeFetch hsound ht t' history
  exact hn.steps (fun _ hx => hx) hsteps

/-- A pipeline that owes no signal and stops tells that it idles. -/
theorem idle_mem_of_stop (hdue : p.signalDue = false) (hruns : p.running = true)
    (hstops : (p.evaluate now).pipeline.running = false) :
    Event.idle ∈ (p.evaluate now).events := by
  rw [(evaluate_of_waits hdue now).2.2, hruns] at hstops
  simp only [Bool.true_and, Bool.not_eq_eq_eq_not, Bool.not_false, Bool.and_eq_true] at hstops
  exact idle_mem_iff.mpr ⟨hstops.1, hdue, hstops.2⟩

/-! ## Side by side -/

/-- Two pipelines of which only the first may idle, where the same was done to both until `tick`.
Both run or both do not, unless the first one rests. -/
structure Tandem (c : Config) (m : Image) (history : History) (tick : Nat)
    (p q : Pipeline Stages) : Prop where
  steady : p.Steady (c.withIdling true) m
  steady' : q.Steady (c.withIdling false) m
  watched : p.Watched c.pipeline.longestForwardDelay
  watched' : q.Watched c.pipeline.longestForwardDelay
  forward : 0 < c.pipeline.longestForwardDelay
  cycles : p.stats.cycles ≤ tick
  last : q.lastSnapshot ≤ tick
  restless : q.allowIdling = false
  numbered : ∀ t : UInt32, t.toNat < c.host.threads.toNat → (p.lane history t).Numbered
  lags : ∃ d gap, Lags d gap p q
  running : q.running = p.running ∨ p.running = false ∧ q.running = true ∧ p.Quiet

namespace Tandem

variable {q : Pipeline Stages} {history : History} {tick : Nat}

/-- Time goes by for pipelines that do not run. -/
theorem wait (h : Tandem c m history tick p q) (hnow : tick ≤ now) : Tandem c m history now p q :=
  { h with
    cycles := Nat.le_trans h.cycles hnow
    last := Nat.le_trans h.last hnow }

/-- The second pipeline runs when the first does. -/
theorem running_of_runs (h : Tandem c m history tick p q) (hruns : p.running = true) :
    q.running = true := by
  rcases h.running with hsame | ⟨hrests, -⟩
  · exact hsame.trans hruns
  · rw [hruns] at hrests
    exact Bool.noConfusion hrests

/-- A cycle does not stop the second pipeline. -/
theorem running_evaluate (h : Tandem c m history tick p q) (now : Nat) :
    (q.evaluate now).pipeline.running = q.running ∧
      (q.evaluate now).pipeline.allowIdling = false := by
  obtain ⟨d, gap, hlags⟩ := h.lags
  obtain ⟨-, hallow, hrunning⟩ := evaluate_of_waits hlags.waits.2 now
  rw [hrunning, hallow, h.restless]
  exact ⟨Bool.and_true _, rfl⟩

/-- **Both pipelines are evaluated.** They go on together, or the first one stops because there is
nothing to do, and both have counted the same bubbles. -/
theorem together (h : Tandem c m history tick p q) (hruns : p.running = true)
    (hlt : tick < now) (hclock : now < UInt64.size) :
    Tandem c m
        { history with
          retired := history.retired ++ (p.evaluate now).retired
          overtaken := history.overtaken ++ p.overtaken }
        now (p.evaluate now).pipeline (q.evaluate now).pipeline ∧
      ∀ e ≠ .f2ToF1, (q.evaluate now).pipeline.stats.bubbleTicks.get e =
        (p.evaluate now).pipeline.stats.bubbleTicks.get e := by
  have hruns' := h.running_of_runs hruns
  obtain ⟨d, gap, hlags⟩ := h.lags
  have hle := h.cycles
  have hcycles : p.stats.cycles + 1 < UInt64.size := by omega
  obtain ⟨hrunning', hrestless⟩ := h.running_evaluate now
  have hlags' : Lags d 0 (p.evaluate now).pipeline (q.evaluate now).pipeline :=
    hlags.evaluate h.steady h.steady'
      (fun _ hold => h.steady.outdated_evaluate hcycles h.numbered now hold)
      (Nat.le_trans h.last (Nat.le_of_lt hlt))
  have hcycles' : (p.evaluate now).pipeline.stats.cycles ≤ now := by
    rw [(p.evaluate_struck now).2.2.1]
    omega
  refine ⟨?_, fun e he => hlags'.bubbles e he⟩
  refine
    { steady := h.steady.evaluate now
      steady' := h.steady'.evaluate now
      watched := h.watched.evaluate now
      watched' := h.watched'.evaluate now
      forward := h.forward
      cycles := hcycles'
      last := Nat.le_of_eq (q.units_evaluate now).2.2
      restless := hrestless
      numbered := fun t ht => (h.steady.numbered ht hcycles now (h.numbered t ht)).1
      lags := ⟨d, 0, hlags'⟩
      running := ?running }
  case running =>
    cases hstops : (p.evaluate now).pipeline.running with
    | true => exact .inl (hrunning'.trans hruns')
    | false =>
      have hidle := idle_mem_of_stop hlags.waits.1 hruns hstops
      exact .inr ⟨rfl, hrunning'.trans hruns', (h.watched.quiet_of_idle h.forward hidle).1⟩

/-- **The first pipeline rests while the other one is evaluated.** -/
theorem rest (h : Tandem c m history tick p q) (hrests : p.running = false)
    (hruns' : q.running = true) (hle : tick ≤ now) :
    Tandem c m history now p (q.evaluate now).pipeline := by
  have hquiet : p.Quiet := by
    rcases h.running with hsame | ⟨-, -, hquiet⟩
    · rw [hruns', hrests] at hsame
      exact Bool.noConfusion hsame
    · exact hquiet
  obtain ⟨d, gap, hlags⟩ := h.lags
  obtain ⟨hrunning', hrestless⟩ := h.running_evaluate now
  have hold := h.steady.outdated hquiet.stages h.numbered
  have hlags' := hlags.rest h.steady' h.watched' hquiet hold (Nat.le_trans h.last hle)
  exact
    { h with
      steady' := h.steady'.evaluate now
      watched' := h.watched'.evaluate now
      cycles := Nat.le_trans h.cycles hle
      last := Nat.le_of_eq (q.units_evaluate now).2.2
      restless := hrestless
      lags := ⟨_, _, hlags'⟩
      running := .inr ⟨hrests, hrunning'.trans hruns', hquiet⟩ }

/-- **A thread is woken in both pipelines**, and both run. -/
theorem wakeFetch (h : Tandem c m history tick p q) (t : UInt32) :
    Tandem c m { history with woken := history.woken ++ [t] } tick (p.wakeFetch t).1
      (q.wakeFetch t).1 := by
  obtain ⟨d, gap, hlags⟩ := h.lags
  exact
    { steady := h.steady.wakeFetch t
      steady' := h.steady'.wakeFetch t
      watched := h.watched.wakeFetch t
      watched' := h.watched'.wakeFetch t
      forward := h.forward
      cycles := h.cycles
      last := h.last
      restless := h.restless
      numbered := fun t' ht' => h.steady.numbered_wakeFetch ht' t (h.numbered t' ht')
      lags := ⟨d, gap, hlags.wakeFetch t⟩
      running := .inl rfl }

end Tandem

/-! ## The start -/

end Pipeline

namespace Session

/-! ## Sessions -/

/-- The sessions show the same: how much has retired and with which signature, where the threads
stand in the line fetch and in execute, and what is on its way forward. -/
structure Alike (s s' : Session) : Prop where
  tick : s'.simulator.tick = s.simulator.tick
  retired : s'.pipeline.retired = s.pipeline.retired
  signature : s'.pipeline.signature = s.pipeline.signature
  squashed : s'.pipeline.stages.execute.squashed = s.pipeline.stages.execute.squashed
  fetching : s'.pipeline.stages.lineFetch.threads = s.pipeline.stages.lineFetch.threads
  executing : s'.pipeline.stages.execute.threads = s.pipeline.stages.execute.threads
  lines : s'.pipeline.registers.f1ToF2.line.slots = s.pipeline.registers.f1ToF2.line.slots
  cut : s'.pipeline.registers.f2ToD.line.slots = s.pipeline.registers.f2ToD.line.slots
  decoded : s'.pipeline.registers.dToE.line.slots = s.pipeline.registers.dToE.line.slots
  redirects : s'.pipeline.registers.eToF1.line.slots = s.pipeline.registers.eToF1.line.slots

/-- The clocks of both sessions agree, and their pipelines are side by side. -/
structure Tandem (c : Config) (m : Image) (s s' : Session) : Prop where
  tick : s'.simulator.tick = s.simulator.tick
  period : s'.simulator.period = s.simulator.period
  pipelines : Pipeline.Tandem c m s.history s.simulator.tick s.pipeline s'.pipeline

namespace Tandem

variable {c : Config} {m : Image} {s s' : Session}

/-- **A step of both sessions**, after which they have counted the same bubbles if both evaluate. -/
theorem step (h : Tandem c m s s') (hclock : s.step.simulator.tick < UInt64.size) :
    Tandem c m s.step s'.step ∧
      (s.pipeline.running = true → s'.pipeline.running = true → ∀ e ≠ .f2ToF1,
        s'.step.pipeline.stats.bubbleTicks.get e = s.step.pipeline.stats.bubbleTicks.get e) := by
  have htick := s.tick_step
  have htick' := s'.tick_step
  have hnow : s'.simulator.tick + s'.simulator.period = s.simulator.tick + s.simulator.period := by
    rw [h.tick, h.period]
  have hsame : s'.step.simulator.tick = s.step.simulator.tick := by rw [htick', hnow, htick]
  have hperiod : s'.step.simulator.period = s.step.simulator.period := by
    rw [s.period_step, s'.period_step, h.period]
  have hpos := s.simulator.period_pos
  have hlt : s.simulator.tick < s.step.simulator.tick := by omega
  cases hruns : s.pipeline.running with
  | true =>
    have hruns' := h.pipelines.running_of_runs hruns
    obtain ⟨hp, hh⟩ := pipeline_step hruns
    obtain ⟨hq, -⟩ := pipeline_step hruns'
    rw [← htick] at hp hh
    rw [← htick', hsame] at hq
    obtain ⟨htogether, hbubbles⟩ := h.pipelines.together hruns hlt hclock
    rw [← hp, ← hq] at htogether hbubbles
    exact ⟨⟨hsame, hperiod, hh ▸ htogether⟩, fun _ _ => hbubbles⟩
  | false =>
    obtain ⟨hp, hh⟩ := pipeline_step_of_stopped hruns
    refine ⟨⟨hsame, hperiod, ?_⟩, fun hno => Bool.noConfusion hno⟩
    cases hruns' : s'.pipeline.running with
    | true =>
      obtain ⟨hq, -⟩ := pipeline_step hruns'
      rw [← htick', hsame] at hq
      rw [hp, hh, hq]
      exact h.pipelines.rest hruns hruns' (Nat.le_of_lt hlt)
    | false =>
      rw [hp, hh, (pipeline_step_of_stopped hruns').1]
      exact h.pipelines.wait (Nat.le_of_lt hlt)

/-- A thread is woken in both sessions. -/
theorem wake (h : Tandem c m s s') (t : UInt32) : Tandem c m (s.wake t) (s'.wake t) :=
  ⟨h.tick, h.period, h.pipelines.wakeFetch t⟩

end Tandem

/-- Sessions that start side by side stay so when both are stepped and their threads are woken. -/
theorem Tandem.after {c : Config} {m : Image} {s s' : Session} (h : Tandem c m s s')
    (calls : List Call) (hcalls : ∀ call ∈ calls, call = .step ∨ ∃ t, call = .wake t)
    (hclock : (s.after calls).simulator.tick < UInt64.size) :
    Tandem c m (s.after calls) (s'.after calls) := by
  induction calls generalizing s s' with
  | nil => exact h
  | cons call calls ih =>
    have hrest : ∀ call ∈ calls, call = .step ∨ ∃ t, call = .wake t :=
      fun call hmem => hcalls call (List.mem_cons_of_mem _ hmem)
    rcases hcalls call List.mem_cons_self with rfl | ⟨t, rfl⟩
    · have hstep := (h.step (Nat.lt_of_le_of_lt (s.step.tick_le_after calls) hclock)).1
      exact ih hstep hrest hclock
    · exact ih (h.wake t) hrest hclock

end Session

/-! ## A nap -/

end InOrder
