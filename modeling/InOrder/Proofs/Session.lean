import InOrder.Proofs.Lane.Rest
import InOrder.Proofs.Pipeline.Faults
import InOrder.Proofs.Pipeline.Start
import Mathlib.Data.Nat.Find
import Mathlib.Logic.Function.Iterate

/-!
# Sessions

A session is a simulator with the history of what its host has called: what retired, which
predictions were lost, and how often each thread was woken. `Session.perform` does one call.

`Session.Reached` are the sessions to which calls lead from a new simulator. The numbers of streams
and predictions are words of 64 bits, and none is raised more than once in an evaluation. So none is
given out twice while the evaluations are fewer than `UInt64.size`, and what is said of the lanes is
said as long. The clock is never behind that count, and can be far ahead of it.

* `Session.Reached.sound`: what calls lead to is sound.
* `Session.Reached.numbered`, `Session.Reached.onRoute` and `Session.Reached.once`: what steps of a
  lane keep holds of every lane.
-/

namespace InOrder

/-- A simulator and what has happened to it. -/
structure Session where
  simulator : Simulator Stages
  history : History := {}

/-- What a host can call. -/
inductive Call where
  /-- Advance the clock once. -/
  | step
  /-- Step until the clock reaches a limit or the pipeline stops. -/
  | run (limit : Nat)
  /-- Let a thread fetch. -/
  | wake (thread : UInt32)
  /-- Let all threads fetch. -/
  | wakeAll
  /-- Ask the pipeline to empty itself. -/
  | drain
  /-- Leave a drain, and let all threads fetch. -/
  | resume
deriving DecidableEq

namespace Session

/-- The pipeline. -/
def pipeline (s : Session) : Pipeline Stages := s.simulator.pipeline

/-- What the session holds of a thread. -/
def lane (s : Session) (t : UInt32) : Lane := s.pipeline.lane s.history t

/-- The threads of the host. -/
def threadNumbers (s : Session) : List UInt32 := Pipeline.threadNumbers s.simulator.host.threads

/-- Advance the clock once. A pipeline that does not run loses nothing. -/
def step (s : Session) : Session :=
  { simulator := s.simulator.step.simulator
    history := { s.history with
      retired := s.history.retired ++ s.simulator.step.retired
      overtaken := s.history.overtaken ++
        if s.pipeline.running then s.pipeline.overtaken else [] } }

/-- Step until the clock reaches `limit` or the pipeline stops. -/
def run (s : Session) (limit : Nat) : Session :=
  (s.simulator.advance (fun s _ => s.step) limit s).2

/-- Let a thread fetch. -/
def wake (s : Session) (t : UInt32) : Session :=
  { simulator := (s.simulator.wake t).1
    history := { s.history with woken := s.history.woken ++ [t] } }

/-- Let all threads fetch. -/
def wakeAll (s : Session) : Session :=
  { simulator := s.simulator.wakeAll.1
    history := { s.history with woken := s.history.woken ++ s.threadNumbers } }

/-- Ask the pipeline to empty itself. -/
def drain (s : Session) : Session := { s with simulator := s.simulator.drain.1 }

/-- Leave a drain, and let all threads fetch. -/
def resume (s : Session) : Session :=
  { simulator := s.simulator.resume.1
    history := { s.history with woken := s.history.woken ++ s.threadNumbers } }

/-- Do a call. -/
def perform (s : Session) : Call → Session
  | .step => s.step
  | .run limit => s.run limit
  | .wake t => s.wake t
  | .wakeAll => s.wakeAll
  | .drain => s.drain
  | .resume => s.resume

/-- The session after some calls. -/
def after (s : Session) (calls : List Call) : Session := calls.foldl perform s

theorem after_append (s : Session) (calls more : List Call) :
    s.after (calls ++ more) = (s.after calls).after more := List.foldl_append

/-- The session of a new simulator, if the configuration keeps every bound. -/
def new (c : Config) (m : Image) : Except SetupError Session := do
  let (simulator, _) ← Simulator.new c (Stages.new Pipeline.owner c m)
  return { simulator }

/-- The sessions to which calls lead from a new simulator. -/
def Reached (c : Config) (m : Image) (s : Session) : Prop :=
  ∃ s₀ calls, new c m = .ok s₀ ∧ s = s₀.after calls

/-! ## Runs are steps -/

theorem tick_step (s : Session) :
    s.step.simulator.tick = s.simulator.tick + s.simulator.period :=
  s.simulator.tick_step

/-- The period of the clock stays as it is. -/
theorem period_step (s : Session) : s.step.simulator.period = s.simulator.period := by
  unfold step Simulator.step
  split <;> rfl

theorem advance_iterate (limit : Nat) (s : Session) :
    ∃ n, s.simulator.advance (fun s _ => s.step) limit s =
      ((step^[n] s).simulator, step^[n] s) := by
  rw [Simulator.advance]
  split
  · rename_i hgoes
    have htick := s.tick_step
    have hperiod := s.simulator.period_pos
    obtain ⟨n, hn⟩ := advance_iterate limit s.step
    exact ⟨n + 1, hn⟩
  · exact ⟨0, rfl⟩
termination_by limit - s.simulator.tick
decreasing_by omega

/-- A run is some number of steps. -/
theorem run_iterate (s : Session) (limit : Nat) : ∃ n, s.run limit = step^[n] s := by
  obtain ⟨n, hn⟩ := advance_iterate limit s
  exact ⟨n, congrArg Prod.snd hn⟩

section Runs

variable {s : Session}

/-- A run goes on while there is time and the session has not stopped. -/
theorem run_of_goes {limit : Nat} (h : s.simulator.tick < limit ∧ s.pipeline.running = true) :
    s.run limit = s.step.run limit := by
  have hgoes : s.simulator.tick < limit ∧ s.simulator.pipeline.running = true := h
  rw [run, Simulator.advance, if_pos hgoes]
  rfl

theorem run_of_ends {limit : Nat} (h : ¬ (s.simulator.tick < limit ∧ s.pipeline.running = true)) :
    s.run limit = s := by
  have hends : ¬ (s.simulator.tick < limit ∧ s.simulator.pipeline.running = true) := h
  rw [run, Simulator.advance, if_neg hends]

/-- A run takes as many steps as there is time for while the session does not stop. -/
theorem run_eq_iterate {n limit : Nat} : ∀ {s : Session},
    (∀ k < n, (step^[k] s).simulator.tick < limit ∧ (step^[k] s).pipeline.running = true) →
      ¬ ((step^[n] s).simulator.tick < limit ∧ (step^[n] s).pipeline.running = true) →
        s.run limit = step^[n] s := by
  induction n with
  | zero => exact fun _ hends => run_of_ends hends
  | succ n ih =>
    intro s hgoes hends
    refine (run_of_goes (hgoes 0 (Nat.succ_pos n))).trans ?_
    exact ih (fun k hk => hgoes (k + 1) (Nat.succ_lt_succ hk)) hends

theorem tick_iterate (s : Session) (k : Nat) :
    (step^[k] s).simulator.period = s.simulator.period ∧
      (step^[k] s).simulator.tick = s.simulator.tick + k * s.simulator.period := by
  induction k with
  | zero => exact ⟨rfl, by rw [Nat.zero_mul, Nat.add_zero]; rfl⟩
  | succ k ih =>
    rw [Function.iterate_succ_apply', tick_step, period_step, ih.1, ih.2, Nat.succ_mul, Nat.add_assoc]
    exact ⟨rfl, rfl⟩

/-- A run that is long enough ends where the session stops. -/
theorem run_of_stop {n : Nat} (hruns : ∀ k < n, (step^[k] s).pipeline.running = true)
    (hstop : (step^[n] s).pipeline.running = false) {limit : Nat}
    (hlimit : s.simulator.tick + n * s.simulator.period ≤ limit) : s.run limit = step^[n] s := by
  refine run_eq_iterate (fun k hk => ⟨?_, hruns k hk⟩) fun hgoes => ?_
  · have hlt := Nat.mul_lt_mul_of_pos_right hk s.simulator.period_pos
    rw [(s.tick_iterate k).2]
    omega
  · exact absurd (hstop.symm.trans hgoes.2) (by simp)

/-- What stops has a first step in which it does. -/
theorem exists_stop (hruns : s.pipeline.running = true)
    (hstops : ∃ n, (step^[n] s).pipeline.running = false) :
    ∃ n, (∀ k ≤ n, (step^[k] s).pipeline.running = true) ∧
      (step^[n + 1] s).pipeline.running = false := by
  classical
  obtain ⟨n, hn⟩ : ∃ n, Nat.find hstops = n := ⟨_, rfl⟩
  have hlast : (step^[n] s).pipeline.running = false := hn ▸ Nat.find_spec hstops
  cases n with
  | zero => exact absurd (hruns.symm.trans hlast) (by simp)
  | succ n =>
    refine ⟨n, fun k hk => ?_, hlast⟩
    exact Bool.eq_true_of_not_eq_false (Nat.find_min hstops (by omega))

end Runs

theorem fst_advance {α β : Type} (see : α → Simulator.Step Stages → α)
    (see' : β → Simulator.Step Stages → β) (limit : Nat) (s : Simulator Stages) (a : α) (b : β) :
    (s.advance see limit a).1 = (s.advance see' limit b).1 := by
  rw [Simulator.advance.eq_def see, Simulator.advance.eq_def see']
  split
  · have htick := s.tick_step
    have hperiod := s.period_pos
    exact fst_advance see see' limit s.step.simulator (see a s.step) (see' b s.step)
  · rfl
termination_by limit - s.tick
decreasing_by omega

/-- The simulator of a session runs as it does by itself. -/
theorem simulator_run (s : Session) (limit : Nat) :
    (s.run limit).simulator = s.simulator.run limit := by
  obtain ⟨n, hn⟩ := advance_iterate limit s
  rw [run, hn, Simulator.run, fst_advance _ (fun s _ => s.step) limit s.simulator () s, hn]

/-- What the other calls keep, a run keeps as well. -/
theorem after_induction {P : Session → Prop} (hstep : ∀ s, P s → P s.step)
    (hwake : ∀ s t, P s → P (s.wake t)) (hwakeAll : ∀ s, P s → P s.wakeAll)
    (hresume : ∀ s, P s → P s.resume) (calls : List Call)
    (hdrain : Call.drain ∈ calls → ∀ s, P s → P s.drain) :
    ∀ {s : Session}, P s → P (s.after calls) := by
  have hsteps : ∀ n {s : Session}, P s → P (step^[n] s) := by
    intro n
    induction n with
    | zero => exact fun h => h
    | succ n ih => exact fun h => ih (hstep _ h)
  induction calls with
  | nil => exact fun {s} h => h
  | cons call calls ih =>
    intro s h
    refine ih (fun hmem => hdrain (List.mem_cons_of_mem call hmem)) ?_
    cases call with
    | step => exact hstep s h
    | run limit =>
      obtain ⟨n, hn⟩ := s.run_iterate limit
      exact show P (s.run limit) from hn ▸ hsteps n h
    | wake t => exact hwake s t h
    | wakeAll => exact hwakeAll s h
    | drain => exact hdrain List.mem_cons_self s h
    | resume => exact hresume s h

/-- The clock is not set back by any call. -/
theorem tick_le_after (s : Session) (calls : List Call) :
    s.simulator.tick ≤ (s.after calls).simulator.tick := by
  refine after_induction (P := fun s' => s.simulator.tick ≤ s'.simulator.tick) (fun s' h => ?_)
    (fun _ _ h => h) (fun _ h => h) (fun _ h => h) calls (fun _ _ h => h) (Nat.le_refl _)
  have htick := s'.tick_step
  omega

/-! ## What every call keeps -/

end Session

namespace Pipeline

/-- The numbers that only a cycle changes. -/
def counts (p : Pipeline Stages) : Nat × Nat × UInt64 := (p.stats.cycles, p.retired, p.signature)

theorem counts_wakeAll (ts : List UInt32) :
    ∀ p : Pipeline Stages, (p.wakeAll ts).1.counts = p.counts := fun p =>
  wakeAll_induction (P := fun q => q.counts = p.counts) (fun _ _ h => h) ts rfl

theorem counts_drain (p : Pipeline Stages) : p.drain.1.counts = p.counts := by
  unfold drain
  simp only
  split <;> rfl

end Pipeline

namespace Session

/-- What holds of a session without faults. -/
structure Sound (c : Config) (m : Image) (s : Session) : Prop where
  pipeline : s.pipeline.Sound c m
  threads : s.simulator.host.threads = c.host.threads.toNat
  cycles : s.pipeline.stats.cycles ≤ s.simulator.tick
  count : s.pipeline.retired = s.history.retired.length
  signature : s.pipeline.signature = Signature.ofList s.history.retired
  thread : ∀ r ∈ s.history.retired, r.thread.toNat < c.host.threads.toNat

variable {c : Config} {m : Image} {s : Session} {t : UInt32}

/-- A step of a session that runs is a cycle of its pipeline. -/
theorem pipeline_step (h : s.pipeline.running = true) :
    s.step.pipeline = (s.pipeline.evaluate (s.simulator.tick + s.simulator.period)).pipeline ∧
      s.step.history = { s.history with
        retired := s.history.retired ++
          (s.pipeline.evaluate (s.simulator.tick + s.simulator.period)).retired
        overtaken := s.history.overtaken ++ s.pipeline.overtaken } := by
  have hruns : s.simulator.pipeline.running = true := h
  unfold step pipeline Simulator.step
  rw [if_pos hruns, if_pos hruns]
  exact ⟨rfl, rfl⟩

/-- A step of a session that does not run only advances the clock. -/
theorem pipeline_step_of_stopped (h : s.pipeline.running = false) :
    s.step.pipeline = s.pipeline ∧ s.step.history = s.history := by
  have hstopped : ¬ s.simulator.pipeline.running = true := by
    rw [show s.simulator.pipeline.running = false from h]
    exact Bool.false_ne_true
  unfold step pipeline Simulator.step
  rw [if_neg hstopped]
  refine ⟨rfl, ?_⟩
  rw [List.append_nil, if_neg hstopped, List.append_nil]

/-- A step of a session that runs tells the host if a drain is complete. -/
theorem signals_step (h : s.pipeline.running = true) :
    s.step.simulator.host.signals =
      if (s.pipeline.evaluate (s.simulator.tick + s.simulator.period)).drainDone = true then
        s.simulator.host.signals + 1
      else s.simulator.host.signals := by
  have hruns : s.simulator.pipeline.running = true := h
  unfold step Simulator.step
  rw [if_pos hruns]
  rfl

/-- A session that runs is evaluated once in a step. -/
theorem cycles_step (h : s.pipeline.running = true) :
    s.step.pipeline.stats.cycles = s.pipeline.stats.cycles + 1 := by
  rw [(pipeline_step h).1]
  exact (s.pipeline.evaluate_struck _).2.2.1

/-- No evaluation is forgotten. -/
theorem cycles_le_step (s : Session) :
    s.pipeline.stats.cycles ≤ s.step.pipeline.stats.cycles := by
  cases hrun : s.pipeline.running with
  | false => exact Nat.le_of_eq (by rw [(pipeline_step_of_stopped hrun).1])
  | true => exact Nat.le_of_lt (Nat.lt_of_lt_of_eq (Nat.lt_succ_self _) (cycles_step hrun).symm)

theorem cycles_le_after (s : Session) (calls : List Call) :
    s.pipeline.stats.cycles ≤ (s.after calls).pipeline.stats.cycles := by
  have hwoken : ∀ (p : Pipeline Stages) ts, (p.wakeAll ts).1.stats.cycles = p.stats.cycles :=
    fun p ts => congrArg Prod.fst (p.counts_wakeAll ts)
  refine after_induction (P := fun s' => s.pipeline.stats.cycles ≤ s'.pipeline.stats.cycles)
    (fun s' h => Nat.le_trans h s'.cycles_le_step) (fun _ _ h => h)
    (fun _ h => Nat.le_trans h (Nat.le_of_eq (hwoken _ _).symm))
    (fun _ h => Nat.le_trans h (Nat.le_of_eq (hwoken _ _).symm)) calls
    (fun _ s' h => Nat.le_trans h (Nat.le_of_eq ?_)) (Nat.le_refl _)
  exact (congrArg Prod.fst (Pipeline.counts_drain s'.pipeline)).symm

/-- What a cycle keeps of the pipeline, a step keeps. -/
theorem step_induction {P : Pipeline Stages → Prop}
    (hevaluate : ∀ now, P s.pipeline → P (s.pipeline.evaluate now).pipeline)
    (h : P s.pipeline) : P s.step.pipeline := by
  cases hrun : s.pipeline.running with
  | false => exact (pipeline_step_of_stopped hrun).1 ▸ h
  | true => exact (pipeline_step hrun).1 ▸ hevaluate _ h

namespace Sound

theorem step (h : s.Sound c m) : s.step.Sound c m := by
  have htick := s.tick_step
  have hperiod := s.simulator.period_pos
  have hthreads : s.step.simulator.host.threads = s.simulator.host.threads := by
    unfold Session.step Simulator.step
    split <;> rfl
  cases hrun : s.pipeline.running with
  | false =>
    obtain ⟨hp, hh⟩ := pipeline_step_of_stopped hrun
    have hcycles := h.cycles
    exact ⟨hp ▸ h.pipeline, hthreads.trans h.threads, by rw [hp, htick]; omega,
      by rw [hp, hh]; exact h.count, by rw [hp, hh]; exact h.signature, by rw [hh]; exact h.thread⟩
  | true =>
    obtain ⟨hp, hh⟩ := pipeline_step hrun
    obtain ⟨hholds, hretired⟩ := Pipeline.evaluate_holds h.pipeline.waiting h.pipeline.unitMode
      (s.simulator.tick + s.simulator.period)
    obtain ⟨-, hcount, hsignature⟩ := Execute.evaluate_retired
      (s.pipeline.polled (s.simulator.tick + s.simulator.period)).execute
      (s.pipeline.stats.cycles + 1) s.pipeline.registers.outputs.dToE
    have hcycles := h.cycles
    refine ⟨hp ▸ h.pipeline.evaluate _, hthreads.trans h.threads, ?_, ?_, ?_, ?_⟩
    · rw [hp, hholds.cycles, htick]
      omega
    · rw [hp, hh, Pipeline.retired, hholds.stages, hretired, List.length_append]
      exact hcount.trans (congrArg (· + _) h.count)
    · rw [hp, hh, Pipeline.signature, hholds.stages, hretired, Signature.ofList, List.foldl_append]
      exact hsignature.trans (congrArg (List.foldl _ · _) h.signature)
    · intro r hr
      rw [hh] at hr
      rcases List.mem_append.mp hr with hr | hr
      · exact h.thread r hr
      · rw [hretired] at hr
        exact (h.pipeline.polled _).execute.retired_thread
          (b := s.pipeline.registers.outputs.dToE) hr

/-- A call that does not advance the clock and retires nothing. -/
theorem call {p : Pipeline Stages} {simulator : Simulator Stages} {woken : List UInt32}
    (h : s.Sound c m) (hsimulator : simulator = { s.simulator with
      host := { s.simulator.host with pipeline := p } })
    (hp : p.Sound c m) (hcounts : p.counts = s.pipeline.counts) :
    Sound c m { simulator, history := { s.history with woken } } := by
  subst hsimulator
  obtain ⟨hcycles, hcounts⟩ := Prod.mk.inj hcounts
  obtain ⟨hretired, hsignature⟩ := Prod.mk.inj hcounts
  exact ⟨hp, h.threads, hcycles ▸ h.cycles, hretired.trans h.count, hsignature.trans h.signature,
    h.thread⟩

theorem wake (h : s.Sound c m) (t : UInt32) : (s.wake t).Sound c m :=
  h.call rfl (h.pipeline.wakeFetch t) rfl

theorem wakeAll (h : s.Sound c m) : s.wakeAll.Sound c m :=
  h.call rfl (.wakeAll _ h.pipeline) (Pipeline.counts_wakeAll _ _)

theorem resume (h : s.Sound c m) : s.resume.Sound c m :=
  h.call rfl (h.pipeline.resume _) (Pipeline.counts_wakeAll _ _)

theorem drain (h : s.Sound c m) : s.drain.Sound c m :=
  h.call rfl h.pipeline.drain (Pipeline.counts_drain _)

/-- A session starts sound. -/
theorem start {simulator : Simulator Stages} (h : simulator.Starts c m) :
    Sound c m { simulator } where
  pipeline := h.pipeline
  threads := h.threads
  cycles := Nat.le_of_eq (h.cycles.trans h.tick.symm)
  count := h.retired
  signature := h.signature
  thread r hr := absurd hr (by simp)

end Sound

/-- **A session without faults is sound after any calls.** -/
theorem Sound.after (h : s.Sound c m) (calls : List Call) : (s.after calls).Sound c m :=
  after_induction (P := Sound c m) (fun _ hs => hs.step) (fun _ t hs => hs.wake t)
    (fun _ hs => hs.wakeAll) (fun _ hs => hs.resume) calls (fun _ _ hs => hs.drain) h

/-! ## Lanes -/

/-- In a step each lane goes through steps. -/
theorem lane_step {fresh : UInt64 → Prop} (h : s.Sound c m) (ht : t.toNat < c.host.threads.toNat)
    (hfresh : ∀ x, ordinal x + 1 ≤ s.step.pipeline.stats.cycles → fresh (x + 1)) :
    Lane.Steps (c.track m fresh t) (s.lane t) (s.step.lane t) := by
  cases hrun : s.pipeline.running with
  | false =>
    obtain ⟨hp, hh⟩ := pipeline_step_of_stopped hrun
    rw [lane, lane, hp, hh]
  | true =>
    obtain ⟨hp, hh⟩ := pipeline_step hrun
    rw [cycles_step hrun] at hfresh
    rw [lane, lane, hp, hh]
    exact Pipeline.lane_evaluate h.pipeline ht (fun x hx => hfresh x (Nat.succ_le_succ hx)) _ _

theorem lane_wake {k : Track} (h : s.Sound c m) (ht : t.toNat < c.host.threads.toNat)
    (t' : UInt32) : Lane.Steps k (s.lane t) ((s.wake t').lane t) :=
  Pipeline.lane_wakeFetch h.pipeline ht t' s.history

theorem lane_wakeAll {k : Track} (h : s.Sound c m) (ht : t.toNat < c.host.threads.toNat) :
    Lane.Steps k (s.lane t) (s.wakeAll.lane t) :=
  Pipeline.lane_wakeAll ht s.threadNumbers s.history h.pipeline

/-- A drain asks every thread for a halt. -/
theorem lane_drain (h : s.Sound c m) (ht : t.toNat < c.host.threads.toNat) :
    s.drain.lane t = (s.lane t).pend true :=
  Pipeline.lane_drain h.pipeline ht s.history

/-- A resumption wakes every thread, and asks for no halts. -/
theorem lane_resume {k : Track} (h : s.Sound c m) (ht : t.toNat < c.host.threads.toNat) :
    ∃ v, Lane.Steps k (s.lane t) v ∧ s.resume.lane t = v.pend false :=
  Pipeline.lane_resume h.pipeline ht s.simulator.host.threads s.history

/-- **What steps keep, and halts that are asked for, holds of the lanes of a session after any
calls**, where the numbers that can have been given out by then are fresh. -/
theorem after_lane {P : Lane → Prop} (fresh : UInt64 → Prop) (hs : s.Sound c m)
    (ht : t.toNat < c.host.threads.toNat) (calls : List Call)
    (hfresh : ∀ x, ordinal x + 1 ≤ (s.after calls).pipeline.stats.cycles → fresh (x + 1))
    (hsteps : ∀ v w, P v → Lane.Steps (c.track m fresh t) v w → P w)
    (hresume : ∀ v, P v → P (v.pend false))
    (hdrain : Call.drain ∈ calls → ∀ v, P v → P (v.pend true)) (h : P (s.lane t)) :
    P ((s.after calls).lane t) := by
  -- evaluations are only added, so what is fresh at the end of the calls was fresh before
  have hkept : ∀ {last : Nat}, (∀ x, ordinal x + 1 ≤ last → fresh (x + 1)) →
      (s.after calls).Sound c m ∧
        ((s.after calls).pipeline.stats.cycles ≤ last → P ((s.after calls).lane t)) := by
    intro last hfresh
    refine after_induction
      (P := fun s => s.Sound c m ∧ (s.pipeline.stats.cycles ≤ last → P (s.lane t)))
      (fun s h => ⟨h.1.step, fun hlast => ?_⟩) (fun s t' h => ⟨h.1.wake t', fun hlast => ?_⟩)
      (fun s h => ⟨h.1.wakeAll, fun hlast => ?_⟩) (fun s h => ⟨h.1.resume, fun hlast => ?_⟩) calls
      (fun hmem s h => ⟨h.1.drain, fun hlast => ?_⟩) ⟨hs, fun _ => h⟩
    · exact hsteps _ _ (h.2 (Nat.le_trans s.cycles_le_step hlast))
        (lane_step h.1 ht fun x hx => hfresh x (Nat.le_trans hx hlast))
    · exact hsteps _ _ (h.2 hlast) (lane_wake h.1 ht t')
    · have hbefore := h.2 (Nat.le_trans (s.cycles_le_after [.wakeAll]) hlast)
      exact hsteps _ _ hbefore (lane_wakeAll h.1 ht)
    · obtain ⟨v, hv, hlane⟩ := lane_resume h.1 ht
      have hbefore := h.2 (Nat.le_trans (s.cycles_le_after [.resume]) hlast)
      rw [hlane]
      exact hresume v (hsteps _ _ hbefore hv)
    · have hbefore := h.2 (Nat.le_trans (s.cycles_le_after [.drain]) hlast)
      rw [lane_drain h.1 ht]
      exact hdrain hmem _ hbefore
  exact (hkept hfresh).2 (Nat.le_refl _)

/-! ## From the start of a run -/

/-- A configuration without faults that keeps every bound makes a session. -/
theorem exists_new (hc : c.FaultFree) (h : c.check = .ok ()) (m : Image) : ∃ s, new c m = .ok s :=
  exists_bind_eq_ok (Simulator.exists_new hc h _) fun _ => ⟨_, rfl⟩

/-- A new session has a new simulator, and nothing has happened to it. -/
theorem simulator_of_new (h : new c m = .ok s) :
    (∃ events, Simulator.new c (Stages.new Pipeline.owner c m) = .ok (s.simulator, events)) ∧
      s.history = {} := by
  obtain ⟨⟨simulator, events⟩, hnew, h⟩ := of_bind_eq_ok h
  obtain rfl := Except.ok.inj h
  exact ⟨⟨events, hnew⟩, rfl⟩

/-- **What a new pipeline has, and every evaluation and every call keeps, every session has.** -/
theorem Reached.pipeline_induction {P : Pipeline Stages → Prop} (h : Reached c m s)
    (hnew : ∀ {p events}, Pipeline.new c (.new Pipeline.owner c m) = .ok (p, events) → P p)
    (hevaluate : ∀ p now, P p → P (p.evaluate now).pipeline)
    (hwake : ∀ p t, P p → P (p.wakeFetch t).1) (hdrain : ∀ p, P p → P p.drain.1)
    (hresume : ∀ p n, P p → P (p.resume n).1) : P s.pipeline := by
  obtain ⟨s₀, calls, hs, rfl⟩ := h
  obtain ⟨⟨events, hsimulator⟩, -⟩ := simulator_of_new hs
  obtain ⟨⟨told, hpipeline⟩, -⟩ := Simulator.of_new_eq_ok hsimulator
  exact after_induction (P := fun s => P s.pipeline)
    (fun _ h => step_induction (fun now h => hevaluate _ now h) h) (fun _ t h => hwake _ t h)
    (fun _ h => Pipeline.wakeAll_induction hwake _ h) (fun _ h => hresume _ _ h) calls
    (fun _ _ h => hdrain _ h) (hnew hpipeline)

/-- The simulator of a new session without faults starts sound. -/
theorem starts_of_new (hc : c.FaultFree) (h : new c m = .ok s) :
    s.simulator.Starts c m ∧ s.history = {} := by
  obtain ⟨⟨events, hnew⟩, hhistory⟩ := simulator_of_new h
  exact ⟨Simulator.starts hc hnew, hhistory⟩

/-- A new session without faults is sound, and nothing is on any lane. -/
theorem of_new_eq_ok (hc : c.FaultFree) (h : new c m = .ok s) :
    s.Sound c m ∧ (t.toNat < c.host.threads.toNat → s.lane t = .start m.entry) ∧
      ∀ fresh, (c.track m fresh t).Whole := by
  obtain ⟨hstarts, hhistory⟩ := starts_of_new hc h
  obtain ⟨simulator, history⟩ := s
  obtain rfl : history = {} := hhistory
  exact ⟨.start hstarts, hstarts.lane t, fun fresh => hstarts.whole fresh t⟩

/-- **What calls lead to is sound.** -/
theorem Reached.sound (hc : c.FaultFree) (h : Reached c m s) : s.Sound c m := by
  obtain ⟨s₀, calls, hnew, rfl⟩ := h
  exact (of_new_eq_ok (t := 0) hc hnew).1.after calls

theorem Sound.fitted_step (h : s.Sound c m) (hf : s.pipeline.Fitted c) :
    s.step.pipeline.Fitted c :=
  step_induction (fun _ hf => hf.evaluate h.pipeline.waiting h.pipeline.unitMode _) hf

/-- **No call changes the sizes of a pipeline.** -/
theorem Sound.fitted_after (h : s.Sound c m) (hf : s.pipeline.Fitted c) (calls : List Call) :
    (s.after calls).pipeline.Fitted c := by
  have hkept : (s.after calls).Sound c m ∧ (s.after calls).pipeline.Fitted c := by
    refine after_induction (P := fun s => s.Sound c m ∧ s.pipeline.Fitted c)
      (fun s h => ⟨h.1.step, h.1.fitted_step h.2⟩) (fun s t h => ⟨h.1.wake t, h.2.wakeFetch t⟩)
      (fun s h => ⟨h.1.wakeAll, .wakeAll _ h.2⟩) (fun s h => ⟨h.1.resume, h.2.resume _⟩) calls
      (fun _ s h => ⟨h.1.drain, h.2.drain⟩) ⟨h, hf⟩
  exact hkept.2

theorem Reached.fitted (hc : c.FaultFree) (h : Reached c m s) :
    s.pipeline.Fitted c ∧ c.Admitted := by
  obtain ⟨s₀, calls, hnew, rfl⟩ := h
  have hstarts := (starts_of_new hc hnew).1
  exact ⟨(of_new_eq_ok (t := 0) hc hnew).1.fitted_after hstarts.fitted calls, hstarts.admitted⟩

theorem Reached.whole (hc : c.FaultFree) (h : Reached c m s) (fresh : UInt64 → Prop)
    (t : UInt32) : (c.track m fresh t).Whole := by
  obtain ⟨s₀, calls, hnew, -⟩ := h
  exact (of_new_eq_ok hc hnew).2.2 fresh

/-- What holds of an empty lane, and what steps and halts that are asked for keep, holds of every
lane while the count of evaluations fits in a word. -/
theorem Reached.lane {P : Lane → Prop} (hc : c.FaultFree) (h : Reached c m s)
    (hcycles : s.pipeline.stats.cycles < UInt64.size) (ht : t.toNat < c.host.threads.toNat)
    (hsteps : ∀ v w, P v → Lane.Steps (c.track m (· ≠ firstSeq) t) v w → P w)
    (hpend : ∀ v b, P v → P (v.pend b)) (hstart : P (.start m.entry)) : P (s.lane t) := by
  obtain ⟨s₀, calls, hnew, rfl⟩ := h
  obtain ⟨hsound, hlane, -⟩ := of_new_eq_ok hc hnew
  -- a number takes an evaluation, so the numbers do not come round before the count does
  have hfresh : ∀ x, ordinal x + 1 ≤ (s₀.after calls).pipeline.stats.cycles → x + 1 ≠ firstSeq :=
    fun x hx => add_one_ne_firstSeq (Nat.le_refl _) (Nat.lt_of_le_of_lt hx hcycles)
  exact after_lane (· ≠ firstSeq) hsound ht calls hfresh hsteps (fun v hv => hpend v false hv)
    (fun _ v hv => hpend v true hv) (hlane ht ▸ hstart)

/-- **No number is given out twice.** -/
theorem Reached.numbered (hc : c.FaultFree) (h : Reached c m s)
    (hcycles : s.pipeline.stats.cycles < UInt64.size) (ht : t.toNat < c.host.threads.toNat) :
    (s.lane t).Numbered :=
  h.lane hc hcycles ht (fun _ _ hv hw => hv.steps (fun _ hx => hx) hw) (fun _ b hv => hv.pend b)
    (.start m.entry)

/-- **Every thread keeps to its course.** -/
theorem Reached.onRoute (hc : c.FaultFree) (hm : m.WordAligned) (h : Reached c m s)
    (hcycles : s.pipeline.stats.cycles < UInt64.size) (ht : t.toNat < c.host.threads.toNat) :
    (s.lane t).OnRoute (c.track m (· ≠ firstSeq) t) := by
  have hwhole := h.whole hc (· ≠ firstSeq) t
  have hkept := h.lane (P := fun v => v.Numbered ∧ v.OnRoute (c.track m (· ≠ firstSeq) t)) hc
    hcycles ht
    (fun _ _ ⟨hn, hv⟩ hw =>
      ⟨hn.steps (fun _ hx => hx) hw, hv.steps (fun _ hx => hx) hwhole hm hn hw⟩)
    (fun _ b ⟨hn, hv⟩ => ⟨hn.pend b, hv.pend b⟩) ⟨.start m.entry, .start _⟩
  exact hkept.2

/-- **A thread that is woken once stops at the word that suspends it.** -/
theorem Reached.once (hc : c.FaultFree) (h : Reached c m s)
    (hcycles : s.pipeline.stats.cycles < UInt64.size) (ht : t.toNat < c.host.threads.toNat) :
    (s.lane t).Once := by
  have hkept := h.lane (P := fun v => v.Numbered ∧ v.Once) hc hcycles ht
    (fun _ _ ⟨hn, hv⟩ hw => ⟨hn.steps (fun _ hx => hx) hw, hv.steps (fun _ hx => hx) hn hw⟩)
    (fun _ b ⟨hn, hv⟩ => ⟨hn.pend b, hv.pend b⟩) ⟨.start m.entry, .start m.entry⟩
  exact hkept.2

end Session

end InOrder
