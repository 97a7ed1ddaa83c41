import InOrder.Proofs.Drain
import InOrder.Proofs.Machine.Progress

/-!
# A thread runs to completion

With one thread, and a pipeline that stops when nothing is active, a run ends by itself when the
thread has come to the word that suspends it. It does not end before, since a cycle in which no
stage works comes after all that was issued has retired (`Machine.Solo.ends`); and it does end,
since the machine does not work forever (`Machine.Solo.eventually_idle`), and what the pipeline
remembers of busy cycles is forgotten.

* `Session.run_completes`: so a run that is long enough retires the course of the thread up to the
  word that suspends it, whatever the delays, widths, sizes and latencies are.
* `Session.unwrapped_of_room`: the numbers of predictions do not come round meanwhile, unless the
  queues of bundles together have more than 2^63 places.
-/

namespace InOrder

/-- In a list that is shifted by one value again and again, only that value is left at last. -/
theorem eq_of_mem_shifted {α : Type} (past : Nat → List α) {a : α}
    (hshift : ∀ k, past (k + 1) = (past k ++ [a]).tail) {b : α}
    (hb : b ∈ past (past 0).length) : b = a := by
  have hdrop : ∀ k, past k = (past 0 ++ List.replicate k a).drop k := by
    intro k
    induction k with
    | zero => simp
    | succ k ih =>
      have hle : k ≤ (past 0 ++ List.replicate k a).length := by simp
      rw [hshift, ih, ← List.drop_append_of_le_length hle, List.tail_drop, List.append_assoc,
        List.replicate_succ']
  rw [hdrop, List.drop_left] at hb
  exact List.eq_of_mem_replicate hb

namespace Session

variable {c : Config} {m : Image} {e d : Nat} {s : Session}

/-- No number of a prediction comes round to zero, however long the session is. -/
def Unwrapped (s : Session) : Prop := ∀ n, (step^[n] s).machine.Unwrapped

/-! ## One thread -/

/-- The one thread of a session that may idle is on its course up to instruction `e`. Before, `d`
halts were asked for. -/
structure Alone (c : Config) (m : Image) (e d : Nat) (s : Session) : Prop where
  sound : s.Sound c m
  fitted : s.pipeline.Fitted c
  admitted : c.Admitted
  idling : c.pipeline.idling = true
  waits : s.pipeline.signalDue = false
  solo : s.machine.Solo c m e d

namespace Alone

/-- A step of a session that runs notes whether a stage worked. The session stops if none did for as
long as that is remembered. -/
theorem evaluate (h : s.Alone c m e d) (hruns : s.pipeline.running = true) :
    s.step.pipeline.signalDue = false ∧ s.step.pipeline.activity.marks = [] ∧
      s.step.pipeline.activity.past = (s.pipeline.activity.past ++ [s.machine.busy]).tail ∧
      (s.step.pipeline.running = false ↔ s.pipeline.activity.marks = [] ∧
        ∀ busy ∈ (s.pipeline.activity.past ++ [s.machine.busy]).tail, busy = false) := by
  obtain ⟨hdue, -, hmarks, hpast, hrunning⟩ := Pipeline.evaluate_of_idling h.sound.pipeline.waiting
    h.sound.pipeline.unitMode h.waits (h.fitted.idling.trans h.idling) h.fitted.activity
    (s.simulator.tick + s.simulator.period)
  rw [hruns, Bool.true_eq_false, false_or] at hrunning
  rw [(pipeline_step hruns).1]
  exact ⟨hdue, hmarks, hpast, hrunning⟩

theorem step (h : s.Alone c m e d) (hx : s.step.machine.Unwrapped) : s.step.Alone c m e d := by
  have hsound := h.sound.step
  have hfitted := h.sound.fitted_step h.fitted
  cases hruns : s.pipeline.running with
  | false =>
    have hsame := machine_iterate_of_stopped hruns 1
    refine ⟨hsound, hfitted, h.admitted, h.idling, ?_, ?_⟩
    · rw [(pipeline_step_of_stopped hruns).1]
      exact h.waits
    · rw [show s.step.machine = s.machine from hsame]
      exact h.solo
  | true =>
    have hmachine := machine_step h.sound hruns
    rw [hmachine] at hx
    refine ⟨hsound, hfitted, h.admitted, h.idling, (h.evaluate hruns).1, ?_⟩
    rw [hmachine]
    exact h.solo.next hx

theorem iterate (h : s.Alone c m e d) (hx : s.Unwrapped) (n : Nat) :
    (Session.step^[n] s).Alone c m e d := by
  induction n with
  | zero => exact h
  | succ n ih =>
    have hnext := hx (n + 1)
    rw [Function.iterate_succ_apply'] at hnext ⊢
    exact ih.step hnext

/-- The numbers of predictions do not come round where there is room for few bundles. -/
theorem unwrapped (h : s.Alone c m e d)
    (hroom : e + 1 + c.pipeline.room + c.pipeline.delays.eToF1.toNat ≤ UInt64.size - 2) :
    s.Unwrapped := by
  have hgoes : ∀ n, (Session.step^[n] s).Alone c m e d := by
    intro n
    induction n with
    | zero => exact h
    | succ n ih =>
      rw [Function.iterate_succ_apply']
      refine ih.step ?_
      cases hruns : (Session.step^[n] s).pipeline.running with
      | false =>
        rw [show (Session.step^[n] s).step.machine = _ from machine_iterate_of_stopped hruns 1]
        exact ih.solo.unwrapped
      | true =>
        rw [machine_step ih.sound hruns]
        rw [← ih.fitted.room, ← ih.fitted.row] at hroom
        exact ih.solo.unwrapped_next hroom
  exact fun n => (hgoes n).solo.unwrapped

/-! ### It stops -/

/-- **A session with one thread stops.** If it went on forever, its machine would not work from some
cycle on, and that would be noted. -/
theorem stops (h : s.Alone c m e d) (hx : s.Unwrapped) :
    ∃ n, (Session.step^[n] s).pipeline.running = false := by
  by_cases hstops : ∃ n, (Session.step^[n] s).pipeline.running = false
  · exact hstops
  have hruns : ∀ n, (Session.step^[n] s).pipeline.running = true := fun n =>
    Bool.eq_true_of_not_eq_false fun hstop => hstops ⟨n, hstop⟩
  have hmachine : ∀ n, (Session.step^[n] s).machine = s.machine.after n := fun n =>
    machine_iterate h.sound fun k _ => hruns k
  have hnext : ∀ n, Session.step^[n + 1] s = (Session.step^[n] s).step := fun n =>
    Function.iterate_succ_apply' Session.step n s
  obtain ⟨a, hidle⟩ := Machine.Solo.eventually_idle fun k => hmachine k ▸ (h.iterate hx k).solo
  have hnoted : ∀ k ≥ a, (Session.step^[k + 1] s).pipeline.activity.past =
      ((Session.step^[k] s).pipeline.activity.past ++ [false]).tail := by
    intro k hk
    obtain ⟨-, -, hpast, -⟩ := (h.iterate hx k).evaluate (hruns k)
    rw [hnext, hpast, hmachine, hidle k hk]
  -- after as many cycles as are remembered, all that is remembered is that no stage worked
  obtain ⟨b, hb⟩ : ∃ b, b = a + 1 + (Session.step^[a + 1] s).pipeline.activity.past.length :=
    ⟨_, rfl⟩
  have hpast : ∀ busy ∈ (Session.step^[b] s).pipeline.activity.past, busy = false := by
    intro busy hbusy
    rw [hb] at hbusy
    exact eq_of_mem_shifted (fun k => (Session.step^[a + 1 + k] s).pipeline.activity.past)
      (fun k => hnoted (a + 1 + k) (by omega)) hbusy
  obtain ⟨k, rfl⟩ : ∃ k, b = k + 1 := ⟨b - 1, by omega⟩
  have hmarks : (Session.step^[k + 1] s).pipeline.activity.marks = [] := by
    rw [hnext]
    exact ((h.iterate hx k).evaluate (hruns k)).2.1
  refine ⟨k + 2, ?_⟩
  rw [hnext, ((h.iterate hx (k + 1)).evaluate (hruns (k + 1))).2.2.2]
  refine ⟨hmarks, fun busy hbusy => ?_⟩
  rcases List.mem_append.mp (List.mem_of_mem_tail hbusy) with hbusy | hbusy
  · exact hpast busy hbusy
  · rw [List.mem_singleton.mp hbusy, hmachine]
    exact hidle (k + 1) (by omega)

/-! ### Where it stops -/

/-- No stage has worked in the cycle in which a session stops. -/
theorem idle_of_stop (h : s.Alone c m e d) (hruns : s.pipeline.running = true)
    (hstop : s.step.pipeline.running = false) : s.machine.busy = false := by
  refine ((h.evaluate hruns).2.2.2.mp hstop).2 _ ?_
  have hlength := h.fitted.activity.length
  have hdelay : 0 < c.pipeline.delays.eToF1.toNat := h.admitted.delays .eToF1
  have hlong : c.pipeline.delays.eToF1.toNat ≤ c.pipeline.longestForwardDelay :=
    Nat.le_max_right _ _
  have hne : s.pipeline.activity.past ≠ [] := by
    intro hnil
    rw [hnil, List.length_nil] at hlength
    omega
  rw [List.tail_append_of_ne_nil hne]
  exact List.mem_append_right _ (List.mem_singleton_self _)

end Alone

/-- The thread has retired its course up to instruction `e`, and is suspended after it. -/
structure Completed (m : Image) (e : Nat) (s : Session) : Prop where
  stopped : s.pipeline.running = false
  retired : s.pipeline.retired = e + 1
  signature : s.pipeline.signature =
    Signature.ofList ((m.course (e + 1)).map fun x => ⟨0, x.1, x.2⟩)
  suspended : (s.pipeline.stages.lineFetch.thread? 0).map (fun th => (th.state, th.pc)) =
    some (.suspended, Isa.nextWord (m.pcAt e))

/-- **Where a session with one thread stops, its course is complete.** -/
theorem Alone.completed (h : s.Alone c m e d) (hnext : s.step.Alone c m e d)
    (hruns : s.pipeline.running = true) (hstop : s.step.pipeline.running = false) :
    s.step.Completed m e := by
  have hmachine := machine_step h.sound hruns
  obtain ⟨hunits, hend, hstate, hpc⟩ := (hmachine ▸ hnext.solo).ends (h.idle_of_stop hruns hstop)
  rw [← hmachine] at hunits hend hstate hpc
  have hran : s.step.machine.ran = s.step.history.retired := by
    rw [Machine.ran, hunits, List.map_nil, List.append_nil]
    rfl
  have hone : ∀ r ∈ s.step.history.retired, r.thread = 0 := fun r hr =>
    hnext.solo.eq_zero (hnext.sound.thread r hr)
  have hcourse : m.course (e + 1) = s.step.history.retired.map fun r => (r.pc, r.inst) := by
    rw [← trail_eq_map hone, ← hran, ← Machine.issued_lane, ← hend]
    exact hnext.solo.course.route.issued.symm
  have hretired : s.step.history.retired = (m.course (e + 1)).map fun x => ⟨0, x.1, x.2⟩ := by
    rw [hcourse, List.map_map]
    refine (List.map_id _).symm.trans (List.map_congr_left fun r hr => ?_)
    rw [← hone r hr]
    rfl
  refine ⟨hstop, ?_, ?_, ?_⟩
  · rw [hnext.sound.count, hretired, List.length_map, Image.length_course]
  · rw [hnext.sound.signature, hretired]
  · have hthread : s.step.pipeline.stages.lineFetch.thread? 0 = _ :=
      hnext.solo.sound.thread? hnext.solo.lt
    rw [hthread, Option.map_some, hstate, hpc]

/-- **A run with one thread ends when the course is complete**, if it is long enough. -/
theorem Alone.run_completed (h : s.Alone c m e d) (hx : s.Unwrapped)
    (hruns : s.pipeline.running = true) : ∃ T, ∀ limit ≥ T, (s.run limit).Completed m e := by
  obtain ⟨n, hgoes, hstop⟩ := exists_stop hruns (h.stops hx)
  refine ⟨s.simulator.tick + (n + 1) * s.simulator.period, fun limit hlimit => ?_⟩
  rw [run_of_stop (fun k hk => hgoes k (Nat.le_of_lt_succ hk)) hstop hlimit]
  have hlast := h.iterate hx n
  have hnext := h.iterate hx (n + 1)
  rw [Function.iterate_succ_apply'] at hstop hnext ⊢
  exact hlast.completed hnext (hgoes n (Nat.le_refl n)) hstop

/-! ## From the start of a run -/

/-- The one thread of a session has not come to instruction `e`, and no redirect of it is on its
way. -/
structure Ready (c : Config) (m : Image) (e d : Nat) (s : Session) : Prop where
  sound : s.Sound c m
  fitted : s.pipeline.Fitted c
  admitted : c.Admitted
  one : c.host.threads = 1
  idling : c.pipeline.idling = true
  suspends : m.SuspendsAt e
  whole : (c.track m (· ≠ firstSeq) 0).Whole
  counted : s.machine.Counted d
  few : d + (e + 1) ≤ UInt64.size - 2
  before : (s.lane 0).Before (c.track m (· ≠ firstSeq) 0) e
  redirects : (s.lane 0).redirects = []
  overtaken : (s.lane 0).overtaken = []

/-- The session `u` is the session `s`, with its one thread woken and not to be halted. -/
structure Wakes (c : Config) (m : Image) (s u : Session) : Prop where
  sound : u.Sound c m
  fitted : u.pipeline.Fitted c
  running : u.pipeline.running = true
  waits : u.pipeline.signalDue = false
  free : u.pipeline.stages.execute.draining = false
  lane : u.lane 0 = (s.lane 0).woken.pend false
  execute : u.pipeline.stages.execute.input = s.pipeline.stages.execute.input
  decode : u.pipeline.stages.decode.input = s.pipeline.stages.decode.input
  registers : u.pipeline.registers = s.pipeline.registers

namespace Ready

variable {u : Session}

theorem start (hc : c.FaultFree) (hone : c.host.threads = 1) (hidling : c.pipeline.idling = true)
    (hm : m.SuspendsAt e) (hnew : new c m = .ok s) : s.Ready c m e 0 := by
  obtain ⟨hsound, hlane, hwhole⟩ := of_new_eq_ok (t := 0) hc hnew
  obtain ⟨hstarts, -⟩ := starts_of_new hc hnew
  have hstart : s.machine.lane 0 = .start m.entry :=
    hlane (by rw [hone]; exact Nat.zero_lt_one)
  have hbundles : s.machine.bundles = [] := by
    have hexecute : s.pipeline.stages.execute.input.entries = [] := by
      rw [show s.pipeline.stages = _ from hstarts.stages]
      rfl
    have hdecode : s.pipeline.stages.decode.input.entries = [] := by
      rw [show s.pipeline.stages = _ from hstarts.stages]
      rfl
    have hdecoded : s.pipeline.registers.dToE.held = [] := hstarts.registers.decoded
    have hcut : s.pipeline.registers.f2ToD.held = [] := hstarts.registers.cut
    show s.pipeline.stages.execute.input.entries ++ (s.pipeline.registers.dToE.held ++
      s.pipeline.stages.decode.input.entries ++ s.pipeline.registers.f2ToD.held) = []
    rw [hexecute, hdecode, hdecoded, hcut]
    rfl
  have hlt := hm.lt
  refine ⟨hsound, hstarts.fitted, hstarts.admitted, hone, hidling, hm, hwhole _,
    .start hstart hbundles hstarts.registers.redirects, ?_, ?_, ?_, ?_⟩
  · show 0 + (e + 1) ≤ 2 ^ 64 - 2
    omega
  · rw [show s.lane 0 = _ from hstart]
    exact ⟨.start m.entry, .start _, Nat.zero_le e⟩
  · rw [show s.lane 0 = _ from hstart]
    rfl
  · rw [show s.lane 0 = _ from hstart]
    rfl

theorem lt (h : s.Ready c m e d) : (0 : UInt32).toNat < c.host.threads.toNat := by
  rw [h.one]
  exact Nat.zero_lt_one

/-- There is no other thread to wake. -/
theorem threadNumbers (h : s.Ready c m e d) :
    Pipeline.threadNumbers s.simulator.host.threads = [0] := by
  rw [h.sound.threads, h.one]
  rfl

theorem wakeAll (h : s.Ready c m e d) (hwaits : s.pipeline.signalDue = false)
    (hfree : s.pipeline.stages.execute.draining = false)
    (hpending : (s.lane 0).exec.haltPending = false) : Wakes c m s s.wakeAll := by
  have heq : s.wakeAll = s.wake 0 := by
    unfold Session.wakeAll Session.wake Session.threadNumbers Simulator.wakeAll Host.wakeAll
    rw [h.threadNumbers]
    rfl
  rw [heq]
  refine ⟨h.sound.wake 0, h.fitted.wakeFetch 0, rfl, hwaits, hfree, ?_, rfl, rfl, rfl⟩
  refine (Pipeline.lane_wakeFetch_self h.sound.pipeline h.lt s.history).trans ?_
  rw [Lane.woken, Lane.pend, ← hpending]
  rfl

theorem resume (h : s.Ready c m e d) : Wakes c m s s.resume := by
  have hpipeline : s.resume.pipeline = (s.pipeline.resume 1).1 := by
    show (s.pipeline.resume s.simulator.host.threads).1 = _
    rw [h.sound.threads, h.one]
    rfl
  refine ⟨h.sound.resume, h.fitted.resume _, ?_, rfl, rfl, ?_, ?_, ?_, ?_⟩
  · rw [hpipeline]
    rfl
  · have hwoken : (s.pipeline.wakeAll (Pipeline.threadNumbers s.simulator.host.threads)).1.lane
        s.resume.history 0 = (s.lane 0).woken := by
      unfold Session.resume Session.threadNumbers
      rw [h.threadNumbers]
      exact Pipeline.lane_wakeFetch_self h.sound.pipeline h.lt s.history
    rw [← hwoken]
    exact Pipeline.lane_resume_eq h.sound.pipeline h.lt s.simulator.host.threads s.resume.history
  · rw [hpipeline]
    rfl
  · rw [hpipeline]
    rfl
  · rw [hpipeline]
    rfl

theorem woken (h : s.Ready c m e d) :
    ((s.lane 0).woken.pend false).Before (c.track m (· ≠ firstSeq) 0) e :=
  (h.before.woken (fun _ hx => hx) h.whole h.suspends).pend false

theorem counted_of_wakes (h : s.Ready c m e d) (hu : Wakes c m s u) : u.machine.Counted d := by
  have hlane : u.machine.lane 0 = (s.lane 0).woken.pend false := hu.lane
  refine h.counted.keep ?_ ?_ ?_ ?_ hu.execute hu.decode hu.registers
  · rw [hlane]
    exact h.counted.lane.woken.unpend
  · rw [hlane]
    exact h.woken.numbered.toInStream
  · rw [hlane]
    rfl
  · rw [hlane]
    rfl

/-- **A session whose one thread was just woken has it on its course.** -/
theorem alone (h : s.Ready c m e d) (hu : Wakes c m s u) (hx : u.machine.Unwrapped) :
    u.Alone c m e d := by
  have hone : c.host.threads.toNat = 1 := by
    rw [h.one]
    rfl
  have hlane : u.machine.lane 0 = (s.lane 0).woken.pend false := hu.lane
  have hcourse : (u.machine.lane 0).OnCourse (c.track m (· ≠ firstSeq) 0) e := by
    rw [hlane]
    exact h.woken.onCourse h.redirects rfl rfl
  have hovertaken : (u.machine.lane 0).overtaken = [] := by
    rw [hlane]
    exact h.overtaken
  have hcounted := h.counted_of_wakes hu
  have hsound := hu.sound.machine.of_unwrapped hone hcounted hx
    (Nat.le_trans (Nat.add_le_add_left hcourse.upTo.issued_le d) h.few)
  exact ⟨hu.sound, hu.fitted, h.admitted, h.idling, hu.waits, hone, h.suspends, h.whole, hsound,
    hcounted, h.few, hu.fitted.sized, hu.free, hovertaken, hcourse⟩

/-- Where there is room for few bundles, the numbers of its predictions do not come round. -/
theorem unwrapped (h : s.Ready c m e d) (hu : Wakes c m s u)
    (hroom : e + 1 + c.pipeline.room + c.pipeline.delays.eToF1.toNat ≤ UInt64.size - 2) :
    u.Unwrapped := by
  refine (h.alone hu ?_).unwrapped hroom
  refine (h.counted_of_wakes hu).unwrapped hu.sound.machine (by rw [h.one]; rfl) ?_
  have hissued : (u.machine.lane 0).issued.length ≤ e := by
    rw [show u.machine.lane 0 = _ from hu.lane]
    exact h.woken.issued_le
  rw [← hu.fitted.room, ← hu.fitted.row] at hroom
  refine Nat.le_trans ?_ hroom
  exact Nat.add_le_add_right (Nat.add_le_add_right (Nat.le_succ_of_le hissued) _) _

end Ready

/-- A new session wakes its one thread. -/
theorem wakes_of_new (hc : c.FaultFree) (hready : s.Ready c m e 0) (hnew : new c m = .ok s) :
    Wakes c m s s.wakeAll := by
  have hstarts := (starts_of_new hc hnew).1
  have hlane := (of_new_eq_ok (t := 0) hc hnew).2.1 hready.lt
  have hfree : s.pipeline.stages.execute.draining = false := by
    rw [show s.pipeline.stages = _ from hstarts.stages]
    rfl
  have hpending : (s.lane 0).exec.haltPending = false := by
    rw [hlane]
    rfl
  exact hready.wakeAll hstarts.waits hfree hpending

/-- Queues of bundles that together have no more than 2^63 places leave room for all numbers. -/
theorem room_le (hm : m.SuspendsAt e)
    (hqueues : c.pipeline.decodeQueue.toNat + c.pipeline.executeQueue.toNat ≤ 2 ^ 63) :
    e + 1 + c.pipeline.room + c.pipeline.delays.eToF1.toNat ≤ UInt64.size - 2 := by
  have hlt := hm.lt
  have hcut := c.pipeline.delays.f2ToD.toNat_lt
  have hdecoded := c.pipeline.delays.dToE.toNat_lt
  have hredirects := c.pipeline.delays.eToF1.toNat_lt
  unfold PipelineConfig.room
  show _ ≤ 2 ^ 64 - 2
  omega

/-- **The numbers of predictions do not come round** in a run, unless the queues of bundles together
have more than 2^63 places. -/
theorem unwrapped_of_room (hc : c.FaultFree) (hone : c.host.threads = 1)
    (hidling : c.pipeline.idling = true)
    (hqueues : c.pipeline.decodeQueue.toNat + c.pipeline.executeQueue.toNat ≤ 2 ^ 63)
    (hm : m.SuspendsAt e) (hnew : new c m = .ok s) : s.wakeAll.Unwrapped := by
  have hready : s.Ready c m e 0 := .start hc hone hidling hm hnew
  exact hready.unwrapped (wakes_of_new hc hready hnew) (room_le hm hqueues)

/-- **A thread runs to completion.** With one thread and a pipeline that may idle, every configuration
without faults that keeps its bounds makes a session in which the thread, once it is woken, retires
its course up to the first word that suspends. A run that is long enough has stopped by then, and
what it comes to depends on the program only. This is said of runs in which the numbers of
predictions do not come round; `unwrapped_of_room` tells which do not. -/
theorem run_completes (hc : c.FaultFree) (hcheck : c.check = .ok ()) (hone : c.host.threads = 1)
    (hidling : c.pipeline.idling = true) (hm : m.SuspendsAt e) :
    ∃ s, new c m = .ok s ∧ (s.wakeAll.Unwrapped →
      ∃ T, ∀ limit ≥ T, (s.wakeAll.run limit).Completed m e) := by
  obtain ⟨s, hnew⟩ := exists_new hc hcheck m
  refine ⟨s, hnew, fun hx => ?_⟩
  have hready : s.Ready c m e 0 := .start hc hone hidling hm hnew
  have hwakes := wakes_of_new hc hready hnew
  exact (hready.alone hwakes (hx 0)).run_completed hx hwakes.running

/-- A run of two instructions ends after the second, which suspends the thread. -/
theorem run_completes_pause : ∃ s, new { pipeline := { idling := true } } .pause = .ok s ∧
    s.wakeAll.Unwrapped ∧ ∃ T, ∀ limit ≥ T, (s.wakeAll.run limit).Completed .pause 1 := by
  obtain ⟨s, hnew, hrun⟩ := run_completes (m := .pause) (e := 1)
    (c := { pipeline := { idling := true } }) (by decide) rfl rfl rfl Image.suspendsAt_pause
  have hx : s.wakeAll.Unwrapped :=
    unwrapped_of_room (by decide) rfl rfl (by decide) Image.suspendsAt_pause hnew
  exact ⟨s, hnew, hx, hrun hx⟩

end Session

end InOrder
