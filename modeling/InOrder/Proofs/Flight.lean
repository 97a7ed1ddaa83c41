import InOrder.Proofs.Agreement
import InOrder.Proofs.Stage.Flight

/-!
# No stale line

A thread can be redirected while a line for it is in flight. The line fetch drops such a line by
comparing one number, before it sends anything in the same cycle. That no stale line slips through
rests on the numbers: the redirect that arrives next leads to the stream after that of its thread,
and a prediction that is heeded is the one that was owed (`Session.Reached.renews`).

* `Session.Reached.lines_fresh`: the line in flight is the one that its thread asked for last, and a
  line is sent with the numbers that its thread has once the redirect or prediction of the cycle has
  been taken up.
-/

namespace InOrder

variable {c : Config} {m : Image} {s : Session}

namespace Lane.Numbered

variable {v : Lane}

/-- The next redirect leads to another stream. -/
theorem renews (h : v.Numbered) {r : Redirect} {rest : List Redirect}
    (hr : v.redirects = r :: rest) : r.newStreamSeq ≠ v.fetch.streamSeq := fun heq =>
  (h.arrive hr (Nat.le_refl _)).2 heq.symm

/-- A prediction for the stream of the line fetch brings another number. -/
theorem predicts (h : v.Numbered) {p : Redirect} (hp : p ∈ v.predictions)
    (hs : p.newStreamSeq = v.fetch.streamSeq) : p.newPredictionSeq ≠ v.fetch.predictionSeq := by
  have howed : 0 < v.owed :=
    Nat.lt_of_lt_of_le (List.countP_pos_iff.mpr ⟨p, hp, by simpa using hs⟩) (Nat.le_add_right _ _)
  have howes := h.owes
  intro heq
  rw [h.current p hp hs] at heq
  rw [heq] at howes
  omega

end Lane.Numbered

namespace Session

theorem Reached.after (h : Reached c m s) (calls : List Call) : Reached c m (s.after calls) := by
  obtain ⟨s₀, before, hnew, rfl⟩ := h
  exact ⟨s₀, before ++ calls, hnew, (after_append s₀ before calls).symm⟩

/-- **What a new session has, and each call keeps, every session has.** -/
theorem Reached.induction {P : Session → Prop} (h : Reached c m s)
    (hnew : ∀ s, new c m = .ok s → P s) (hstep : ∀ s, Reached c m s → P s → P s.step)
    (hwake : ∀ s t, Reached c m s → P s → P (s.wake t))
    (hwakeAll : ∀ s, Reached c m s → P s → P s.wakeAll)
    (hdrain : ∀ s, Reached c m s → P s → P s.drain)
    (hresume : ∀ s, Reached c m s → P s → P s.resume) : P s := by
  obtain ⟨s₀, calls, hs₀, rfl⟩ := h
  have hkept : Reached c m (s₀.after calls) ∧ P (s₀.after calls) := by
    refine after_induction (P := fun s => Reached c m s ∧ P s)
      (fun s hs => ⟨hs.1.after [.step], hstep s hs.1 hs.2⟩)
      (fun s t hs => ⟨hs.1.after [.wake t], hwake s t hs.1 hs.2⟩)
      (fun s hs => ⟨hs.1.after [.wakeAll], hwakeAll s hs.1 hs.2⟩)
      (fun s hs => ⟨hs.1.after [.resume], hresume s hs.1 hs.2⟩) calls
      (fun _ s hs => ⟨hs.1.after [.drain], hdrain s hs.1 hs.2⟩) ⟨⟨s₀, [], hs₀, rfl⟩, hnew s₀ hs₀⟩
  exact hkept.2

/-- **What arrives next brings numbers that its threads do not have.** -/
theorem Reached.renews (hc : c.FaultFree) (h : Reached c m s)
    (hcycles : s.pipeline.stats.cycles < UInt64.size) :
    s.pipeline.stages.lineFetch.Renews s.pipeline.registers.outputs.eToF1
      s.pipeline.registers.outputs.f2ToF1 := by
  have hp := (h.sound hc).pipeline
  have hnumbered : ∀ t : UInt32, t.toNat < c.host.threads.toNat → (s.lane t).Numbered :=
    fun t => h.numbered hc hcycles
  have hlive : ∀ {r : Redirect}, r.isLive = true → Payload.isBubble r = false := fun hr =>
    Bool.eq_false_of_not_eq_true fun hbubble => by simp [Redirect.not_isLive hbubble] at hr
  constructor
  · intro hr th hth
    have hsent := hp.registers.sent _ (Register.output_mem_held (hlive hr))
    obtain rfl : (s.lane _).fetch = th :=
      Option.some.inj ((hp.thread? hsent.thread s.history).symm.trans hth)
    have hheld : s.pipeline.registers.eToF1.held =
        s.pipeline.registers.eToF1.output :: s.pipeline.registers.eToF1.behind :=
      congrArg (· ++ _) (present_singleton (hlive hr))
    have hnext : (s.lane s.pipeline.registers.eToF1.output.thread).redirects =
        s.pipeline.registers.eToF1.output :: _ :=
      (congrArg (redirectsOf _) hheld).trans (redirectsOf_cons rfl _)
    exact (hnumbered _ hsent.thread).renews hnext
  · intro hr th hth hstream
    have hmem := Register.output_mem_held (hlive hr)
    have hpredicts := hp.registers.predicted _ hmem
    obtain rfl : (s.lane _).fetch = th :=
      Option.some.inj ((hp.thread? hpredicts.thread s.history).symm.trans hth)
    exact (hnumbered _ hpredicts.thread).predicts
      (List.mem_filter.mpr ⟨hmem, decide_eq_true rfl⟩) hstream

/-- The line fetch of a new session. -/
def freshFetch (c : Config) (m : Image) : LineFetch := .new (Pipeline.owner ++ ".fetch1") c m

/-- The line fetch has worked since the start, and while the count of evaluations fits in a word no
stale line was in flight. -/
structure Fetched (c : Config) (m : Image) (cycles : Nat) (f : LineFetch) : Prop where
  uses : ∃ uses, f = (freshFetch c m).performAll uses
  fresh : cycles < UInt64.size → f.Fresh

theorem Fetched.perform {cycles cycles' : Nat} {f : LineFetch} (h : Fetched c m cycles f)
    (u : LineFetch.Use) (hfresh : cycles' < UInt64.size → (f.perform u).Fresh) :
    Fetched c m cycles' (f.perform u) := by
  obtain ⟨uses, rfl⟩ := h.uses
  exact ⟨⟨uses ++ [u], (List.foldl_concat ..).symm⟩, hfresh⟩

theorem Fetched.wake {cycles : Nat} {f : LineFetch} (h : Fetched c m cycles f) (t : UInt32) :
    Fetched c m cycles (f.wake t).1 :=
  h.perform (.wake t) fun hcycles => (h.fresh hcycles).wake t

/-- Waking several threads makes no line stale, and is no evaluation. -/
theorem Fetched.wakeAll {p : Pipeline Stages} (ts : List UInt32)
    (h : Fetched c m p.stats.cycles p.stages.lineFetch) :
    Fetched c m (p.wakeAll ts).1.stats.cycles (p.wakeAll ts).1.stages.lineFetch :=
  Pipeline.wakeAll_induction (P := fun p => Fetched c m p.stats.cycles p.stages.lineFetch)
    (fun _ t h => h.wake t) ts h

/-- The line fetch of a session in its next cycle. -/
theorem Reached.fresh_evaluate (hc : c.FaultFree) (h : Reached c m s)
    (hcycles : s.pipeline.stats.cycles < UInt64.size) (hfresh : s.pipeline.stages.lineFetch.Fresh)
    (cycle : Nat) (room : Bool) :
    let f := s.pipeline.stages.lineFetch
    let o := s.pipeline.registers.outputs
    (f.evaluate cycle o.eToF1 o.f2ToF1 room).stage.Fresh ∧
      ∀ l, (f.evaluate cycle o.eToF1 o.f2ToF1 room).line = some l →
        ∃ th, (f.redirect o.eToF1 o.f2ToF1).1.Asked l th := by
  intro f o
  have hsound := (h.sound hc).pipeline.stages.lineFetch.redirect o.eToF1 o.f2ToF1
  refine hfresh.evaluate (h.renews hc hcycles) ?_ ?_ cycle room
  · rw [hsound.length]
    exact Nat.le_of_lt (UInt32.toNat_lt _)
  · rw [hsound.lineBytes]
    exact (h.whole hc (fun _ => True) 0).positive

/-- **The line fetch does what a stage can do, and no call makes its line stale.** -/
theorem Reached.fetched (hc : c.FaultFree) (h : Reached c m s) :
    Fetched c m s.pipeline.stats.cycles s.pipeline.stages.lineFetch := by
  refine h.induction
    (P := fun s => Fetched c m s.pipeline.stats.cycles s.pipeline.stages.lineFetch)
    (fun s hs => ?_) (fun s hs hf => ?_) (fun s t _ hf => hf.wake t) (fun s _ hf => hf.wakeAll _)
    (fun s _ hf => ?_) (fun s _ hf => hf.wakeAll _)
  · have hstages := congrArg Stages.lineFetch (starts_of_new hc hs).1.stages
    exact ⟨⟨[], hstages⟩, fun _ p hp => nomatch (congrArg LineFetch.pending hstages).symm.trans hp⟩
  · cases hrun : s.pipeline.running with
    | false =>
      rw [(pipeline_step_of_stopped hrun).1]
      exact hf
    | true =>
      have hp := (hs.sound hc).pipeline
      have hholds := (Pipeline.evaluate_holds hp.waiting hp.unitMode
        (s.simulator.tick + s.simulator.period)).1
      rw [cycles_step hrun, (pipeline_step hrun).1, hholds.stages]
      exact hf.perform (.cycle _ _ _ _) fun hcycles =>
        (hs.fresh_evaluate hc (by omega) (hf.fresh (by omega)) _ _).1
  · have hsame : s.drain.pipeline.stages.lineFetch = s.pipeline.stages.lineFetch ∧
        s.drain.pipeline.stats = s.pipeline.stats := by
      show s.simulator.pipeline.drain.1.stages.lineFetch = _ ∧ s.simulator.pipeline.drain.1.stats = _
      unfold Pipeline.drain
      simp only
      split <;> exact ⟨rfl, rfl⟩
    rw [hsame.1, hsame.2]
    exact hf

/-- A line fetch never has more responses and lines in flight than requests. -/
theorem answered_performAll (c : Config) (m : Image) (uses : List LineFetch.Use) :
    ((freshFetch c m).performAll uses).Answered := by
  have hkept : ∀ {f : LineFetch}, f.Answered → (f.performAll uses).Answered := by
    induction uses with
    | nil => exact fun h => h
    | cons u us ih => exact fun h => ih (h.perform u)
  exact hkept (Nat.le_refl 0)

/-- No line of the session is stale, and none is sent without room. -/
structure FreshLines (c : Config) (m : Image) (s : Session) : Prop where
  /-- The line fetch does what a stage with a queue for lines does. -/
  queue : ∃ uses, (FetchQueue.ofStage (freshFetch c m)).performAll uses =
    .ofStage s.pipeline.stages.lineFetch
  single : (FetchQueue.ofStage s.pipeline.stages.lineFetch).inFlight.length ≤ 1
  /-- The line in flight has the numbers of its thread, which is to go on where the line ends. -/
  asked : ∀ p ∈ (FetchQueue.ofStage s.pipeline.stages.lineFetch).inFlight,
    ∃ th, s.pipeline.stages.lineFetch.Asked p.line th
  /-- A line that is written in the next cycle has the numbers of its thread, as they are when the
  redirect or the prediction of that cycle has been taken up. -/
  sent : ∀ now l, (s.pipeline.work now).writes.f1ToF2 = some l →
    ∃ th, (s.pipeline.stages.lineFetch.redirect s.pipeline.registers.outputs.eToF1
        s.pipeline.registers.outputs.f2ToF1).1.thread? l.thread = some th ∧ l.Carries th.stamp
  room : ∀ now l, (s.pipeline.work now).writes.f1ToF2 = some l →
    (s.pipeline.work now).stages.slicer.input.hasRoom = true
  answered : s.pipeline.stages.lineFetch.port.responses +
      (FetchQueue.ofStage s.pipeline.stages.lineFetch).inFlight.length ≤
    s.pipeline.stages.lineFetch.port.requests

/-- **The line fetch never delivers a stale line**, whatever has been called and however long
redirects and predictions take, while the count of evaluations fits in a word. -/
theorem Reached.lines_fresh (hc : c.FaultFree) (h : Reached c m s)
    (hcycles : s.pipeline.stats.cycles < UInt64.size) : s.FreshLines c m := by
  have hfetched := h.fetched hc
  have hfresh := hfetched.fresh hcycles
  obtain ⟨uses, huses⟩ := hfetched.uses
  exact
    { queue := ⟨uses, by rw [FetchQueue.performAll_ofStage, huses]⟩
      single := Option.length_toList_le
      asked := fun p hp => hfresh p (Option.mem_toList.mp hp)
      sent := fun now l hl => by
        obtain ⟨th, hasked⟩ := (h.fresh_evaluate hc hcycles hfresh _ _).2 l hl
        exact ⟨th, hasked.thread, hasked.carries⟩
      room := fun now l hl => LineFetch.room_of_line hl
      answered := by
        rw [huses]
        exact answered_performAll c m uses }

end Session

/-- Lines that take four cycles to arrive. -/
def Config.distant : Config :=
  { host := { threads := 2 }, pipeline := { fetchLatency := 4, predictJumps := true } }

/-- Two threads take turns, and the line that is about to be sent was asked for after a
prediction. -/
theorem Session.Reached.lines_fresh_distant : ∃ s, Session.Reached .distant .hop s ∧
    (s.pipeline.work 13).writes.f1ToF2.map (fun l => (l.thread, l.predictionSeq)) = some (0, 2) ∧
    s.FreshLines .distant .hop := by
  obtain ⟨s, hreached, hcycles, hsent⟩ : ∃ s, Session.Reached .distant .hop s ∧
      s.pipeline.stats.cycles = 12 ∧
      (s.pipeline.work 13).writes.f1ToF2.map (fun l => (l.thread, l.predictionSeq)) = some (0, 2) :=
    ⟨_, ⟨_, .wakeAll :: List.replicate 12 .step, rfl, rfl⟩, by decide +kernel, by decide +kernel⟩
  exact ⟨s, hreached, hsent, hreached.lines_fresh (by decide) (by rw [hcycles]; decide)⟩

end InOrder
