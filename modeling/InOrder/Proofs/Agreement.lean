import InOrder.Proofs.Session

/-!
# What the slicer expects

The line fetch stamps its lines with a stream and a prediction number, and the slicer discards
lines with other numbers than it expects. The slicer counts a prediction when it sends it, the line
fetch when it arrives, so the two differ while a prediction is on its way. Afterwards they are equal
again, unless the prediction arrived together with a redirect of another thread: the line fetch
takes up one of the two only, and the prediction is lost.

* `Session.Reached.expects_stamp_iff`: when no prediction of a thread is on its way, the numbers are
  equal if and only if none was lost in the stream that the thread is in.
* `not_expects_stamp`: they can differ when nothing of the thread is on its way.
-/

namespace InOrder

variable {c : Config} {m : Image} {s : Session} {t : UInt32}

namespace Pipeline

variable {p : Pipeline Stages}

/-- No live prediction in a register means none in the lane. -/
theorem Sound.predictions_eq_nil (hp : p.Sound c m)
    (hnone : ∀ r ∈ p.registers.f2ToF1.line.slots, r.isLive = true → r.thread ≠ t) (h : History) :
    (p.lane h t).predictions = [] := by
  show redirectsOf t p.registers.f2ToF1.held = []
  refine List.filter_eq_nil_iff.mpr fun r hr => ?_
  have hlive := (hp.registers.predicted r hr).isLive
  simpa using hnone r (Register.mem_slots hr) hlive

end Pipeline

/-- What a lane owes when no prediction is on its way are the predictions that were lost. -/
theorem Lane.owed_eq_zero_iff {v : Lane} (hnone : v.predictions = []) :
    v.owed = 0 ↔ v.fetch.streamSeq ∉ v.overtaken := by
  rw [owed, hnone, List.countP_nil, Nat.zero_add, List.count_eq_zero]

/-- **The slicer expects the lines that the line fetch asks for if and only if no prediction was
lost in the stream of the thread**, when no prediction of the thread is on its way, and the count of
evaluations fits in a word. -/
theorem Session.Reached.expects_stamp_iff (hc : c.FaultFree) (h : Session.Reached c m s)
    (hcycles : s.pipeline.stats.cycles < UInt64.size) (ht : t.toNat < c.host.threads.toNat)
    (hnone : ∀ r ∈ s.pipeline.registers.f2ToF1.line.slots, r.isLive = true → r.thread ≠ t) :
    s.pipeline.stages.slicer.expected[t.toNat]? =
        (s.pipeline.stages.lineFetch.thread? t).map FetchThread.stamp ↔
      ∀ r ∈ s.history.overtaken, r.thread = t →
        (s.pipeline.stages.lineFetch.thread? t).map (·.streamSeq) ≠ some r.newStreamSeq := by
  have hp := (h.sound hc).pipeline
  have hpredictions := hp.predictions_eq_nil hnone s.history
  have hovertaken : (s.lane t).fetch.streamSeq ∉ (s.lane t).overtaken ↔
      ∀ r ∈ s.history.overtaken, r.thread = t → (s.lane t).fetch.streamSeq ≠ r.newStreamSeq := by
    have hmem : ∀ x, x ∈ (s.lane t).overtaken ↔
        ∃ r, (r ∈ s.history.overtaken ∧ r.thread = t) ∧ r.newStreamSeq = x := fun x => by
      show x ∈ (redirectsOf t s.history.overtaken).map _ ↔ _
      simp only [redirectsOf, List.mem_map, List.mem_filter, decide_eq_true_eq]
    rw [hmem]
    exact ⟨fun hno r hr hthread heq => hno ⟨r, ⟨hr, hthread⟩, heq.symm⟩,
      fun hno ⟨r, ⟨hr, hthread⟩, heq⟩ => hno r hr hthread heq.symm⟩
  have hiff : (s.lane t).expected = (s.lane t).fetch.stamp ↔ _ :=
    ((h.numbered hc hcycles ht).expected_eq_iff.trans
      (Lane.owed_eq_zero_iff hpredictions)).trans hovertaken
  rw [hp.expected? ht s.history, hp.thread? ht s.history]
  simp only [Option.map_some, Option.some.injEq, ne_eq]
  exact hiff

/-! ## A prediction that is lost -/

/-- Two threads, and redirects of execute that take two cycles. -/
def Config.pair : Config :=
  { host := { threads := 2 }
    pipeline := { delays := { PerEdge.all 1 with eToF1 := 2 }, predictJumps := true } }

/-- A jump over one word, and a word that suspends. -/
def Image.hop : Image := .ofWords 0x80000000 [0x0080006f, 19, 115]

/-- Thread 1 is woken five steps after thread 0, so that its jump is predicted when thread 0 is
suspended. -/
def staggeredWakes : List Call :=
  .wake 0 :: (List.replicate 5 .step ++ .wake 1 :: List.replicate 5 .step)

/-- The numbers of thread 1 differ though nothing of it is on its way, since one prediction of it
was lost. -/
theorem expects_stamp_iff_staggered : ∃ s, Session.Reached .pair .hop s ∧
    (∀ r ∈ s.pipeline.registers.f2ToF1.line.slots, r.isLive = true → r.thread ≠ 1) ∧
    (s.pipeline.stages.slicer.expected[(1 : UInt32).toNat]? =
        (s.pipeline.stages.lineFetch.thread? 1).map FetchThread.stamp ↔
      ∀ r ∈ s.history.overtaken, r.thread = 1 →
        (s.pipeline.stages.lineFetch.thread? 1).map (·.streamSeq) ≠ some r.newStreamSeq) := by
  obtain ⟨s, hreached, hcycles, hnone⟩ : ∃ s, Session.Reached .pair .hop s ∧
      s.pipeline.stats.cycles = 10 ∧
      ∀ r ∈ s.pipeline.registers.f2ToF1.line.slots, r.isLive = true → r.thread ≠ 1 :=
    ⟨_, ⟨_, staggeredWakes, rfl, rfl⟩, by decide +kernel, by decide +kernel⟩
  exact ⟨s, hreached, hnone,
    hreached.expects_stamp_iff (by decide) (by rw [hcycles]; decide) (by decide) hnone⟩

/-- **The numbers of a thread can differ when nothing of it is on its way.** -/
theorem not_expects_stamp : ¬ ∀ (c : Config) (m : Image) (s : Session) (t : UInt32),
    c.FaultFree → Session.Reached c m s → s.simulator.tick < UInt64.size →
    t.toNat < c.host.threads.toNat →
    (∀ r ∈ s.pipeline.registers.eToF1.line.slots, r.isLive = true → r.thread ≠ t) →
    (∀ r ∈ s.pipeline.registers.f2ToF1.line.slots, r.isLive = true → r.thread ≠ t) →
    (s.pipeline.stages.lineFetch.thread? t).map FetchThread.stamp =
      s.pipeline.stages.slicer.expected[t.toNat]? := by
  intro hall
  obtain ⟨s, hreached, htick, hsent, hpredicted, hdiffer⟩ : ∃ s, Session.Reached .pair .hop s ∧
      s.simulator.tick = 10 ∧
      (∀ r ∈ s.pipeline.registers.eToF1.line.slots, r.isLive = true → r.thread ≠ 1) ∧
      (∀ r ∈ s.pipeline.registers.f2ToF1.line.slots, r.isLive = true → r.thread ≠ 1) ∧
      (s.pipeline.stages.lineFetch.thread? 1).map FetchThread.stamp ≠
        s.pipeline.stages.slicer.expected[(1 : UInt32).toNat]? :=
    ⟨_, ⟨_, staggeredWakes, rfl, rfl⟩, by decide +kernel, by decide +kernel, by decide +kernel,
      by decide +kernel⟩
  exact hdiffer (hall .pair .hop s 1 (by decide) hreached (by rw [htick]; decide) (by decide) hsent
    hpredicted)

end InOrder
