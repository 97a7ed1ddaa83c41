import InOrder.Proofs.Session

/-!
# Drained pipelines

`Pipeline.isDrained` looks at queues, units and registers only. It does not ask what the threads of
the three stages that keep any remember, nor which halts are still pending. Yet in a drained
pipeline they agree: every thread goes on, in all stages, after the last instruction that it
retired.

* `Lane.Idle.resumes`: a lane with nothing on it and a thread that does not fetch is at a point of
  its course.
* `Session.Reached.drained_resumes`: so is every lane of a drained pipeline.
-/

namespace InOrder

namespace Lane

/-- Nothing is on its way in the lane, and its thread does not fetch. -/
structure Idle (v : Lane) : Prop where
  ops : v.ops = []
  lines : v.lines = []
  redirects : v.redirects = []
  stopped : v.fetch.state ≠ .running

variable {k : Track} {v : Lane}

/-- **An idle lane agrees on where its thread goes on**, and on the numbers with which it does. -/
theorem Idle.resumes (h : v.Idle) (hn : v.Numbered) (hr : v.OnRoute k) :
    v.fetch.pc = v.exec.nextPc ∧ v.fetch.streamSeq = v.exec.streamSeq ∧
      v.expected = v.fetch.stamp :=
  hr.resumes hn h.redirects h.stopped

end Lane

namespace Pipeline

/-- What a pipeline does not hold when it is drained. -/
structure Drained (p : Pipeline Stages) : Prop where
  pending : p.stages.lineFetch.pending = none
  stopped : ∀ th ∈ p.stages.lineFetch.threads, th.state ≠ .running
  lines : p.stages.slicer.input.entries = []
  bundles : p.stages.decode.input.entries = []
  queued : p.stages.execute.input.entries = []
  units : p.stages.execute.units = []
  registers : ∀ e, p.registers.isEmpty e = true

variable {c : Config} {m : Image} {p : Pipeline Stages} {t : UInt32}

theorem drained_iff : p.isDrained = true ↔ p.Drained := by
  have hstages : (StageSet.drained p.stages).toList.all id = true ↔
      p.stages.lineFetch.isDrained = true ∧ p.stages.slicer.isDrained = true ∧
        p.stages.decode.isDrained = true ∧ p.stages.execute.isDrained = true := by
    simp [PerStage.toList, StageSet.drained]
  have hedges : Edge.all.all p.registers.isEmpty = true ↔ ∀ e, p.registers.isEmpty e = true :=
    List.all_eq_true.trans ⟨fun h e => h e e.mem_all, fun h e _ => h e⟩
  rw [isDrained, Bool.and_eq_true, hstages, hedges]
  simp only [LineFetch.isDrained, Slicer.isDrained, Decode.isDrained, Execute.isDrained,
    Queue.isEmpty, Bool.and_eq_true, Option.isNone_iff_eq_none, List.isEmpty_iff, List.all_eq_true,
    bne_iff_ne]
  constructor
  · rintro ⟨⟨⟨hpending, hstopped⟩, hlines, hbundles, hqueued, hunits⟩, hregisters⟩
    exact ⟨hpending, hstopped, hlines, hbundles, hqueued, hunits, hregisters⟩
  · intro h
    exact ⟨⟨⟨h.pending, h.stopped⟩, h.lines, h.bundles, h.queued, h.units⟩, h.registers⟩

/-- In a drained pipeline every lane is idle, and all that was issued has retired. -/
theorem Drained.lane (h : p.Drained) (hp : p.Sound c m) (ht : t.toNat < c.host.threads.toNat)
    (hist : History) :
    (p.lane hist t).Idle ∧ (p.lane hist t).issued = trail t hist.retired := by
  have hheld : ∀ {α : Type} [Payload α] {r : Register α}, r.isEmpty = true → r.held = [] :=
    Register.held_of_isEmpty
  have hwaiting : p.stages.execute.waiting = [] := by
    rw [Execute.waiting, h.queued]
    rfl
  have hqueued : p.stages.slicer.waiting = [] := by
    rw [Slicer.waiting, h.lines]
    rfl
  have hcut : p.registers.f2ToD.held = [] := hheld (h.registers .f2ToD)
  have hdecoded : p.registers.dToE.held = [] := hheld (h.registers .dToE)
  have hfetched : p.registers.f1ToF2.held = [] := hheld (h.registers .f1ToF2)
  have hsent : p.registers.eToF1.held = [] := hheld (h.registers .eToF1)
  refine ⟨⟨?_, ?_, ?_, ?_⟩, ?_⟩
  · show share t (_ ++ List.flatMap Bundle.tagged (_ ++ _ ++ _)) = []
    rw [hwaiting, hdecoded, h.bundles, hcut]
    rfl
  · show linesOf t (_ ++ _) ++ LineFetch.pendingOf t _ = []
    rw [hqueued, hfetched, h.pending]
    rfl
  · show redirectsOf t _ = []
    rw [hsent]
    rfl
  · exact h.stopped _ (List.mem_of_getElem? (hp.thread? ht hist))
  · show trail t (_ ++ List.map _ _) = _
    rw [h.units, List.map_nil, List.append_nil]

end Pipeline

variable {c : Config} {m : Image} {s : Session} {t : UInt32}

/-- **A drained pipeline is at a point of every course.** All that a thread issued has retired; the
line fetch and execute go on at the address that comes next, in one stream; and the slicer expects
the numbers that the line fetch gives to the next line. The count of evaluations fits in a word, so
no number has come round. -/
theorem Session.Reached.drained_resumes (hc : c.FaultFree) (hm : m.WordAligned)
    (h : Session.Reached c m s) (hcycles : s.pipeline.stats.cycles < UInt64.size)
    (hdrained : s.pipeline.isDrained = true) (ht : t.toNat < c.host.threads.toNat) :
    ∃ n fetch exec, trail t s.history.retired = m.course n ∧
      s.pipeline.stages.lineFetch.thread? t = some fetch ∧
      s.pipeline.stages.execute.threads[t.toNat]? = some exec ∧
      s.pipeline.stages.slicer.expected[t.toNat]? = some fetch.stamp ∧
      exec.nextPc = m.pcAt n ∧ fetch.pc = exec.nextPc ∧ fetch.streamSeq = exec.streamSeq := by
  have hp := (h.sound hc).pipeline
  obtain ⟨hidle, hissued⟩ := (Pipeline.drained_iff.mp hdrained).lane hp ht s.history
  have hroute := h.onRoute hc hm hcycles ht
  obtain ⟨hpc, hstream, hstamp⟩ := hidle.resumes (h.numbered hc hcycles ht) hroute
  have htrail : trail t s.history.retired = m.course (s.lane t).issued.length :=
    hissued.symm.trans hroute.issued
  exact ⟨_, _, _, htrail, hp.thread? ht s.history, hp.exec? ht s.history,
    hstamp ▸ hp.expected? ht s.history, hroute.nextPc, hpc, hstream⟩

/-- A drain of a thread that jumps to where it is ends after two jumps. -/
theorem drained_resumes_spin : ∃ s, Session.Reached {} .spin s ∧ s.pipeline.isDrained = true ∧
    trail 0 s.history.retired = [(0x80000000, 0x6f), (0x80000000, 0x6f)] ∧
    ∃ n fetch exec, trail 0 s.history.retired = Image.spin.course n ∧
      s.pipeline.stages.lineFetch.thread? 0 = some fetch ∧
      s.pipeline.stages.execute.threads[(0 : UInt32).toNat]? = some exec ∧
      s.pipeline.stages.slicer.expected[(0 : UInt32).toNat]? = some fetch.stamp ∧
      exec.nextPc = Image.spin.pcAt n ∧ fetch.pc = exec.nextPc ∧
      fetch.streamSeq = exec.streamSeq := by
  obtain ⟨s, hreached, hcycles, hdrained, htrail⟩ : ∃ s, Session.Reached {} .spin s ∧
      s.pipeline.stats.cycles = 15 ∧ s.pipeline.isDrained = true ∧
      trail 0 s.history.retired = [(0x80000000, 0x6f), (0x80000000, 0x6f)] :=
    ⟨_, ⟨_, .wakeAll :: (List.replicate 12 .step ++ .drain :: List.replicate 3 .step), rfl, rfl⟩,
      by decide +kernel, by decide +kernel, by decide +kernel⟩
  exact ⟨s, hreached, hdrained, htrail, hreached.drained_resumes (by decide) Image.wordAligned_spin
    (by rw [hcycles]; decide) hdrained (by decide)⟩

end InOrder
