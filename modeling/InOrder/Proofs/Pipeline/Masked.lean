import InOrder.Proofs.Stage.Units

/-!
# A pipeline whose units are out of sight

What flips in the units concern is masked (`Pipeline.masked`): the instruction words in the units,
the signature that is made of them, the bit that is flipped, and how and whether it is. All that a
host can do to a pipeline is the same for two that agree in everything else
(`Pipeline.evaluate_of_masked` and the lemmas after it). So a flip in a unit changes data, and never
what the pipeline does next.
-/

namespace InOrder

/-- The stages without what corrupted units concern. -/
def Stages.masked (s : Stages) : Stages := { s with execute := s.execute.masked }

/-- The stages do the same. -/
theorem Stages.evaluate_of_masked {s s' : Stages} (h : s'.masked = s.masked) (cycle : Nat)
    (o : Outputs) :
    (s'.evaluate cycle o).stages.masked = (s.evaluate cycle o).stages.masked ∧
      (s'.evaluate cycle o).writes = (s.evaluate cycle o).writes ∧
      (s'.evaluate cycle o).busy = (s.evaluate cycle o).busy ∧
      (s'.evaluate cycle o).retired.map Retired.masked =
        (s.evaluate cycle o).retired.map Retired.masked := by
  obtain ⟨l, f, d, e⟩ := s
  obtain ⟨l', f', d', e'⟩ := s'
  simp only [masked, mk.injEq] at h
  obtain ⟨rfl, rfl, rfl, h⟩ := h
  obtain ⟨-, hstage, hredirect, -, hbusy, hretired⟩ := Execute.evaluate_of_masked h cycle o.dToE
  have hinput : (e'.evaluate cycle o.dToE).stage.input = (e.evaluate cycle o.dToE).stage.input := by
    rw [(Execute.eq_of_masked hstage).1]
  simp only [evaluate, masked, hinput, hstage, hredirect, hbusy, true_and]
  exact hretired

namespace Pipeline

/-- A pipeline without what corrupted units concern. -/
def masked (p : Pipeline Stages) : Pipeline Stages :=
  { p with stages := p.stages.masked, unitMode := none, unitFlipped := false }

variable {p q : Pipeline Stages}

/-- The pipelines agree but for what corrupted units concern. -/
theorem eq_of_masked (h : q.masked = p.masked) : ∃ execute unitMode unitFlipped,
    q = { p with stages := { p.stages with execute }, unitMode, unitFlipped } ∧
      execute.masked = p.stages.execute.masked := by
  obtain ⟨⟨l, f, d, e⟩, _, _, _, _, _, _, _, _, _, _, _⟩ := p
  obtain ⟨⟨l', f', d', e'⟩, _, _, _, _, _, _, _, mode, flipped, _, _⟩ := q
  simp only [masked, Stages.masked, mk.injEq, Stages.mk.injEq, and_assoc, true_and] at h
  obtain ⟨rfl, rfl, rfl, h, rfl, rfl, rfl, rfl, rfl, rfl, rfl, rfl, rfl⟩ := h
  exact ⟨e', mode, flipped, rfl, h⟩

/-! ## A cycle -/

/-- Faults strike alike. -/
theorem masked_struck (p : Pipeline Stages) (now : Nat) : (p.struck now).masked =
    { p.masked.begin with
      faults := (p.masked.faults.evaluate now p.masked.registers).1
      registers := (p.masked.faults.evaluate now p.masked.registers).2.1
      stages := p.masked.polled now } := by
  obtain ⟨units, unitFlipped, heq, halike⟩ := p.struck_eq now
  have hunits := InFlight.Alike.masked_eq halike
  rw [heq]
  simp only [masked, Stages.masked, Execute.masked, hunits]
  rfl

theorem struck_of_masked (h : q.masked = p.masked) (now : Nat) :
    (q.struck now).masked = (p.struck now).masked := by
  rw [masked_struck, masked_struck, h]

/-- The stages run alike. -/
theorem runStages_of_masked (h : q.masked = p.masked) :
    q.runStages.1.masked = p.runStages.1.masked ∧
      q.runStages.2.retired.map Retired.masked = p.runStages.2.retired.map Retired.masked := by
  obtain ⟨execute, unitMode, unitFlipped, rfl, hexecute⟩ := eq_of_masked h
  have hstages : ({ p.stages with execute } : Stages).masked = p.stages.masked := by
    rw [Stages.masked, Stages.masked, hexecute]
  obtain ⟨hafter, hwrites, hbusy, hretired⟩ :=
    Stages.evaluate_of_masked hstages p.stats.cycles p.registers.outputs
  refine ⟨?_, hretired⟩
  show ({ p with
      stages :=
        (Stages.evaluate { p.stages with execute } p.stats.cycles p.registers.outputs).stages
      registers := p.registers.write
        (Stages.evaluate { p.stages with execute } p.stats.cycles p.registers.outputs).writes
      activity := p.activity.noteIf
        (Stages.evaluate { p.stages with execute } p.stats.cycles p.registers.outputs).busy
      unitMode, unitFlipped } : Pipeline Stages).masked = _
  rw [hwrites, hbusy, masked, hafter]
  rfl

/-- An empty pipeline is empty without its words. -/
theorem isDrained_masked (p : Pipeline Stages) : p.masked.isDrained = p.isDrained := by
  have hdrained : StageSet.drained p.stages.masked = StageSet.drained p.stages := by
    simp only [StageSet.drained, Stages.masked, Execute.isDrained_masked]
  rw [isDrained, isDrained, masked, hdrained]

theorem idle_masked (p : Pipeline Stages) : p.idle.1.masked = p.masked.idle.1 := by
  have hallow : p.masked.allowIdling = p.allowIdling := rfl
  unfold idle
  rw [hallow]
  split <;> rfl

theorem settle_masked (p : Pipeline Stages) :
    p.settle.1.masked = p.masked.settle.1 ∧ p.settle.2.1 = p.masked.settle.2.1 := by
  have hdue : p.masked.signalDue = p.signalDue := rfl
  unfold settle
  rw [isDrained_masked, hdue]
  split
  · split <;> exact ⟨rfl, rfl⟩
  · exact ⟨rfl, rfl⟩

theorem finished_of_masked (h : q.masked = p.masked) (now : Nat) :
    (q.finished now).masked = (p.finished now).masked := by
  have hran := (runStages_of_masked (struck_of_masked h now)).1
  have hsnapshot : q.registers.snapshot = p.registers.snapshot := by
    obtain ⟨execute, unitMode, unitFlipped, rfl, -⟩ := eq_of_masked h
    rfl
  obtain ⟨execute, unitMode, unitFlipped, heq, hexecute⟩ := eq_of_masked hran
  unfold finished
  dsimp only
  rw [heq, hsnapshot]
  simp only [account, masked, Stages.masked, hexecute]

/-- **What is in the units has no effect on a cycle** but on what retires. -/
theorem evaluate_of_masked (h : q.masked = p.masked) (now : Nat) :
    (q.evaluate now).pipeline.masked = (p.evaluate now).pipeline.masked ∧
      (q.evaluate now).drainDone = (p.evaluate now).drainDone ∧
      (q.evaluate now).retired.map Retired.masked =
        (p.evaluate now).retired.map Retired.masked := by
  have hidle : (q.finished now).idle.1.masked = (p.finished now).idle.1.masked := by
    rw [idle_masked, idle_masked, finished_of_masked h]
  refine ⟨?_, ?_, (runStages_of_masked (struck_of_masked h now)).2⟩
  · rw [(evaluate_eq_finished q now).1, (evaluate_eq_finished p now).1, (settle_masked _).1,
      (settle_masked _).1, hidle]
  · calc (q.finished now).idle.1.settle.2.1
        = (q.finished now).idle.1.masked.settle.2.1 := (settle_masked _).2
      _ = (p.finished now).idle.1.masked.settle.2.1 := by rw [hidle]
      _ = (p.finished now).idle.1.settle.2.1 := (settle_masked _).2.symm

/-! ## The other calls -/

theorem wakeAll_masked (ts : List UInt32) : ∀ p : Pipeline Stages,
    (p.wakeAll ts).1.masked = (p.masked.wakeAll ts).1 := by
  induction ts with
  | nil => exact fun _ => rfl
  | cons t ts ih => exact fun p => ih (p.wakeFetch t).1

theorem drain_masked (p : Pipeline Stages) : p.drain.1.masked = p.masked.drain.1 := by
  have hdrained : ({ p.masked with stages := StageSet.drain p.masked.stages } :
      Pipeline Stages).isDrained = ({ p with stages := StageSet.drain p.stages } :
      Pipeline Stages).isDrained :=
    isDrained_masked { p with stages := StageSet.drain p.stages }
  unfold drain
  dsimp only
  rw [hdrained]
  split <;> rfl

theorem resume_masked (p : Pipeline Stages) (threads : Nat) :
    (p.resume threads).1.masked = (p.masked.resume threads).1 := by
  unfold resume
  dsimp only
  rw [← wakeAll_masked]
  rfl

end Pipeline

end InOrder
