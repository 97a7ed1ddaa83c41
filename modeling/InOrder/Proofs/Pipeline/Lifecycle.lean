import InOrder.Proofs.Activity
import InOrder.Proofs.Pipeline.Sound

/-!
# The lifecycle of a pipeline

At the end of a cycle a pipeline may stop, for want of work or because a drain is complete. In a
cycle without faults that depends on the pipeline as the stages leave it, `Pipeline.worked`.

* `Pipeline.evaluate_of_due`: while a drain is owed its signal the pipeline goes on until it is
  drained, and then the host is told.
* `Pipeline.evaluate_of_idling`: otherwise it goes on as long as something is active.
-/

namespace InOrder

namespace Pipeline

variable {p : Pipeline Stages}

/-- The pipeline when its stages have worked and its registers have moved on. -/
def worked (p : Pipeline Stages) (now : Nat) : Pipeline Stages :=
  let ran := ({ p.begin with stages := p.polled now } : Pipeline Stages).runStages.1
  ({ ran with registers := ran.registers.advance } : Pipeline Stages).account now
    p.registers.snapshot

/-- **A cycle without faults ends with the work of its stages**; then the lifecycle is seen to. -/
theorem evaluate_eq_worked (hwaiting : p.faults.waiting = []) (hunits : p.unitMode = none)
    (now : Nat) :
    (p.evaluate now).pipeline = (p.worked now).idle.1.settle.1 ∧
      (p.evaluate now).drainDone = (p.worked now).idle.1.settle.2.1 := by
  have hinjected : (p.begin.inject now).1 = { p.begin with stages := p.polled now } :=
    inject_eq (p := p.begin) hwaiting hunits now
  unfold evaluate worked
  simp only [hinjected]
  exact ⟨rfl, rfl⟩

/-- The stages note whether they worked, and leave the rest of the lifecycle as it is. -/
theorem lifecycle_worked (p : Pipeline Stages) (now : Nat) :
    (p.worked now).running = p.running ∧ (p.worked now).signalDue = p.signalDue ∧
      (p.worked now).allowIdling = p.allowIdling ∧
      (p.worked now).activity = (p.activity.noteIf (p.work now).busy).advance :=
  ⟨rfl, rfl, rfl, rfl⟩

/-- Emptiness is a matter of stages and registers. -/
theorem isDrained_congr {q : Pipeline Stages} (hstages : p.stages = q.stages)
    (hregisters : p.registers = q.registers) : p.isDrained = q.isDrained := by
  rw [isDrained, isDrained, hstages, hregisters]

/-- While a signal is owed, no want of work stops the pipeline. -/
theorem idle_of_due (h : p.signalDue = true) :
    p.idle.1.running = p.running ∧ p.idle.1.signalDue = true := by
  unfold idle
  split
  · simp only [h, Bool.not_true, Bool.and_false, Bool.not_false, Bool.and_true, and_self]
  · exact ⟨rfl, h⟩

/-- **While a signal is owed the pipeline goes on until it is drained**; then it stops, and the host
is told. -/
theorem evaluate_of_due (hwaiting : p.faults.waiting = []) (hunits : p.unitMode = none)
    (hdue : p.signalDue = true) (now : Nat) :
    ((p.evaluate now).pipeline.isDrained = true →
      (p.evaluate now).drainDone = true ∧ (p.evaluate now).pipeline.running = false ∧
        (p.evaluate now).pipeline.drainState = .drained) ∧
    ((p.evaluate now).pipeline.isDrained = false →
      (p.evaluate now).drainDone = false ∧ (p.evaluate now).pipeline.running = p.running ∧
        (p.evaluate now).pipeline.signalDue = true) := by
  obtain ⟨hpipeline, hdone⟩ := evaluate_eq_worked hwaiting hunits now
  obtain ⟨hrunning, hidle⟩ := idle_of_due (p := p.worked now) hdue
  rw [hpipeline, hdone]
  unfold settle
  rw [if_pos hidle]
  cases hdrained : (p.worked now).idle.1.isDrained with
  | true =>
    rw [if_pos rfl]
    refine ⟨fun _ => ⟨rfl, rfl, rfl⟩, fun hnot => ?_⟩
    have hsame := hdrained.symm.trans (isDrained_congr rfl rfl)
    exact absurd (hsame.trans hnot) (by simp)
  | false =>
    rw [if_neg Bool.false_ne_true]
    refine ⟨fun hnot => ?_, fun _ => ⟨rfl, hrunning, hidle⟩⟩
    exact absurd (hdrained.symm.trans hnot) (by simp)

/-- A pipeline that may idle stops when nothing is active, and takes all marks away. -/
theorem idle_of_idling (hdue : p.signalDue = false) (hidling : p.allowIdling = true) :
    p.idle.1.signalDue = false ∧ p.idle.1.activity = p.activity.unmarkAll ∧
      p.idle.1.running = (p.running && p.activity.isActive) := by
  unfold idle
  rw [if_pos hidling]
  refine ⟨hdue, rfl, ?_⟩
  simp only [hdue, Bool.not_false, Bool.and_true, Bool.not_not]

/-- Without a signal owed nothing is completed. -/
theorem settle_of_none (h : p.signalDue = false) : p.settle.1 = p := by
  rw [settle, h, if_neg Bool.false_ne_true]

/-- **A pipeline that may idle goes on as long as something is active.** It holds no mark longer
than for a cycle. -/
theorem evaluate_of_idling {n : Nat} (hwaiting : p.faults.waiting = []) (hunits : p.unitMode = none)
    (hdue : p.signalDue = false) (hidling : p.allowIdling = true) (ha : p.activity.Tallied n)
    (now : Nat) :
    (p.evaluate now).pipeline.signalDue = false ∧
      (p.evaluate now).pipeline.activity.Tallied n ∧
      (p.evaluate now).pipeline.activity.marks = [] ∧
      (p.evaluate now).pipeline.activity.past = (p.activity.past ++ [(p.work now).busy]).tail ∧
      ((p.evaluate now).pipeline.running = false ↔ p.running = false ∨ p.activity.marks = [] ∧
        ∀ busy ∈ (p.activity.past ++ [(p.work now).busy]).tail, busy = false) := by
  obtain ⟨hrunning, hsignal, hallow, hactivity⟩ := p.lifecycle_worked now
  obtain ⟨hdue', hactivity', hrunning'⟩ :=
    idle_of_idling (hsignal.trans hdue) (hallow.trans hidling)
  obtain ⟨htallied, hpast, hmarks⟩ := ha.advance (p.work now).busy
  obtain ⟨hunmarked, hpast', hmarks'⟩ := htallied.unmarkAll
  rw [(evaluate_eq_worked hwaiting hunits now).1, settle_of_none hdue', hactivity', hrunning',
    hactivity, hrunning, Bool.and_eq_false_iff, htallied.isActive_eq_false_iff, hpast, hmarks]
  exact ⟨hdue', hunmarked, hmarks', hpast'.trans hpast, Iff.rfl⟩

end Pipeline

end InOrder
