import InOrder.Proofs.Isolation
import InOrder.Proofs.Session

/-!
# The evaluations of a run

What a run did is in its evaluations: the pipeline before each, and the tick. They are listed in
order, for a pipeline that is called directly (`Pipeline.evaluations`) and for the calls of a
session (`Session.evaluations`), where a step is an evaluation if the pipeline runs.

* `Pipeline.log_induction` and `Session.log_induction`: what holds at the start of a list of
  evaluations, and is kept where one is added and by all other calls, holds at its end.
-/

namespace InOrder

/-- A pipeline that is evaluated at a tick. -/
structure Evaluation where
  pipeline : Pipeline Stages
  now : Nat

/-- What the stages write in an evaluation. -/
def Evaluation.writes (v : Evaluation) : Writes := (v.pipeline.struckWork v.now).writes

namespace Pipeline

/-- The evaluations in some calls. -/
def evaluations (p : Pipeline Stages) : List Order → List Evaluation
  | [] => []
  | o :: os => (o.tick?.map fun now => ⟨p, now⟩).toList ++ (p.perform o).evaluations os

/-- **What an evaluation keeps, with the list of all before it, and any other call keeps**, holds
after all calls. -/
theorem log_induction {P : Pipeline Stages → List Evaluation → Prop}
    (hevaluate : ∀ p vs now, P p vs → P (p.evaluate now).pipeline (vs ++ [⟨p, now⟩]))
    (hcall : ∀ p vs o, Order.tick? o = none → P p vs → P (p.perform o) vs) (orders : List Order) :
    ∀ {p : Pipeline Stages} {vs : List Evaluation}, P p vs →
      P (p.performAll orders) (vs ++ p.evaluations orders) := by
  induction orders with
  | nil => exact fun {p vs} h => (List.append_nil vs).symm ▸ h
  | cons o os ih =>
    intro p vs h
    rw [evaluations, ← List.append_assoc]
    cases ho : o.tick? with
    | none =>
      refine ih ?_
      rw [Option.map_none, Option.toList_none, List.append_nil]
      exact hcall p vs o ho h
    | some now =>
      obtain rfl := Order.eq_evaluate ho
      exact ih (hevaluate p vs now h)

/-- Each evaluation has its tick. -/
theorem map_now_evaluations (orders : List Order) :
    ∀ p : Pipeline Stages, (p.evaluations orders).map Evaluation.now = ticks orders := by
  induction orders with
  | nil => exact fun _ => rfl
  | cons o os ih =>
    intro p
    rw [evaluations, List.map_append, ih, ticks, ticks, List.filterMap_cons]
    cases o.tick? <;> rfl

end Pipeline

namespace Session

/-- The evaluation in a step. -/
def evaluationOfStep (s : Session) : List Evaluation :=
  if s.pipeline.running then [⟨s.pipeline, s.simulator.tick + s.simulator.period⟩] else []

/-- The evaluations in a run to a limit. -/
def evaluationsOfRun (s : Session) (limit : Nat) : List Evaluation :=
  if s.simulator.tick < limit ∧ s.pipeline.running = true then
    s.evaluationOfStep ++ s.step.evaluationsOfRun limit
  else []
termination_by limit - s.simulator.tick
decreasing_by
  have hperiod := s.simulator.period_pos
  have htick := s.tick_step
  omega

/-- The evaluations in a call. -/
def evaluationsOf (s : Session) : Call → List Evaluation
  | .step => s.evaluationOfStep
  | .run limit => s.evaluationsOfRun limit
  | _ => []

/-- The evaluations in some calls. -/
def evaluations (s : Session) : List Call → List Evaluation
  | [] => []
  | call :: calls => s.evaluationsOf call ++ (s.perform call).evaluations calls

section Induction

variable {P : Session → List Evaluation → Prop}

theorem log_induction_run
    (hstep : ∀ s vs, P s vs → P s.step (vs ++ s.evaluationOfStep)) (limit : Nat) {s : Session}
    {vs : List Evaluation} (h : P s vs) : P (s.run limit) (vs ++ s.evaluationsOfRun limit) := by
  rw [evaluationsOfRun]
  by_cases hgoes : s.simulator.tick < limit ∧ s.pipeline.running = true
  · have hperiod := s.simulator.period_pos
    have htick := s.tick_step
    rw [run_of_goes hgoes, if_pos hgoes, ← List.append_assoc]
    exact log_induction_run hstep limit (hstep s vs h)
  · rw [run_of_ends hgoes, if_neg hgoes, List.append_nil]
    exact h
termination_by limit - s.simulator.tick
decreasing_by omega

/-- **What a step keeps, with the list of all evaluations before it, and any other call keeps**,
holds after all calls. -/
theorem log_induction (hstep : ∀ s vs, P s vs → P s.step (vs ++ s.evaluationOfStep))
    (hwake : ∀ s vs t, P s vs → P (s.wake t) vs) (hwakeAll : ∀ s vs, P s vs → P s.wakeAll vs)
    (hdrain : ∀ s vs, P s vs → P s.drain vs) (hresume : ∀ s vs, P s vs → P s.resume vs)
    (calls : List Call) : ∀ {s : Session} {vs : List Evaluation}, P s vs →
      P (s.after calls) (vs ++ s.evaluations calls) := by
  induction calls with
  | nil => exact fun {s vs} h => (List.append_nil vs).symm ▸ h
  | cons call calls ih =>
    intro s vs h
    rw [evaluations, ← List.append_assoc]
    refine ih ?_
    cases call with
    | step => exact hstep s vs h
    | run limit => exact log_induction_run hstep limit h
    | wake t => exact (List.append_nil vs).symm ▸ hwake s vs t h
    | wakeAll => exact (List.append_nil vs).symm ▸ hwakeAll s vs h
    | drain => exact (List.append_nil vs).symm ▸ hdrain s vs h
    | resume => exact (List.append_nil vs).symm ▸ hresume s vs h

/-- **What an evaluation of the pipeline keeps, with the list of all before it, and any other call
keeps**, holds of the pipeline after all calls. -/
theorem pipeline_log_induction {P : Pipeline Stages → List Evaluation → Prop}
    (hevaluate : ∀ p vs now, P p vs → P (p.evaluate now).pipeline (vs ++ [⟨p, now⟩]))
    (hwake : ∀ p vs t, P p vs → P (p.wakeFetch t).1 vs) (hdrain : ∀ p vs, P p vs → P p.drain.1 vs)
    (hresume : ∀ p vs n, P p vs → P (p.resume n).1 vs) (calls : List Call) {s : Session}
    (h : P s.pipeline []) : P (s.after calls).pipeline (s.evaluations calls) := by
  show P _ ([] ++ s.evaluations calls)
  refine log_induction (P := fun s vs => P s.pipeline vs) (fun s vs h => ?_)
    (fun _ _ t h => hwake _ _ t h)
    (fun s vs h =>
      Pipeline.wakeAll_induction (P := fun p => P p vs) (fun _ t h => hwake _ _ t h) _ h)
    (fun _ _ h => hdrain _ _ h) (fun _ _ h => hresume _ _ _ h) calls h
  rw [evaluationOfStep]
  cases hrun : s.pipeline.running with
  | false =>
    rw [(pipeline_step_of_stopped hrun).1, if_neg Bool.false_ne_true, List.append_nil]
    exact h
  | true =>
    rw [(pipeline_step hrun).1, if_pos rfl]
    exact hevaluate _ _ _ h

end Induction

end Session

end InOrder
