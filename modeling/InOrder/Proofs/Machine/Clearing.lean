import InOrder.Proofs.Machine.Basic
import Mathlib.Data.List.TakeWhile

/-!
# How a machine clears

A cycle is calm when execute issues nothing and keeps nothing queued, sends no redirect, and the
slicer sends nothing (`Machine.Calm`). From some cycle on only such cycles follow: then the
registers behind the slicer, the queues and the units run empty one after the other, and the line
fetch finds room whenever it has a line (`Machine.eventually_cleared`).

A calm machine can still fetch. `Machine.eventually_due` says that what is in flight gets its turn.
-/

namespace InOrder

open Filter

theorem Queue.hasRoom_of_nil {α : Type} {q : Queue α} (h : q.entries = []) (hpos : 0 < q.capacity) :
    q.hasRoom = true := by
  rw [hasRoom_iff, h]
  exact hpos

/-- Units that are not filled again are empty when the last micro-op in them is done. -/
theorem eventually_units {us : Nat → List InFlight} {n a : Nat}
    (h : ∀ k ≥ a, us (k + 1) = (us k).dropWhile (Execute.isDone (n + k + 1))) :
    ∀ᶠ k in atTop, us k = [] := by
  obtain ⟨last, hlast⟩ : ∃ last, ∀ f ∈ us a, f.doneAt ≤ last := by
    generalize us a = fs
    induction fs with
    | nil => exact ⟨0, fun f hf => absurd hf (by simp)⟩
    | cons f rest ih =>
      obtain ⟨last, hlast⟩ := ih
      refine ⟨max f.doneAt last, fun g hg => ?_⟩
      rcases List.mem_cons.mp hg with rfl | hg
      · exact Nat.le_max_left ..
      · exact Nat.le_trans (hlast g hg) (Nat.le_max_right ..)
  have hmem : ∀ j, ∀ f ∈ us (a + j), f ∈ us a := by
    intro j
    induction j with
    | zero => exact fun f hf => hf
    | succ j ih =>
      intro f hf
      rw [← Nat.add_assoc, h (a + j) (Nat.le_add_right a j)] at hf
      exact ih f ((List.dropWhile_suffix _).mem hf)
  refine eventually_atTop.mpr ⟨a + last + 1, fun k hk => ?_⟩
  obtain ⟨j, rfl⟩ := Nat.exists_eq_add_of_le (show a + 1 ≤ k by omega)
  rw [Nat.add_right_comm, h (a + j) (Nat.le_add_right a j), List.dropWhile_eq_nil_iff]
  intro f hf
  have hdone := hlast f (hmem j f hf)
  exact decide_eq_true (by omega)

namespace Machine

variable {c : Config} {m : Image} {b : Nat} {x : Machine}

theorem sized_next (h : x.stages.Sized) : x.next.stages.Sized :=
  Stages.Sized.evaluate (s := { x.stages with execute := x.polled })
    ⟨h.lines, h.bundles, h.queued, h.width, h.units⟩ (x.cycles + 1) x.registers.outputs

theorem sized_after (h : x.stages.Sized) (k : Nat) : (x.after k).stages.Sized :=
  after_induction (P := fun x => x.stages.Sized) (fun _ h => sized_next h) h k

/-- What holds after each cycle from some cycle on holds from the next one on. -/
theorem eventually_next {P : Machine → Prop} (h : ∀ᶠ k in atTop, P (x.after k).next) :
    ∀ᶠ k in atTop, P (x.after k) := by
  obtain ⟨a, ha⟩ := eventually_atTop.mp h
  refine eventually_atTop.mpr ⟨a + 1, fun k hk => ?_⟩
  obtain ⟨j, rfl⟩ := Nat.exists_eq_add_of_le hk
  rw [Nat.add_right_comm, after_succ]
  exact ha (a + j) (Nat.le_add_right a j)

/-! ## Calm cycles -/

/-- Nothing is issued, sent or cut in the next cycle. -/
structure Calm (x : Machine) : Prop where
  redirect : x.executed.redirect = none
  queued : x.executed.stage.input.entries = []
  units : x.executed.stage.units = x.stages.execute.kept (x.cycles + 1)
  bundle : x.sliced.bundle = none
  prediction : x.sliced.prediction = none
  lines : x.decoded.stage.input.hasRoom = true → x.sliced.stage.input.entries = []

/-- Only lines are on their way, and there is room for them. -/
structure Cleared (x : Machine) : Prop where
  redirects : x.registers.eToF1.held = []
  predictions : x.registers.f2ToF1.held = []
  cut : x.registers.f2ToD.held = []
  bundles : x.stages.decode.input.entries = []
  decoded : x.registers.dToE.held = []
  queued : x.stages.execute.input.entries = []
  units : x.stages.execute.units = []
  lines : x.stages.slicer.input.entries = []
  room : x.sliced.stage.input.hasRoom = true

/-- What stands at the output of a register that holds nothing is a bubble. -/
theorem isBubble_output {α : Type} [Payload α] {r : Register α} (h : r.held = []) :
    Payload.isBubble r.output = true := by
  cases hlive : Payload.isBubble r.output with
  | true => rfl
  | false =>
    have hmem := Register.output_mem_held hlive
    rw [h] at hmem
    exact absurd hmem (by simp)

/-- With an empty queue execute leaves decode room. -/
theorem decoded_of_queued (hsized : x.stages.Sized) (h : x.executed.stage.input.entries = []) :
    x.decoded.bundle =
        (x.stages.decode.input.entries ++ present [x.registers.f2ToD.output]).head? ∧
      x.decoded.stage.input.entries =
        (x.stages.decode.input.entries ++ present [x.registers.f2ToD.output]).tail := by
  have hroom : x.executed.stage.input.hasRoom = true :=
    Queue.hasRoom_of_nil h (sized_next hsized).queued
  rw [decoded, hroom]
  exact x.stages.decode.evaluate_room x.registers.f2ToD.output

/-- From some cycle on decode serves a bundle in each cycle. -/
theorem serves_decode (hsized : x.stages.Sized) {a : Nat}
    (h : ∀ k ≥ a, (x.after k).executed.stage.input.entries = []) :
    Serves a (fun k => (x.after k).stages.decode.input.entries)
      fun k => present [(x.after k).registers.f2ToD.output] := by
  intro k hk
  show (x.after (k + 1)).stages.decode.input.entries = _
  rw [after_succ]
  exact (decoded_of_queued (sized_after hsized k) (h k hk)).2

/-- **A machine of which all cycles are calm is cleared from some cycle on.** -/
theorem eventually_cleared (h : x.Sound c m b) (hsized : x.stages.Sized)
    (hcalm : ∀ᶠ k in atTop, (x.after k).Calm) : ∀ᶠ k in atTop, (x.after k).Cleared := by
  obtain ⟨a, ha⟩ := eventually_atTop.mp hcalm
  have hredirects : ∀ᶠ k in atTop, (x.after k).registers.eToF1.held = [] :=
    x.runs_eToF1.eventually_held h.registers.redirects (hcalm.mono fun _ h => h.redirect)
  have hpredictions : ∀ᶠ k in atTop, (x.after k).registers.f2ToF1.held = [] :=
    x.runs_f2ToF1.eventually_held h.registers.predictions (hcalm.mono fun _ h => h.prediction)
  have hcut : ∀ᶠ k in atTop, (x.after k).registers.f2ToD.held = [] :=
    x.runs_f2ToD.eventually_held h.registers.cut (hcalm.mono fun _ h => h.bundle)
  have hbundles : ∀ᶠ k in atTop, (x.after k).stages.decode.input.entries = [] :=
    (serves_decode hsized fun k hk => (ha k hk).queued).eventually_nil
      (hcut.mono fun k hk => present_bubble (isBubble_output hk))
  have hpassed : ∀ᶠ k in atTop, (x.after k).decoded.bundle = none ∧
      (x.after k).decoded.stage.input.entries = [] := by
    filter_upwards [hcalm, hcut, hbundles] with k hk hcut hbundles
    have hdecoded := decoded_of_queued (sized_after hsized k) hk.queued
    rwa [hbundles, present_bubble (isBubble_output hcut)] at hdecoded
  have hdecoded : ∀ᶠ k in atTop, (x.after k).registers.dToE.held = [] :=
    x.runs_dToE.eventually_held h.registers.decoded (hpassed.mono fun _ h => h.1)
  have hqueued : ∀ᶠ k in atTop, (x.after k).stages.execute.input.entries = [] :=
    eventually_next (P := fun x => x.stages.execute.input.entries = [])
      (hcalm.mono fun _ h => h.queued)
  have hunits : ∀ᶠ k in atTop, (x.after k).stages.execute.units = [] := by
    refine eventually_units (n := x.cycles) (a := a) fun k hk => ?_
    rw [after_succ, ← cycles_after]
    exact (ha k hk).units
  have hcutting : ∀ᶠ k in atTop, (x.after k).sliced.stage.input.entries = [] := by
    filter_upwards [hcalm, hpassed] with k hk hpassed
    exact hk.lines (Queue.hasRoom_of_nil hpassed.2 (sized_next (sized_after hsized k)).bundles)
  have hlines : ∀ᶠ k in atTop, (x.after k).stages.slicer.input.entries = [] :=
    eventually_next (P := fun x => x.stages.slicer.input.entries = []) hcutting
  filter_upwards [hredirects, hpredictions, hcut, hbundles, hdecoded, hqueued, hunits, hlines,
    hcutting] with k h₁ h₂ h₃ h₄ h₅ h₆ h₇ h₈ h₉
  exact ⟨h₁, h₂, h₃, h₄, h₅, h₆, h₇, h₈,
    Queue.hasRoom_of_nil h₉ (sized_next (sized_after hsized k)).lines⟩

/-! ## Lines in flight -/

/-- **What is in flight in a cleared machine stays there until it is due.** -/
theorem eventually_due {a : Nat} (hcleared : ∀ k ≥ a, (x.after k).Cleared) {p : PendingLine} :
    ∀ {k : Nat}, a ≤ k → (x.after k).stages.lineFetch.pending = some p →
      ∃ j ≥ k, (x.after j).stages.lineFetch.pending = some p ∧
        p.readyAt ≤ (x.after j).cycles + 1 := by
  suffices hwait : ∀ (d k : Nat), a ≤ k → p.readyAt ≤ (x.after k).cycles + 1 + d →
      (x.after k).stages.lineFetch.pending = some p →
      ∃ j ≥ k, (x.after j).stages.lineFetch.pending = some p ∧
        p.readyAt ≤ (x.after j).cycles + 1 from
    fun {k} hk hp => hwait p.readyAt k hk (Nat.le_add_left ..) hp
  intro d
  induction d with
  | zero =>
    intro k _ hdue hp
    exact ⟨k, Nat.le_refl k, hp, hdue⟩
  | succ d ih =>
    intro k hk hle hp
    by_cases hdue : p.readyAt ≤ (x.after k).cycles + 1
    · exact ⟨k, Nat.le_refl k, hp, hdue⟩
    · have hcleared := hcleared k hk
      have hstage : (x.after k).fetched.stage = (x.after k).stages.lineFetch :=
        (LineFetch.evaluate_of_waiting (isBubble_output hcleared.redirects)
          (isBubble_output hcleared.predictions) hp fun h => hdue h.1).1
      have hnext : (x.after (k + 1)).stages.lineFetch.pending = some p := by
        rw [after_succ, ← hp, ← hstage]
        rfl
      have hcycles : (x.after (k + 1)).cycles = (x.after k).cycles + 1 := by
        rw [after_succ]
        rfl
      obtain ⟨j, hj, hfound⟩ := ih (k + 1) (Nat.le_succ_of_le hk) (by omega) hnext
      exact ⟨j, Nat.le_of_succ_le hj, hfound⟩

end Machine

end InOrder
