import InOrder.Proofs.Stage.LineFetch
import InOrder.Proofs.Stage.Execute
import InOrder.Stage.Set
import Mathlib.Data.List.Forall2

/-!
# Stages at another time

The stages read the number of a cycle only to compare it with numbers of cycles that they wrote
down: that of the cycle in which a line arrives, and of those in which units are done. So stages in
which all these are `d` greater work in the same way `d` cycles later (`Stages.evaluate_later`).

Predictions may differ there that no thread takes up: those of a stream that its thread has left
(`LineFetch.Outdated`).
-/

namespace InOrder

/-! ## Line fetch -/

namespace LineFetch

/-- The stage as it stands `d` cycles later, if nothing happens until then. -/
def later (d : Nat) (s : LineFetch) : LineFetch :=
  { s with pending := s.pending.map fun p => { p with readyAt := p.readyAt + d } }

variable (s : LineFetch) (d cycle : Nat) (branch prediction : Redirect) (room : Bool)

theorem keepPending_later (keep : Line → Bool) :
    (s.later d).keepPending keep = (s.keepPending keep).later d := by
  cases hpending : s.pending with
  | none => simp [later, keepPending, hpending]
  | some p =>
    cases hkeep : keep p.line <;> simp [later, keepPending, hpending, Option.filter, hkeep]

theorem redirect_later :
    (s.later d).redirect branch prediction =
      ((s.redirect branch prediction).1.later d, (s.redirect branch prediction).2) := by
  have hthread : ∀ t, (s.later d).thread? t = s.thread? t := fun _ => rfl
  have hset : ∀ t th keep, ((s.later d).setThread t th).keepPending keep =
      ((s.setThread t th).keepPending keep).later d := fun t th keep =>
    keepPending_later (s.setThread t th) d keep
  unfold redirect changeStream applyPrediction
  simp only [hthread, hset]
  split
  · split
    · split <;> rfl
    · rfl
  · split
    · split
      · rfl
      · split <;> rfl
    · rfl

theorem deliver_later :
    (s.later d).deliver (cycle + d) room = ((s.deliver cycle room).1.later d,
      (s.deliver cycle room).2) := by
  cases hpending : s.pending with
  | none => simp [deliver, later, hpending]
  | some p =>
    by_cases hdue : p.readyAt ≤ cycle ∧ room = true <;> simp [deliver, later, hpending, hdue]

theorem requestNext_later :
    (s.later d).requestNext (cycle + d) = ((s.requestNext cycle).1.later d,
      (s.requestNext cycle).2) := by
  have hpick : (s.later d).pick = s.pick := rfl
  have hthreads : (s.later d).threads = s.threads := rfl
  have hrequest : ∀ t th, s.pending = none →
      (s.later d).request t th (cycle + d) = (s.request t th cycle).later d := by
    intro t th hpending
    simp only [request, later, hpending, Option.map_some, Nat.add_right_comm]
  cases hpending : s.pending with
  | some p => simp [requestNext, later, hpending]
  | none =>
    have hlater : (s.later d).pending = none := by rw [later, hpending]; rfl
    unfold requestNext
    simp only [hlater, hpending, hpick, hthreads]
    split
    · rfl
    · split
      · rfl
      · rw [hrequest _ _ hpending]

/-- **The stage works in the same way at another time.** -/
theorem evaluate_later :
    (s.later d).evaluate (cycle + d) branch prediction room =
      { s.evaluate cycle branch prediction room with
        stage := (s.evaluate cycle branch prediction room).stage.later d } := by
  have hpending : ∀ s : LineFetch, (s.later d).pending.isSome = s.pending.isSome :=
    fun s => Option.isSome_map
  unfold evaluate
  simp only [redirect_later, deliver_later, requestNext_later, hpending]

theorem wake_later (t : UInt32) : (s.later d).wake t = ((s.wake t).1.later d, (s.wake t).2) := by
  have hthread : (s.later d).thread? t = s.thread? t := rfl
  unfold wake
  rw [hthread]
  split
  · rfl
  · split <;> rfl

/-! ### Outdated predictions -/

variable {s branch prediction} {prediction' : Redirect}

/-- The prediction is of a stream that its thread has left. -/
def Outdated (s : LineFetch) (r : Redirect) : Prop :=
  r.isLive = true → ∀ th, s.thread? r.thread = some th →
    ordinal r.newStreamSeq < ordinal th.streamSeq

theorem Outdated.of_bubble {r : Redirect} (h : Payload.isBubble r = true) : s.Outdated r :=
  fun hlive => absurd hlive (by simp [Redirect.not_isLive h])

/-- A prediction stays outdated while its thread only goes on to later streams. -/
theorem Outdated.mono {s' : LineFetch} {r : Redirect} (h : s.Outdated r)
    (hgrows : ∀ th', s'.thread? r.thread = some th' → ∃ th, s.thread? r.thread = some th ∧
      ordinal th.streamSeq ≤ ordinal th'.streamSeq) : s'.Outdated r := by
  intro hlive th' hth'
  obtain ⟨th, hth, hle⟩ := hgrows th' hth'
  exact Nat.lt_of_lt_of_le (h hlive th hth) hle

/-- To wake a thread does not change its stream. -/
theorem Outdated.wake {r : Redirect} (h : s.Outdated r) (t : UInt32) : (s.wake t).1.Outdated r := by
  refine h.mono fun th' hth' => ?_
  cases hth : s.thread? t with
  | none =>
    rw [wake_of_none hth] at hth'
    exact ⟨th', hth', Nat.le_refl _⟩
  | some th =>
    by_cases heq : t = r.thread
    · subst heq
      rw [thread?_wake_self hth] at hth'
      exact ⟨th, hth, Nat.le_of_eq (Option.some.inj hth' ▸ rfl)⟩
    · rw [thread?_wake_of_ne heq] at hth'
      exact ⟨th', hth', Nat.le_refl _⟩

/-- An outdated prediction is without effect. -/
theorem redirect_of_outdated (h : s.Outdated prediction) :
    s.redirect branch prediction = if branch.isLive then s.changeStream branch else (s, []) := by
  unfold redirect
  split
  · rfl
  · split
    · rename_i hlive
      cases hth : s.thread? prediction.thread with
      | none => simp only [applyPrediction, hth]
      | some th =>
        have hstream : prediction.newStreamSeq ≠ th.streamSeq := fun heq =>
          Nat.lt_irrefl _ (heq ▸ h hlive th hth)
        simp only [applyPrediction, hth, hstream, and_false, if_false]
    · rfl

/-- Two predictions are the same to the stage: they are equal, or both are outdated. -/
def Matches (s : LineFetch) (r r' : Redirect) : Prop := r = r' ∨ s.Outdated r ∧ s.Outdated r'

theorem Matches.imp {s' : LineFetch} (hkeeps : ∀ r, s.Outdated r → s'.Outdated r) {r r' : Redirect}
    (h : s.Matches r r') : s'.Matches r r' :=
  Or.imp_right (And.imp (hkeeps r) (hkeeps r')) h

/-- Predictions that match outdated ones are outdated. -/
theorem outdated_of_matches {rs rs' : List Redirect} (h : List.Forall₂ s.Matches rs rs')
    (hold : ∀ r ∈ rs, s.Outdated r) : ∀ r ∈ rs', s.Outdated r := by
  induction h with
  | nil => exact hold
  | @cons r r' rs rs' hmatches _ ih =>
    have hrest := ih fun x hx => hold x (List.mem_cons_of_mem r hx)
    intro x hx
    rcases List.mem_cons.mp hx with rfl | hx
    · rcases hmatches with rfl | ⟨-, hlast⟩
      · exact hold r List.mem_cons_self
      · exact hlast
    · exact hrest x hx

/-- Outdated predictions match. -/
theorem matches_of_outdated {rs rs' : List Redirect} (hlength : rs.length = rs'.length)
    (hold : ∀ r ∈ rs, s.Outdated r) (hold' : ∀ r ∈ rs', s.Outdated r) :
    List.Forall₂ s.Matches rs rs' := by
  refine List.forall₂_iff_zip.mpr ⟨hlength, fun {r r'} hmem => ?_⟩
  obtain ⟨hr, hr'⟩ := List.of_mem_zip hmem
  exact .inr ⟨hold r hr, hold' r' hr'⟩

theorem evaluate_of_matches (h : s.Matches prediction prediction') :
    s.evaluate cycle branch prediction room = s.evaluate cycle branch prediction' room := by
  rcases h with rfl | ⟨hold, hold'⟩
  · rfl
  · unfold evaluate
    rw [redirect_of_outdated hold, redirect_of_outdated hold']

end LineFetch

/-! ## Execute -/

namespace InFlight

/-- The micro-op in its unit as it stands `d` cycles later. -/
def later (d : Nat) (f : InFlight) : InFlight := { f with doneAt := f.doneAt + d }

theorem isDone_later (d cycle : Nat) (f : InFlight) :
    Execute.isDone (cycle + d) (f.later d) = Execute.isDone cycle f := by
  simp [Execute.isDone, later]

end InFlight

/-- Issue as it stands `d` cycles later. -/
def Issue.later (d : Nat) (s : Issue) : Issue := { s with units := s.units.map (.later d) }

theorem issueOps_later (lim : IssueLimits) (t : UInt32) (d : Nat) :
    ∀ (os : List MicroOp) (s : Issue),
      issueOps { lim with doneAt := lim.doneAt + d } t os (s.later d) =
        ((issueOps lim t os s).1.later d, (issueOps lim t os s).2)
  | [], _ => rfl
  | o :: rest, s => by
    have hunits : (s.later d).units.length = s.units.length := List.length_map _
    have hsquash : (s.later d).squash = s.squash.later d := rfl
    have hstart : ∀ th, (s.later d).start (lim.doneAt + d) t th o =
        (s.start lim.doneAt t th o).later d := by
      intro th
      simp only [Issue.start, Issue.later, List.map_append]
      rfl
    have hthreads : (s.later d).threads = s.threads := rfl
    rw [issueOps, issueOps]
    simp only [hthreads, hunits, hsquash, hstart, issueOps_later lim t d rest]
    split
    · rfl
    · split
      · rfl
      · split
        · rfl
        · split <;> rfl

theorem issueQueue_later (lim : IssueLimits) (d : Nat) : ∀ (bs : List Bundle) (s : Issue),
    issueQueue { lim with doneAt := lim.doneAt + d } bs (s.later d) =
      ((issueQueue lim bs s).1, (issueQueue lim bs s).2.1.later d, (issueQueue lim bs s).2.2)
  | [], _ => rfl
  | b :: rest, s => by
    have hindex : (s.later d).index = s.index := rfl
    rw [issueQueue, issueQueue]
    simp only [hindex, issueOps_later]
    cases hops : issueOps lim b.thread (b.insts.drop s.index) s with
    | mk i e =>
      cases e with
      | spent => exact issueQueue_later lim d rest { i with index := 0 }
      | blocked => rfl
      | raised r => rfl

namespace Execute

/-- The stage as it stands `d` cycles later, if nothing happens until then but that its load and
store queue is asked for faults. -/
def later (d : Nat) (queue : MemoryQueue) (s : Execute) : Execute :=
  { s with units := s.units.map (.later d), queue }

variable (s : Execute) (d cycle : Nat) (queue : MemoryQueue) (b : Bundle)

theorem retire_later :
    (s.later d queue).retire (cycle + d) =
      ((s.retire cycle).1.later d queue, (s.retire cycle).2) := by
  have hdone : isDone (cycle + d) ∘ InFlight.later d = isDone cycle :=
    funext (InFlight.isDone_later d cycle)
  have hretired : InFlight.retired ∘ InFlight.later d = InFlight.retired := rfl
  simp only [retire, later, List.takeWhile_map, List.dropWhile_map, hdone, List.map_map, hretired]

theorem issue_later :
    (s.later d queue).issue (cycle + d) =
      ((s.issue cycle).1.later d queue, (s.issue cycle).2) := by
  have hqueue := issueQueue_later ⟨s.draining, s.unitCount, cycle + s.latency⟩ d s.input.entries
    ⟨s.threads, s.units, s.squashed, s.issueIndex, []⟩
  have hdone : cycle + d + s.latency = cycle + s.latency + d := Nat.add_right_comm ..
  unfold issue
  rw [show (s.later d queue).latency = s.latency from rfl, hdone]
  exact congrArg (fun r => (({ s with
    input := s.input.withEntries r.1
    threads := r.2.1.threads, units := r.2.1.units, squashed := r.2.1.squashed
    issueIndex := r.2.1.index, queue } : Execute), r.2.2, r.2.1.addrs)) hqueue

theorem haltNext_later :
    (s.later d queue).haltNext = (s.haltNext.1.later d queue, s.haltNext.2) := by
  have hthreads : (s.later d queue).threads = s.threads := rfl
  unfold haltNext
  rw [hthreads]
  split
  · rfl
  · split <;> rfl

theorem orHalt_later (raised : Option Redirect) :
    (s.later d queue).orHalt raised =
      ((s.orHalt raised).1.later d queue, (s.orHalt raised).2) := by
  cases raised with
  | none => exact s.haltNext_later d queue
  | some r => rfl

/-- What a cycle gives, from what issue and the halt after it give. -/
theorem evaluate_eq :
    s.evaluate cycle b =
      let i := (s.loaded cycle b).issue cycle
      let out := i.1.orHalt i.2.1
      { stage := out.1, redirect := out.2, retired := (s.retire cycle).2, addrs := i.2.2
        busy := out.2.isSome || !(s.retire cycle).2.isEmpty ||
          out.1.threads.any (·.haltPending) || !out.1.isDrained
        events := match out.2 with
          | some r => [.redirected out.1.name r]
          | none => [] } := by
  unfold orHalt
  rfl

/-- **The stage works in the same way at another time.** -/
theorem evaluate_later :
    (s.later d queue).evaluate (cycle + d) b =
      { s.evaluate cycle b with stage := (s.evaluate cycle b).stage.later d queue } := by
  have hretire := s.retire_later d cycle queue
  have hloaded : (s.later d queue).loaded (cycle + d) b = (s.loaded cycle b).later d queue := by
    unfold loaded
    rw [hretire]
    rfl
  have hdrained : ∀ s : Execute, (s.later d queue).isDrained = s.isDrained := by
    intro s
    simp only [isDrained, later, List.isEmpty_map]
  have hthreads : ∀ s : Execute, (s.later d queue).threads = s.threads := fun _ => rfl
  have hname : ∀ s : Execute, (s.later d queue).name = s.name := fun _ => rfl
  rw [evaluate_eq, evaluate_eq]
  simp only [hloaded, issue_later, orHalt_later, hretire, hdrained, hthreads, hname]

theorem flipUnit_later :
    (s.later d queue).flipUnit = (s.flipUnit.1.later d queue, s.flipUnit.2) := by
  cases hunits : s.units with
  | nil => simp only [flipUnit, later, hunits, List.map_nil]
  | cons f rest => simp only [flipUnit, later, hunits, List.map_cons]; rfl

end Execute

/-! ## All four -/

namespace Stages

/-- The stages as they stand `d` cycles later, if nothing happens until then. -/
def later (d : Nat) (queue : MemoryQueue) (s : Stages) : Stages :=
  { s with lineFetch := s.lineFetch.later d, execute := s.execute.later d queue }

/-- **The stages work in the same way at another time**, whatever outdated predictions come. -/
theorem evaluate_later (s : Stages) (d cycle : Nat) (queue : MemoryQueue) (o : Outputs)
    {prediction : Redirect} (h : s.lineFetch.Matches o.f2ToF1 prediction) :
    (s.later d queue).evaluate (cycle + d) { o with f2ToF1 := prediction } =
      { s.evaluate cycle o with stages := (s.evaluate cycle o).stages.later d queue } := by
  have hinput : ∀ s : Execute, (s.later d queue).input = s.input := fun _ => rfl
  simp only [evaluate, later, Execute.evaluate_later, LineFetch.evaluate_later, hinput,
    LineFetch.evaluate_of_matches _ _ h]

end Stages

end InOrder
