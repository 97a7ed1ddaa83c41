import InOrder.Proofs.Stage.Conserved
import InOrder.Proofs.Stage.Timing

/-!
# Issue, one turn at a time

Issue goes in turns: a turn drops a bundle that is used up, squashes the next micro-op or issues it,
or is the last (`Issue.turn`). `issueQueue` goes from bundle to bundle instead, and through the
micro-ops of each; it comes to the same (`Issue.issueQueue_turn`). A turn that is not the last uses
up a bundle or a micro-op, so there is an end to the turns (`Issue.turns_eq`).

Only the last turn can raise a stream number, so whether a micro-op is issued or squashed is said by
the threads as they were when issue began (`Issue.Going`).

* `Execute.issue_exhausts`: whatever bundles the stage has been fed, whole or corrupted, issue ends,
  and what it leaves at the front of the queue is a micro-op that must wait.
-/

namespace InOrder

/-- What a turn of issue leads to: another turn, or the end. -/
inductive IssueTurn where
  | again (bundles : List Bundle) (s : Issue)
  | last (bundles : List Bundle) (s : Issue) (redirect : Option Redirect)

/-- The micro-op is of a thread that there is, in its stream. -/
def IsCurrent (threads : List ExecThread) (p : UInt32 × MicroOp) : Prop :=
  threads[p.1.toNat]?.map (·.streamSeq) = some p.2.streamSeq

instance (threads : List ExecThread) : DecidablePred (IsCurrent threads) := fun p =>
  inferInstanceAs (Decidable (threads[p.1.toNat]?.map (·.streamSeq) = some p.2.streamSeq))

namespace Issue

/-- A turn of issue looks at the next micro-op of the oldest bundle. -/
def turn (lim : IssueLimits) : List Bundle → Issue → IssueTurn
  | [], s => .last [] s none
  | b :: rest, s =>
    match b.insts[s.index]? with
    | none => .again rest { s with index := 0 }
    | some o =>
      match s.threads[b.thread.toNat]? with
      | none => .again (b :: rest) s.squash
      | some th =>
        if o.streamSeq ≠ th.streamSeq then .again (b :: rest) s.squash
        else if lim.draining = true ∨ lim.units ≤ s.units.length then .last (b :: rest) s none
        else
          match th.issue b.thread o with
          | (th, some r) => .last (b :: rest) (s.start lim.doneAt b.thread th o) (some r)
          | (th, none) => .again (b :: rest) (s.start lim.doneAt b.thread th o)

/-- What so many turns lead to, if the last of them is among them. -/
def turns (lim : IssueLimits) :
    Nat → List Bundle → Issue → Option (List Bundle × Issue × Option Redirect)
  | 0, _, _ => none
  | n + 1, bs, s =>
    match turn lim bs s with
    | .again bs s => turns lim n bs s
    | .last bs s r => some (bs, s, r)

/-- The micro-op `o` is next, and its thread is in its stream. -/
structure Offers (b : Bundle) (s : Issue) (o : MicroOp) (th : ExecThread) : Prop where
  next : b.insts[s.index]? = some o
  thread : s.threads[b.thread.toNat]? = some th
  stream : o.streamSeq = th.streamSeq

/-- What a turn can do. -/
inductive Turned (lim : IssueLimits) : List Bundle → Issue → IssueTurn → Prop
  | stop (s : Issue) : Turned lim [] s (.last [] s none)
  | drop {b : Bundle} (rest : List Bundle) {s : Issue} (hspent : b.insts.length ≤ s.index) :
    Turned lim (b :: rest) s (.again rest { s with index := 0 })
  | squash {b : Bundle} (rest : List Bundle) {s : Issue} {o : MicroOp}
      (hnext : b.insts[s.index]? = some o) (hstale : ¬ IsCurrent s.threads (b.thread, o)) :
    Turned lim (b :: rest) s (.again (b :: rest) s.squash)
  | block {b : Bundle} (rest : List Bundle) {s : Issue} {o : MicroOp} {th : ExecThread}
      (h : Offers b s o th) (hblocked : lim.draining = true ∨ lim.units ≤ s.units.length) :
    Turned lim (b :: rest) s (.last (b :: rest) s none)
  | start {b : Bundle} (rest : List Bundle) {s : Issue} {o : MicroOp} {th th' : ExecThread}
      (h : Offers b s o th) (hroom : ¬ lim.units ≤ s.units.length)
      (hissue : th.issue b.thread o = (th', none)) :
    Turned lim (b :: rest) s (.again (b :: rest) (s.start lim.doneAt b.thread th' o))
  | raise {b : Bundle} (rest : List Bundle) {s : Issue} {o : MicroOp} {th th' : ExecThread}
      {r : Redirect} (h : Offers b s o th) (hroom : ¬ lim.units ≤ s.units.length)
      (hissue : th.issue b.thread o = (th', some r)) :
    Turned lim (b :: rest) s (.last (b :: rest) (s.start lim.doneAt b.thread th' o) (some r))

theorem turned (lim : IssueLimits) (bs : List Bundle) (s : Issue) :
    Turned lim bs s (turn lim bs s) := by
  cases bs with
  | nil => exact .stop s
  | cons b rest =>
    rw [turn]
    cases hnext : b.insts[s.index]? with
    | none => exact .drop rest (List.getElem?_eq_none_iff.mp hnext)
    | some o =>
      cases hth : s.threads[b.thread.toNat]? with
      | none =>
        refine .squash rest hnext fun hcur => ?_
        rw [IsCurrent, hth] at hcur
        nomatch hcur
      | some th =>
        by_cases hold : o.streamSeq ≠ th.streamSeq
        · simp only [if_pos hold]
          refine .squash rest hnext fun hcur => hold ?_
          rw [IsCurrent, hth] at hcur
          exact (Option.some.inj hcur).symm
        · have hoffers : Offers b s o th := ⟨hnext, hth, Decidable.not_not.mp hold⟩
          by_cases hblocked : lim.draining = true ∨ lim.units ≤ s.units.length
          · simp only [if_neg hold, if_pos hblocked]
            exact .block rest hoffers hblocked
          · have hroom : ¬ lim.units ≤ s.units.length := fun h => hblocked (.inr h)
            obtain ⟨th', r, hissue⟩ : ∃ th' r, th.issue b.thread o = (th', r) := ⟨_, _, rfl⟩
            simp only [if_neg hold, if_neg hblocked, hissue]
            cases r with
            | none => exact .start rest hoffers hroom hissue
            | some r => exact .raise rest hoffers hroom hissue

/-- **Issue from a queue is what its first turn leads to.** -/
theorem issueQueue_turn (lim : IssueLimits) (bs : List Bundle) (s : Issue) :
    issueQueue lim bs s =
      match turn lim bs s with
      | .again bs s => issueQueue lim bs s
      | .last bs s r => (bs, s, r) := by
  cases bs with
  | nil => rfl
  | cons b rest =>
    rw [turn, issueQueue]
    cases hnext : b.insts[s.index]? with
    | none =>
      rw [List.drop_eq_nil_of_le (List.getElem?_eq_none_iff.mp hnext)]
      rfl
    | some o =>
      have hdrop : b.insts.drop s.index = o :: b.insts.drop (s.index + 1) := by
        obtain ⟨hlt, rfl⟩ := List.getElem?_eq_some_iff.mp hnext
        exact List.drop_eq_getElem_cons hlt
      rw [hdrop, issueOps]
      cases hth : s.threads[b.thread.toNat]? with
      | none => rfl
      | some th =>
        by_cases hold : o.streamSeq ≠ th.streamSeq
        · simp only [if_pos hold]
          rfl
        · by_cases hblocked : lim.draining = true ∨ lim.units ≤ s.units.length
          · simp only [if_neg hold, if_pos hblocked]
          · obtain ⟨th', r, hissue⟩ : ∃ th' r, th.issue b.thread o = (th', r) := ⟨_, _, rfl⟩
            simp only [if_neg hold, if_neg hblocked, hissue]
            cases r <;> rfl

/-- The next micro-op of the oldest bundle is the first that waits. -/
theorem waitingOps_of_next {b : Bundle} {rest : List Bundle} {index : Nat} {o : MicroOp}
    (hnext : b.insts[index]? = some o) :
    waitingOps index (b :: rest) = (b.thread, o) :: waitingOps (index + 1) (b :: rest) := by
  obtain ⟨hlt, rfl⟩ := List.getElem?_eq_some_iff.mp hnext
  rw [waitingOps, List.drop_eq_getElem_cons hlt]
  rfl

/-- Of a bundle that is used up nothing waits. -/
theorem waitingOps_of_spent {b : Bundle} {rest : List Bundle} {index : Nat}
    (hspent : b.insts.length ≤ index) : waitingOps index (b :: rest) = waitingOps 0 rest := by
  rw [waitingOps, List.drop_eq_nil_of_le hspent, waitingOps_zero]
  rfl

/-- **Issue ends.** There is a turn for each micro-op that waits and each bundle at most, and the
last. -/
theorem turns_eq {lim : IssueLimits} : ∀ {n : Nat} {bs : List Bundle} {s : Issue},
    (waitingOps s.index bs).length + bs.length < n →
      turns lim n bs s = some (issueQueue lim bs s)
  | 0, _, _, h => absurd h (Nat.not_lt_zero _)
  | n + 1, bs, s, h => by
    have hturned := turned lim bs s
    rw [turns, issueQueue_turn]
    generalize turn lim bs s = t at hturned
    cases hturned with
    | stop | block | raise => rfl
    | drop rest hspent =>
      rw [waitingOps_of_spent hspent, List.length_cons] at h
      exact turns_eq (by show (waitingOps 0 rest).length + rest.length < n; omega)
    | squash rest hnext =>
      rw [waitingOps_of_next hnext, List.length_cons] at h
      exact turns_eq (by show (waitingOps (s.index + 1) _).length + _ < n; omega)
    | start rest hoffers =>
      rw [waitingOps_of_next hoffers.next, List.length_cons] at h
      exact turns_eq (by show (waitingOps (s.index + 1) _).length + _ < n; omega)

/-! ## What is taken -/

/-- The micro-ops `taken` were taken since issue began at `bs₀` and `s₀`: those of a thread in its
stream were put into units, the others were counted. -/
structure Taken (lim : IssueLimits) (bs₀ : List Bundle) (s₀ : Issue)
    (taken : List (UInt32 × MicroOp)) (bs : List Bundle) (s : Issue) : Prop where
  waiting : waitingOps s₀.index bs₀ = taken ++ waitingOps s.index bs
  units : s.units = s₀.units ++
    (taken.filter (IsCurrent s₀.threads)).map fun p => ⟨p.1, p.2, lim.doneAt⟩
  squashed : s.squashed = s₀.squashed + (taken.filter fun p => ¬ IsCurrent s₀.threads p).length
  fits : s₀.units.length ≤ lim.units → s.units.length ≤ lim.units

/-- Issue is not over: every thread is in the stream in which it was. -/
structure Going (lim : IssueLimits) (bs₀ : List Bundle) (s₀ : Issue)
    (taken : List (UInt32 × MicroOp)) (bs : List Bundle) (s : Issue) : Prop extends
    Taken lim bs₀ s₀ taken bs s where
  streams : s.threads.map (·.streamSeq) = s₀.threads.map (·.streamSeq)
  indexed : bs = [] → s.index = 0

/-- Why issue is over. -/
inductive Over (lim : IssueLimits) (s₀ : Issue) (taken : List (UInt32 × MicroOp)) :
    List Bundle → Issue → Option Redirect → Prop
  /-- What was taken last was issued, and redirects fetch. -/
  | raised {p : UInt32 × MicroOp} (bs : List Bundle) (s : Issue) (r : Redirect)
      (hlast : taken.getLast? = some p) (hcurrent : IsCurrent s₀.threads p)
      (hchanges : (ExecThread.outcome p.2).1.changesStream = true) : Over lim s₀ taken bs s (some r)
  /-- Nothing waits any more. -/
  | empty {s : Issue} (hindex : s.index = 0) : Over lim s₀ taken [] s none
  /-- The next micro-op has to wait. -/
  | blocked {b : Bundle} (rest : List Bundle) {s : Issue} {o : MicroOp} {th : ExecThread}
      (h : Offers b s o th) (hblocked : lim.draining = true ∨ lim.units ≤ s.units.length) :
    Over lim s₀ taken (b :: rest) s none

section Turns

variable {lim : IssueLimits} {bs₀ bs bs' : List Bundle} {s₀ s s' : Issue}
  {taken : List (UInt32 × MicroOp)} {r : Option Redirect}

theorem Going.isCurrent_iff (h : Going lim bs₀ s₀ taken bs s) (p : UInt32 × MicroOp) :
    IsCurrent s.threads p ↔ IsCurrent s₀.threads p := by
  rw [IsCurrent, IsCurrent, ← List.getElem?_map, ← List.getElem?_map, h.streams]

theorem Offers.isCurrent {b : Bundle} {o : MicroOp} {th : ExecThread} (h : Offers b s o th) :
    IsCurrent s.threads (b.thread, o) := by
  rw [IsCurrent, h.thread, h.stream]
  rfl

/-- The next micro-op is squashed. -/
theorem Going.squash {b : Bundle} {rest : List Bundle} {o : MicroOp}
    (h : Going lim bs₀ s₀ taken (b :: rest) s) (hnext : b.insts[s.index]? = some o)
    (hstale : ¬ IsCurrent s.threads (b.thread, o)) :
    Going lim bs₀ s₀ (taken ++ [(b.thread, o)]) (b :: rest) s.squash := by
  have hold : ¬ IsCurrent s₀.threads (b.thread, o) := fun hcur =>
    hstale ((h.isCurrent_iff _).mpr hcur)
  refine ⟨⟨?_, ?_, ?_, h.fits⟩, h.streams, fun hnil => nomatch hnil⟩
  · rw [h.waiting, waitingOps_of_next hnext, List.append_assoc]
    rfl
  · rw [List.filter_append, List.filter_cons_of_neg (by simpa using hold), List.filter_nil,
      List.append_nil]
    exact h.units
  · rw [List.filter_append, List.filter_cons_of_pos (by simpa using hold), List.filter_nil,
      List.length_append]
    show s.squashed + 1 = _
    rw [h.squashed, Nat.add_assoc]
    rfl

/-- The next micro-op is put into a unit. -/
theorem Going.start {b : Bundle} {rest : List Bundle} {o : MicroOp} {th : ExecThread}
    (h : Going lim bs₀ s₀ taken (b :: rest) s) (hoffers : Offers b s o th)
    (hroom : ¬ lim.units ≤ s.units.length) (th' : ExecThread) :
    Taken lim bs₀ s₀ (taken ++ [(b.thread, o)]) (b :: rest)
      (s.start lim.doneAt b.thread th' o) := by
  have hcur : IsCurrent s₀.threads (b.thread, o) := (h.isCurrent_iff _).mp hoffers.isCurrent
  refine ⟨?_, ?_, ?_, fun _ => ?_⟩
  · rw [h.waiting, waitingOps_of_next hoffers.next, List.append_assoc]
    rfl
  · rw [List.filter_append, List.filter_cons_of_pos (by simpa using hcur), List.filter_nil,
      List.map_append, ← List.append_assoc, ← h.units]
    rfl
  · rw [List.filter_append, List.filter_cons_of_neg (by simpa using hcur), List.filter_nil,
      List.append_nil]
    exact h.squashed
  · show (s.units ++ [_]).length ≤ lim.units
    rw [List.length_append, List.length_singleton]
    omega

theorem Going.again (h : Going lim bs₀ s₀ taken bs s)
    (hturn : Turned lim bs s (.again bs' s')) : ∃ taken', Going lim bs₀ s₀ taken' bs' s' := by
  cases hturn with
  | drop rest hspent =>
    have hwaiting := h.waiting
    rw [waitingOps_of_spent hspent] at hwaiting
    exact ⟨taken, ⟨hwaiting, h.units, h.squashed, h.fits⟩, h.streams, fun _ => rfl⟩
  | squash rest hnext hstale => exact ⟨_, h.squash hnext hstale⟩
  | @start b rest _ o th th' hoffers hroom hissue =>
    refine ⟨_, h.start hoffers hroom th', ?_, fun hnil => nomatch hnil⟩
    -- the thread goes on in its stream, so the list of the streams is the same
    obtain ⟨hlt, hth⟩ := List.getElem?_eq_some_iff.mp hoffers.thread
    have hlt' : b.thread.toNat < (s.threads.map (·.streamSeq)).length := by rwa [List.length_map]
    have hsame := List.set_getElem_self hlt'
    have hstream : th'.streamSeq = (s.threads.map (·.streamSeq))[b.thread.toNat] := by
      rw [List.getElem_map, hth, (ExecThread.of_issue_none hissue).2]
    show (s.threads.set b.thread.toNat th').map (·.streamSeq) = _
    rw [List.map_set, hstream, hsame, h.streams]

theorem Going.last (h : Going lim bs₀ s₀ taken bs s)
    (hturn : Turned lim bs s (.last bs' s' r)) :
    ∃ taken', Taken lim bs₀ s₀ taken' bs' s' ∧ Over lim s₀ taken' bs' s' r := by
  cases hturn with
  | stop => exact ⟨taken, h.toTaken, .empty (h.indexed rfl)⟩
  | block rest hoffers hblocked => exact ⟨taken, h.toTaken, .blocked rest hoffers hblocked⟩
  | raise rest hoffers hroom hissue =>
    exact ⟨_, h.start hoffers hroom _, .raised _ _ _ List.getLast?_concat
      ((h.isCurrent_iff _).mp hoffers.isCurrent) (ExecThread.of_issue_some hissue).1⟩

/-- **Every micro-op that is taken is issued or squashed**, and when issue is over there is a reason
for it. -/
theorem Going.turns : ∀ {n : Nat} {bs : List Bundle} {s : Issue}
    {taken : List (UInt32 × MicroOp)}, Going lim bs₀ s₀ taken bs s →
      turns lim n bs s = some (bs', s', r) →
        ∃ taken', Taken lim bs₀ s₀ taken' bs' s' ∧ Over lim s₀ taken' bs' s' r
  | 0, _, _, _, _, hturns => nomatch hturns
  | n + 1, bs, s, taken, h, hturns => by
    have hturned := turned lim bs s
    rw [Issue.turns] at hturns
    generalize turn lim bs s = t at hturned hturns
    cases t with
    | again bs s =>
      obtain ⟨taken', h'⟩ := h.again hturned
      exact h'.turns hturns
    | last bs s r =>
      obtain ⟨rfl, heq⟩ := Prod.mk.inj (Option.some.inj hturns)
      obtain ⟨rfl, rfl⟩ := Prod.mk.inj heq
      exact h.last hturned

end Turns

end Issue

/-! ## The stage -/

namespace Execute

/-- What can be done to the stage. -/
inductive Use where
  /-- A cycle of some number, in which a bundle comes in. -/
  | cycle (number : Nat) (b : Bundle)
  /-- Stop issue, and send halts. -/
  | drain
  /-- Issue again. -/
  | resume
  /-- Flip a bit in a unit. -/
  | flip

/-- Do it. -/
def perform (s : Execute) : Use → Execute
  | .cycle number b => (s.evaluate number b).stage
  | .drain => s.drain
  | .resume => s.resume
  | .flip => s.flipUnit.1

/-- The stage after some uses. -/
def performAll (s : Execute) (uses : List Use) : Execute := uses.foldl perform s

/-- No bundle is taken in part unless one is queued, and no more units are in use than there are. -/
structure Consistent (s : Execute) : Prop where
  indexed : s.Indexed
  units : s.units.length ≤ s.unitCount

theorem Consistent.perform {s : Execute} (h : s.Consistent) (u : Use) :
    (s.perform u).Consistent := by
  cases u with
  | cycle number b =>
    refine ⟨indexed_evaluate h.indexed number b, ?_⟩
    have hunits := (s.evaluate_issued number b).2.2.2 h.units
    rwa [← (s.settings_evaluate number b).2.1] at hunits
  | drain => exact ⟨h.indexed, h.units⟩
  | resume => exact ⟨h.indexed, h.units⟩
  | flip =>
    obtain ⟨units, heq, halike⟩ := s.flipUnit_eq
    show s.flipUnit.1.Consistent
    rw [heq]
    exact ⟨h.indexed, halike.length_eq ▸ h.units⟩

theorem consistent_performAll {s : Execute} (h : s.Consistent) (uses : List Use) :
    (s.performAll uses).Consistent := by
  induction uses generalizing s with
  | nil => exact h
  | cons u us ih => exact ih (h.perform u)

theorem consistent_new (name : String) (c : Config) (entry : UInt64) :
    (new name c entry).Consistent :=
  ⟨fun _ => rfl, Nat.zero_le _⟩

/-- The limits of issue in a cycle. -/
def limits (s : Execute) (cycle : Nat) : IssueLimits := ⟨s.draining, s.unitCount, cycle + s.latency⟩

/-- What issue works on, when it has handled the micro-ops with these addresses. -/
def working (s : Execute) (addrs : List UInt64) : Issue :=
  ⟨s.threads, s.units, s.squashed, s.issueIndex, addrs⟩

/-- The next micro-op cannot be removed: it is of a thread in its stream, and the stage drains or
has no unit for it. -/
def Blocked (s : Execute) : Prop :=
  ∃ b rest o th, s.input.entries = b :: rest ∧ b.insts[s.issueIndex]? = some o ∧
    s.threads[b.thread.toNat]? = some th ∧ o.streamSeq = th.streamSeq ∧
    (s.draining = true ∨ s.units.length = s.unitCount)

/-- **Issue comes to an end, and leaves nothing that could be removed.** Whatever the stage has been
through, in the next cycle it goes through at most a turn for each bundle and each micro-op, and the
last. It takes the first micro-ops of those that wait; each is put into a unit if it is of a thread
in its stream, and else counted as squashed. Then the last was issued and redirects fetch, or the
input is empty, or the next micro-op must wait. -/
theorem issue_exhausts (name : String) (c : Config) (entry : UInt64) (uses : List Use)
    (cycle : Nat) (b : Bundle) :
    let s := ((new name c entry).performAll uses).loaded cycle b
    let r := s.issue cycle
    Issue.turns (s.limits cycle) (s.waiting.length + s.input.entries.length + 1)
        s.input.entries (s.working []) = some (r.1.input.entries, r.1.working r.2.2, r.2.1) ∧
      ∃ taken : List (UInt32 × MicroOp),
        s.waiting = taken ++ r.1.waiting ∧
        r.1.units = s.units ++ (taken.filter (IsCurrent s.threads)).map
          (fun p => ⟨p.1, p.2, cycle + s.latency⟩) ∧
        r.1.squashed = s.squashed + (taken.filter fun p => ¬ IsCurrent s.threads p).length ∧
        ((∃ p, taken.getLast? = some p ∧ IsCurrent s.threads p ∧
            (ExecThread.outcome p.2).1.changesStream = true ∧ r.2.1.isSome = true) ∨
          (r.1.input.entries = [] ∧ r.1.issueIndex = 0) ∨
          r.1.Blocked) := by
  intro s r
  have hconsistent : ((new name c entry).performAll uses).Consistent :=
    consistent_performAll (consistent_new name c entry) uses
  have hindexed : s.Indexed := indexed_loaded hconsistent.indexed cycle b
  have hunits : s.units.length ≤ s.unitCount :=
    Nat.le_trans (List.dropWhile_sublist _).length_le hconsistent.units
  have hturns : Issue.turns (s.limits cycle) (s.waiting.length + s.input.entries.length + 1)
      s.input.entries (s.working []) = some (r.1.input.entries, r.1.working r.2.2, r.2.1) :=
    Issue.turns_eq (Nat.lt_succ_self _)
  have hgoing : Issue.Going (s.limits cycle) s.input.entries (s.working []) []
      s.input.entries (s.working []) :=
    ⟨⟨rfl, (List.append_nil _).symm, rfl, id⟩, rfl, hindexed⟩
  obtain ⟨taken, htaken, hover⟩ := hgoing.turns hturns
  refine ⟨hturns, taken, htaken.waiting, htaken.units, htaken.squashed, ?_⟩
  generalize hentries : r.1.input.entries = bs at hover
  generalize hworking : r.1.working r.2.2 = i at hover htaken
  generalize hredirect : r.2.1 = redirect at hover
  cases hover with
  | raised _ _ _ hlast hcurrent hchanges => exact .inl ⟨_, hlast, hcurrent, hchanges, rfl⟩
  | empty hindex => subst hworking; exact .inr (.inl ⟨rfl, hindex⟩)
  | blocked rest h hblocked =>
    subst hworking
    exact .inr (.inr ⟨_, rest, _, _, hentries, h.next, h.thread, h.stream,
      hblocked.imp_right fun hfull => Nat.le_antisymm (htaken.fits hunits) hfull⟩)

end Execute

end InOrder
