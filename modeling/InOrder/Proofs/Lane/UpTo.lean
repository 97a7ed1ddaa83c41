import InOrder.Proofs.Lane.Halt
import InOrder.Proofs.Lane.Route

/-!
# A thread up to the word that suspends it

A thread that is woken, and then left alone, fetches until it has issued the word that suspends it.
`Lane.UpTo e` says how far it has come if that is instruction `e` of its course: it has issued no
more, and it is running, or will be when the redirect on its way has arrived, as long as instruction
`e` is not issued.

* `Lane.OnCourse.steps`: so it stays for any number of steps, but for wakeups.
-/

namespace InOrder

namespace Lane

variable {k : Track} {v w : Lane} {e : Nat}

/-- The thread goes on until it has issued instruction `e`, and is suspended then. -/
structure UpTo (e : Nat) (v : Lane) : Prop where
  issued_le : v.issued.length ≤ e + 1
  goes : v.issued.length ≤ e → v.settled = .running
  ends : v.issued.length = e + 1 → v.settled = .suspended
  /-- No redirect is sent before the one before has arrived. -/
  single : v.redirects.length ≤ 1
  runs : v.redirects ≠ [] → v.fetch.state = .running
  pending : v.exec.haltPending = false

namespace UpTo

theorem settled_eq (hr : v.redirects = []) : v.settled = v.fetch.state := by
  rw [settled, hr]
  rfl

/-- While the thread fetches and no redirect is on its way, instruction `e` is not issued. -/
theorem le_of_running (h : v.UpTo e) (hruns : v.fetch.state = .running) (hr : v.redirects = []) :
    v.issued.length ≤ e := by
  refine Nat.le_of_not_lt fun hlt => ?_
  have hends := h.ends (Nat.le_antisymm h.issued_le hlt)
  rw [settled_eq hr, hruns] at hends
  exact FetchState.noConfusion hends

/-- What does not concern execute and the redirects leaves the thread where it is. -/
theorem keep (h : v.UpTo e) (hissued : w.issued = v.issued) (hexec : w.exec = v.exec)
    (hredirects : w.redirects = v.redirects) (hstate : w.fetch.state = v.fetch.state) :
    w.UpTo e := by
  have hsettled : w.settled = v.settled := by rw [settled, settled, hredirects, hstate]
  refine ⟨?_, ?_, ?_, ?_, ?_, ?_⟩
  · rw [hissued]
    exact h.issued_le
  · rw [hissued, hsettled]
    exact h.goes
  · rw [hissued, hsettled]
    exact h.ends
  · rw [hredirects]
    exact h.single
  · rw [hredirects, hstate]
    exact h.runs
  · rw [hexec]
    exact h.pending

/-- A micro-op of the stream is the next instruction of the course, and no later one than `e`. -/
theorem next_op (h : v.UpTo e) (hn : v.Numbered) (hr : v.OnRoute k) {o : MicroOp}
    {rest : List MicroOp} (hops : v.ops = o :: rest) (hcur : o.streamSeq = v.exec.streamSeq) :
    v.redirects = [] ∧ v.fetch.state = .running ∧ v.issued.length ≤ e ∧
      o.inst = k.image.wordAt (k.image.pcAt v.issued.length) := by
  have ho : o ∈ v.ops := hops ▸ List.mem_cons_self
  have hnone : v.redirects = [] := hn.redirects_of_current ho hcur
  have hruns : v.fetch.state = .running := by
    by_cases hruns : v.fetch.state = .running
    · exact hruns
    · exact absurd (hcur.trans (hn.stream_eq hnone).symm) ((hn.rests hruns).1 o ho)
  have hfollows := hr.follows hnone
  rw [currentOps, hops, List.filter_cons_of_pos (by simpa using hcur)] at hfollows
  exact ⟨hnone, hruns, h.le_of_running hruns hnone, hfollows.2.1⟩

/-- A word that does not suspend is followed by more. -/
theorem issue (h : v.UpTo e) (hn : v.Numbered) (hr : v.OnRoute k) (hm : k.image.SuspendsAt e)
    {o : MicroOp} {rest : List MicroOp} (hops : v.ops = o :: rest)
    (hcur : o.streamSeq = v.exec.streamSeq)
    (hright : (ExecThread.outcome o).1.changesStream = false) (nextPc : UInt64) :
    ({ v with
        ops := rest, exec := { v.exec with nextPc }
        issued := v.issued ++ [(o.pc, o.inst)] } : Lane).UpTo e := by
  obtain ⟨hnone, hruns, hle, hinst⟩ := h.next_op hn hr hops hcur
  have hlt : v.issued.length ≠ e := by
    intro heq
    have hgoes := Follows.not_suspend hinst hright
    rw [heq] at hgoes
    exact hgoes hm.suspends
  have hlen : (v.issued ++ [(o.pc, o.inst)]).length = v.issued.length + 1 := List.length_append
  refine ⟨?_, fun _ => ?_, fun heq => ?_, h.single, h.runs, h.pending⟩
  · show (v.issued ++ [(o.pc, o.inst)]).length ≤ e + 1
    omega
  · exact (settled_eq hnone).trans hruns
  · simp only [hlen] at heq
    omega

/-- A redirect stops the thread if and only if its word suspends. -/
theorem raise (h : v.UpTo e) (hn : v.Numbered) (hr : v.OnRoute k) (hm : k.image.SuspendsAt e)
    {o : MicroOp} {rest : List MicroOp} (hops : v.ops = o :: rest)
    (hcur : o.streamSeq = v.exec.streamSeq) {r : Redirect}
    (hreason : r.reason = (ExecThread.outcome o).1) (nextPc streamSeq : UInt64) :
    ({ v with
        ops := rest, exec := { v.exec with nextPc, streamSeq }
        issued := v.issued ++ [(o.pc, o.inst)]
        redirects := v.redirects ++ [r] } : Lane).UpTo e := by
  obtain ⟨hnone, hruns, hle, hinst⟩ := h.next_op hn hr hops hcur
  have hlen : (v.issued ++ [(o.pc, o.inst)]).length = v.issued.length + 1 := List.length_append
  refine ⟨?_, fun hmore => ?_, fun heq => ?_, ?_, fun _ => hruns, h.pending⟩
  · show (v.issued ++ [(o.pc, o.inst)]).length ≤ e + 1
    omega
  · rw [settled_send (w := v) rfl, hreason]
    simp only [hlen] at hmore
    have hgoes := hm.goes v.issued.length (by omega)
    rw [← hinst] at hgoes
    exact ExecThread.after_outcome hgoes
  · rw [settled_send (w := v) rfl, hreason]
    simp only [hlen] at heq
    have hsuspends := hm.suspends
    rw [← show v.issued.length = e by omega, ← hinst] at hsuspends
    rw [ExecThread.outcome_suspend hsuspends]
    rfl
  · rw [hnone]
    exact Nat.le_refl 1

/-- The redirect arrives. -/
theorem follow (h : v.UpTo e) {r : Redirect} {rest : List Redirect} (hr : v.redirects = r :: rest)
    (hw : w.redirects = rest) (hissued : w.issued = v.issued) (hexec : w.exec = v.exec)
    (hstate : w.fetch.state = .after r.reason) : w.UpTo e := by
  have hrest : w.redirects = [] := by
    have hsingle := h.single
    rw [hr, List.length_cons] at hsingle
    rw [hw]
    exact List.length_eq_zero_iff.mp (by omega)
  have hsettled : w.settled = v.settled := settled_follow hr hw hstate
  refine ⟨?_, ?_, ?_, ?_, fun hne => absurd hrest hne, ?_⟩
  · rw [hissued]
    exact h.issued_le
  · rw [hissued, hsettled]
    exact h.goes
  · rw [hissued, hsettled]
    exact h.ends
  · rw [hrest]
    exact Nat.zero_le 1
  · rw [hexec]
    exact h.pending

/-- **A step that wakes nothing leaves the thread on its way to instruction `e`.** -/
theorem step (h : v.UpTo e) (hn : v.Numbered) (hr : v.OnRoute k) (hm : k.image.SuspendsAt e)
    (hs : Step k v w) (hwakes : w.wakes = v.wakes) : w.UpTo e := by
  cases hs with
  | issue o rest th hops hcur hissue =>
    obtain ⟨hright, rfl⟩ := ExecThread.of_issue_none hissue
    exact h.issue hn hr hm hops hcur hright _
  | raise o rest th r hops hcur hissue hfresh =>
    obtain ⟨-, rfl, rfl⟩ := ExecThread.of_issue_some hissue
    exact h.raise hn hr hm hops hcur rfl _ _
  | halt hpending hfresh =>
    rw [h.pending] at hpending
    exact absurd hpending Bool.false_ne_true
  | follow r rest ps hredirects hps => exact h.follow hredirects rfl rfl rfl rfl
  | wake => simp at hwakes
  | squash | drop | cut | cutJump | overtake | heed | ignore | forget | request =>
    exact h.keep rfl rfl rfl rfl

end UpTo

/-! ## Before the word that suspends is issued -/

/-- The thread follows its course and has not issued instruction `e`, and none of its numbers is
given out twice. -/
structure Before (k : Track) (e : Nat) (v : Lane) : Prop where
  numbered : v.Numbered
  route : v.OnRoute k
  issued_le : v.issued.length ≤ e

namespace Before

/-- **Steps that issue nothing leave a thread where it is on its course.** -/
theorem steps (h : v.Before k e) (hfresh : ∀ x, k.fresh x → x ≠ firstSeq) (hk : k.Whole)
    (hm : k.image.SuspendsAt e) (hs : Steps k v w) (hissued : w.issued = v.issued) :
    w.Before k e := by
  refine hs.keep (μ := fun v => v.issued.length) (fun v w hs => hs.grows.1.length_le)
    (fun v w hs hsame h => ?_) (congrArg List.length hissued) h
  exact ⟨h.numbered.step hfresh hs,
    h.route.step hk (fun _ _ => hm.alignedFrom h.issued_le) h.numbered hs,
    Nat.le_trans (Nat.le_of_eq hsame) h.issued_le⟩

theorem pend (h : v.Before k e) (haltPending : Bool) : (v.pend haltPending).Before k e :=
  ⟨h.numbered.pend haltPending, h.route.pend haltPending, h.issued_le⟩

theorem woken (h : v.Before k e) (hfresh : ∀ x, k.fresh x → x ≠ firstSeq) (hk : k.Whole)
    (hm : k.image.SuspendsAt e) : v.woken.Before k e :=
  h.steps hfresh hk hm (.single (.wake v)) rfl

end Before

/-! ## On the course -/

/-- The thread follows its course up to instruction `e`, and no number of it is given out twice. -/
structure OnCourse (k : Track) (e : Nat) (v : Lane) : Prop where
  numbered : v.Numbered
  route : v.OnRoute k
  upTo : v.UpTo e

/-- A thread that fetches, while nothing of execute is on its way to the line fetch, goes on to
instruction `e`, when it has not issued that yet. -/
theorem Before.onCourse (h : v.Before k e) (hredirects : v.redirects = [])
    (hruns : v.fetch.state = .running) (hpending : v.exec.haltPending = false) :
    v.OnCourse k e := by
  have hle := h.issued_le
  have hsettled := (UpTo.settled_eq hredirects).trans hruns
  refine ⟨h.numbered, h.route, Nat.le_succ_of_le hle, fun _ => hsettled, fun hend => ?_, ?_,
    fun _ => hruns, hpending⟩
  · omega
  · rw [hredirects]
    exact Nat.zero_le 1

/-- **A thread that is not woken stays on its course up to instruction `e`.** -/
theorem OnCourse.steps (h : v.OnCourse k e) (hfresh : ∀ x, k.fresh x → x ≠ firstSeq) (hk : k.Whole)
    (hm : k.image.SuspendsAt e) (hs : Steps k v w) (hwakes : w.wakes = v.wakes) :
    w.OnCourse k e := by
  refine hs.keep (μ := wakes) (fun v w hs => hs.grows.2) (fun v w hs hwakes h => ?_) hwakes h
  have haligned : v.fetch.state = .running → v.redirects = [] →
      k.image.AlignedFrom v.issued.length := fun hruns hr =>
    hm.alignedFrom (h.upTo.le_of_running hruns hr)
  exact ⟨h.numbered.step hfresh hs, h.route.step hk haligned h.numbered hs,
    h.upTo.step h.numbered h.route hm hs hwakes⟩

end Lane

end InOrder
