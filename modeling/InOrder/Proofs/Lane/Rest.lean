import InOrder.Proofs.Lane.Numbers

/-!
# When a lane rests

A thread fetches nothing until it is woken, and stops after the word that suspends it and after
the halt of a drain. Two invariants of a lane say what follows for a thread that is left alone
afterwards:

* `Once`: a thread that was woken at most once issues nothing after the word that suspends it.
* `Awake`: a thread that is not halted stays so while no halt is pending or on its way.
-/

namespace InOrder

/-- Only a word that suspends and a halt stop a thread. -/
theorem ExecThread.outcome_ne_halt (o : MicroOp) : (outcome o).1 ≠ .halt := by
  unfold outcome
  cases Isa.classify o.inst with
  | jump offset =>
    simp only
    split
    · simp
    · split <;> simp
  | suspend => simp
  | plain =>
    simp only
    split <;> simp

/-- The word that suspends changes the stream, and stops its thread. -/
theorem ExecThread.outcome_suspend {o : MicroOp} (h : Isa.classify o.inst = .suspend) :
    (outcome o).1 = .suspend := by
  rw [outcome, h]

/-- After any other word its thread goes on. -/
theorem ExecThread.after_outcome {o : MicroOp} (h : Isa.classify o.inst ≠ .suspend) :
    FetchState.after (outcome o).1 = .running := by
  unfold outcome
  cases hk : Isa.classify o.inst with
  | jump offset =>
    simp only
    split
    · rfl
    · split <;> rfl
  | suspend => exact absurd hk h
  | plain =>
    simp only
    split <;> rfl

namespace Lane

variable {k : Track} {v w : Lane}

/-! ## Woken once -/

/-- The state in which the line fetch is when the redirects on their way have arrived. -/
def settled (v : Lane) : FetchState :=
  match v.redirects.getLast? with
  | some r => .after r.reason
  | none => v.fetch.state

theorem settled_send {r : Redirect} (h : v.redirects = w.redirects ++ [r]) :
    v.settled = .after r.reason := by
  rw [settled, h, List.getLast?_concat]

theorem settled_follow {r : Redirect} {rest : List Redirect} (hv : v.redirects = r :: rest)
    (hw : w.redirects = rest) (hs : w.fetch.state = .after r.reason) : w.settled = v.settled := by
  rw [settled, settled, hv, hw, List.getLast?_cons, hs]
  cases rest.getLast? <;> rfl

/-- The thread was never woken, and nothing is there of it but halts. -/
structure Asleep (v : Lane) : Prop where
  stopped : v.fetch.state ≠ .running
  lines : v.lines = []
  ops : v.ops = []
  issued : v.issued = []
  redirects : ∀ r ∈ v.redirects, FetchState.after r.reason ≠ .running

/-- No word that was issued suspends, but for the last one. -/
def SuspendsLast (issued : List (UInt64 × UInt32)) : Prop :=
  ∀ x ∈ issued.dropLast, Isa.classify x.2 ≠ .suspend

/-- What precedes the words that follow it is as good. -/
theorem SuspendsLast.of_append {xs ys : List (UInt64 × UInt32)} (h : SuspendsLast (xs ++ ys)) :
    SuspendsLast xs := by
  intro x hx
  cases ys with
  | nil => exact h x (by rwa [List.append_nil])
  | cons y ys =>
    refine h x ?_
    rw [List.dropLast_append_of_ne_nil (List.cons_ne_nil y ys)]
    exact List.mem_append_left _ (List.dropLast_subset xs hx)

/-- The thread issues nothing after the word that suspends it, unless it is woken again. -/
structure Once (v : Lane) : Prop where
  asleep : v.wakes = 0 → v.Asleep
  last : v.wakes ≤ 1 → SuspendsLast v.issued
  parked : v.wakes ≤ 1 → ∀ x ∈ v.issued, Isa.classify x.2 = .suspend → v.settled ≠ .running

namespace Once

/-- What does not concern the issued words leaves them as they are. -/
theorem keep (h : v.Once) (hissued : w.issued = v.issued) (hwakes : w.wakes = v.wakes)
    (hsettled : w.settled = v.settled) (hasleep : v.wakes = 0 → w.Asleep) : w.Once :=
  ⟨fun h0 => hasleep (hwakes ▸ h0), fun h1 => hissued ▸ h.last (hwakes ▸ h1),
    fun h1 x hx hsuspend => hsettled ▸ h.parked (hwakes ▸ h1) x (hissued ▸ hx) hsuspend⟩

theorem start (entry : UInt64) : (Lane.start entry).Once where
  asleep _ := ⟨FetchState.noConfusion, rfl, rfl, rfl, fun r hr => absurd hr (by simp [Lane.start])⟩
  last _ x hx := absurd hx (by simp [Lane.start])
  parked _ x hx := absurd hx (by simp [Lane.start])

theorem pend (h : v.Once) (haltPending : Bool) : (v.pend haltPending).Once :=
  h.keep rfl rfl rfl fun h0 => { h.asleep h0 with }

/-- A thread that has issued the word that suspends it has nothing more to issue. -/
theorem not_current (h : v.Once) (hn : v.Numbered) (hwakes : v.wakes ≤ 1)
    {x : UInt64 × UInt32} (hx : x ∈ v.issued) (hsuspend : Isa.classify x.2 = .suspend) {o : MicroOp}
    (ho : o ∈ v.ops) : o.streamSeq ≠ v.exec.streamSeq := by
  intro hcur
  have hnone := hn.redirects_of_current ho hcur
  have hparked := h.parked hwakes x hx hsuspend
  rw [settled, hnone] at hparked
  exact (hn.rests hparked).1 o ho (hcur.trans (hn.stream_eq hnone).symm)

theorem woken_of_op (h : v.Once) {o : MicroOp} (ho : o ∈ v.ops) : v.wakes ≠ 0 := fun h0 => by
  rw [(h.asleep h0).ops] at ho
  exact absurd ho (by simp)

theorem woken_of_line (h : v.Once) {l : Line} (hl : l ∈ v.lines) : v.wakes ≠ 0 := fun h0 => by
  rw [(h.asleep h0).lines] at hl
  exact absurd hl (by simp)

/-- What does not concern the issued words leaves them as they are, and a woken thread woken. -/
theorem keepWoken (h : v.Once) (hwoken : v.wakes ≠ 0) (hissued : w.issued = v.issued)
    (hwakes : w.wakes = v.wakes) (hsettled : w.settled = v.settled) : w.Once :=
  h.keep hissued hwakes hsettled fun h0 => absurd h0 hwoken

/-- A micro-op of the stream is issued after words that do not suspend. -/
theorem issued_concat (h : v.Once) (hn : v.Numbered) {o : MicroOp} (ho : o ∈ v.ops)
    (hcur : o.streamSeq = v.exec.streamSeq) (hwakes : v.wakes ≤ 1) :
    SuspendsLast (v.issued ++ [(o.pc, o.inst)]) ∧
      ∀ x ∈ v.issued ++ [(o.pc, o.inst)], Isa.classify x.2 = .suspend →
        Isa.classify o.inst = .suspend := by
  have hnone : ∀ x ∈ v.issued, Isa.classify x.2 ≠ .suspend := fun x hx hsuspend =>
    h.not_current hn hwakes hx hsuspend ho hcur
  constructor
  · rw [SuspendsLast, List.dropLast_concat]
    exact hnone
  · intro x hx hsuspend
    rcases List.mem_append.mp hx with hx | hx
    · exact absurd hsuspend (hnone x hx)
    · rwa [List.mem_singleton.mp hx] at hsuspend

/-- **No step of a lane with right numbers lets a thread issue past the word that suspends it.** -/
theorem step (h : v.Once) (hn : v.Numbered) (hs : Step k v w) : w.Once := by
  cases hs with
  | squash o rest hops hold =>
    exact h.keepWoken (h.woken_of_op (hops ▸ List.mem_cons_self)) rfl rfl rfl
  | issue o rest th hops hcur hissue =>
    obtain ⟨hright, rfl⟩ := ExecThread.of_issue_none hissue
    have ho : o ∈ v.ops := hops ▸ List.mem_cons_self
    have hlast : Isa.classify o.inst ≠ .suspend := fun hsuspend => by
      rw [ExecThread.outcome_suspend hsuspend] at hright
      exact absurd hright (by simp [Reason.changesStream])
    exact ⟨fun h0 => absurd h0 (h.woken_of_op ho), fun h1 => (h.issued_concat hn ho hcur h1).1,
      fun h1 x hx hsuspend => absurd ((h.issued_concat hn ho hcur h1).2 x hx hsuspend) hlast⟩
  | raise o rest th r hops hcur hissue hfresh =>
    obtain ⟨-, rfl, rfl⟩ := ExecThread.of_issue_some hissue
    have ho : o ∈ v.ops := hops ▸ List.mem_cons_self
    refine ⟨fun h0 => absurd h0 (h.woken_of_op ho), fun h1 => (h.issued_concat hn ho hcur h1).1,
      fun h1 x hx hsuspend => ?_⟩
    have hlast := (h.issued_concat hn ho hcur h1).2 x hx hsuspend
    rw [settled_send (w := v) rfl]
    show FetchState.after (ExecThread.outcome o).1 ≠ .running
    rw [ExecThread.outcome_suspend hlast]
    decide
  | halt hpending hfresh =>
    refine ⟨?_, h.last, ?_⟩
    · intro h0
      have ha := h.asleep h0
      refine { ha with redirects := fun r hr => ?_ }
      rcases List.mem_append.mp hr with hr | hr
      · exact ha.redirects r hr
      · rw [List.mem_singleton.mp hr]
        exact FetchState.noConfusion
    · intro _ _ _ _
      rw [settled_send (w := v) rfl]
      exact FetchState.noConfusion
  | drop l rest hlines hdone =>
    exact h.keepWoken (h.woken_of_line (hlines ▸ List.mem_cons_self)) rfl rfl rfl
  | cut l rest inst seq hlines hcarries hword hplain =>
    exact h.keepWoken (h.woken_of_line (hlines ▸ List.mem_cons_self)) rfl rfl rfl
  | cutJump l rest inst offset seq hlines hcarries hword hjump hfresh =>
    exact h.keepWoken (h.woken_of_line (hlines ▸ List.mem_cons_self)) rfl rfl rfl
  | follow r rest ps hredirects hps =>
    refine h.keep rfl rfl (settled_follow hredirects rfl rfl) fun h0 => ?_
    have ha := h.asleep h0
    exact { ha with
      stopped := ha.redirects r (hredirects ▸ List.mem_cons_self)
      redirects := fun r' hr' => ha.redirects r' (hredirects ▸ List.mem_cons_of_mem r hr') }
  | overtake p rest hpredictions =>
    exact h.keep rfl rfl rfl fun h0 => { h.asleep h0 with }
  | heed p rest hpredictions hruns hstream =>
    exact h.keep rfl rfl rfl fun h0 => absurd hruns (h.asleep h0).stopped
  | ignore p rest hpredictions hold =>
    exact h.keep rfl rfl rfl fun h0 => { h.asleep h0 with }
  | forget lines l hlines hold =>
    have hl : l ∈ v.lines := hlines ▸ List.mem_append_right lines (List.mem_singleton_self l)
    exact h.keepWoken (h.woken_of_line hl) rfl rfl rfl
  | request hruns => exact h.keep rfl rfl rfl fun h0 => absurd hruns (h.asleep h0).stopped
  | wake =>
    have hnil : v.wakes + 1 ≤ 1 → v.issued = [] := fun h1 => (h.asleep (by omega)).issued
    refine ⟨fun h0 => absurd h0 (by simp), ?_, ?_⟩
    · intro h1
      exact h.last (Nat.le_of_succ_le h1)
    · intro h1 x hx
      rw [show ({ v with wakes := v.wakes + 1 } : Lane).issued = [] from hnil h1] at hx
      exact absurd hx (by simp)

/-- A thread that was woken at most once issues nothing after the word that suspends it, for any
number of steps. -/
theorem steps (hk : ∀ x, k.fresh x → x ≠ firstSeq) (h : v.Once) (hn : v.Numbered)
    (hs : Steps k v w) : w.Once := by
  induction hs with
  | refl => exact h
  | tail hpre hlast ih => exact ih.step (hn.steps hk hpre) hlast

end Once

/-! ## Not halted -/

/-- The thread is not halted, and no halt is pending or on its way. -/
structure Awake (v : Lane) : Prop where
  state : v.fetch.state ≠ .halted
  redirects : ∀ r ∈ v.redirects, r.reason ≠ .halt
  pending : v.exec.haltPending = false

/-- Only a halt halts. -/
theorem after_ne_halted {r : Reason} (h : r ≠ .halt) : FetchState.after r ≠ .halted := by
  cases r <;> first | exact FetchState.noConfusion | exact absurd rfl h

theorem Awake.step (h : v.Awake) (hs : Step k v w) : w.Awake := by
  cases hs with
  | issue o rest th hops hcur hissue =>
    obtain ⟨-, rfl⟩ := ExecThread.of_issue_none hissue
    exact ⟨h.state, h.redirects, h.pending⟩
  | raise o rest th r hops hcur hissue hfresh =>
    obtain ⟨-, rfl, rfl⟩ := ExecThread.of_issue_some hissue
    refine ⟨h.state, fun r' hr' => ?_, h.pending⟩
    rcases List.mem_append.mp hr' with hr' | hr'
    · exact h.redirects r' hr'
    · rw [List.mem_singleton.mp hr']
      exact ExecThread.outcome_ne_halt o
  | halt hpending hfresh => exact absurd hpending (by simp [h.pending])
  | follow r rest ps hredirects hps =>
    have hr : r.reason ≠ .halt := h.redirects r (hredirects ▸ List.mem_cons_self)
    exact ⟨after_ne_halted hr,
      fun r' hr' => h.redirects r' (hredirects ▸ List.mem_cons_of_mem r hr'), h.pending⟩
  | wake => exact ⟨FetchState.noConfusion, h.redirects, h.pending⟩
  | squash | drop | cut | cutJump | overtake | heed | ignore | forget | request =>
    exact ⟨h.state, h.redirects, h.pending⟩

/-- **A thread without halts is not halted by any number of steps.** -/
theorem Awake.steps (h : v.Awake) (hs : Steps k v w) : w.Awake := by
  induction hs with
  | refl => exact h
  | tail _ hlast ih => exact ih.step hlast

end Lane

end InOrder
