import InOrder.Proofs.Stage.Execute

/-!
# Cycles of execute that issue nothing

When does a cycle of execute issue nothing, and what does it do then? During a drain nothing is
issued (`Execute.units_of_draining`), and of stale micro-ops none is (`Execute.of_stale`). If
nothing is issued, the threads are as they were but for the halt that is sent (`Execute.of_kept`);
and if there was room in a unit, then because everything that waited was stale, and is gone
(`Execute.stale_of_kept`).

A cycle issues nothing if it leaves the units that `Execute.kept` has of it.
-/

namespace InOrder

/-- No thread can issue the micro-op, for it is of an old stream. -/
def Stale (ths : List ExecThread) (x : UInt32 × MicroOp) : Prop :=
  ∀ th, ths[x.1.toNat]? = some th → x.2.streamSeq ≠ th.streamSeq

/-! ## Issue from a bundle and from a queue -/

/-- What issue from a bundle comes to, as far as it issues nothing. -/
structure OpsIdle (lim : IssueLimits) (t : UInt32) (os : List MicroOp) (s : Issue)
    (r : Issue × IssueEnd) : Prop where
  grows : s.units <+: r.1.units
  threads : r.1.units = s.units → r.1.threads = s.threads
  quiet : r.1.units = s.units → ∀ x, r.2 ≠ .raised x
  spent : r.1.units = s.units → r.2 = .spent → ∀ o ∈ os, Stale s.threads (t, o)
  blocked : r.2 = .blocked → lim.draining = true ∨ lim.units ≤ r.1.units.length
  draining : lim.draining = true → r.1.units = s.units
  stale : (∀ o ∈ os, Stale s.threads (t, o)) → r.1.units = s.units ∧ r.2 = .spent

namespace OpsIdle

variable {lim : IssueLimits} {t : UInt32} {o : MicroOp} {rest : List MicroOp} {s s' : Issue}
  {r : Issue × IssueEnd}

/-- A stale micro-op is squashed. -/
theorem squash (h : OpsIdle lim t rest s.squash r) (ho : Stale s.threads (t, o)) :
    OpsIdle lim t (o :: rest) s r := by
  refine { h with spent := fun hunits hspent => ?_, stale := fun hall => ?_ }
  · intro o' ho'
    rcases List.mem_cons.mp ho' with rfl | ho'
    · exact ho
    · exact h.spent hunits hspent o' ho'
  · exact h.stale fun o' ho' => hall o' (List.mem_cons_of_mem o ho')

/-- Where something is issued, only that is to be said. -/
theorem issued {th : ExecThread} (hgrows : s.units ++ [⟨t, o, lim.doneAt⟩] <+: r.1.units)
    (hth : s.threads[t.toNat]? = some th) (hcur : o.streamSeq = th.streamSeq)
    (hfree : lim.draining = false)
    (hblocked : r.2 = .blocked → lim.draining = true ∨ lim.units ≤ r.1.units.length) :
    OpsIdle lim t (o :: rest) s r := by
  have hne : r.1.units ≠ s.units := by
    intro heq
    have hle := hgrows.length_le
    rw [heq, List.length_append, List.length_singleton] at hle
    omega
  refine ⟨(List.prefix_append _ _).trans hgrows, fun h => absurd h hne, fun h => absurd h hne,
    fun h => absurd h hne, hblocked, fun h => ?_, fun hall => ?_⟩
  · rw [hfree] at h
    exact absurd h Bool.false_ne_true
  · exact absurd hcur (hall o List.mem_cons_self th hth)

end OpsIdle

theorem issueOps_idle (lim : IssueLimits) (t : UInt32) :
    ∀ (os : List MicroOp) (s : Issue), OpsIdle lim t os s (issueOps lim t os s)
  | [], s =>
    { grows := List.prefix_refl _, threads := fun _ => rfl
      quiet := fun _ _ => IssueEnd.noConfusion
      spent := fun _ _ o ho => absurd ho (by simp)
      blocked := fun h => absurd h IssueEnd.noConfusion
      draining := fun _ => rfl, stale := fun _ => ⟨rfl, rfl⟩ }
  | o :: rest, s => by
    rw [issueOps]
    cases hth : s.threads[t.toNat]? with
    | none =>
      refine (issueOps_idle lim t rest s.squash).squash fun th h => ?_
      exact absurd (hth.symm.trans h) (by simp)
    | some th =>
      by_cases hold : o.streamSeq ≠ th.streamSeq
      · simp only [if_pos hold]
        refine (issueOps_idle lim t rest s.squash).squash fun th' h => ?_
        rwa [← Option.some.inj (hth.symm.trans h)]
      have hcur : o.streamSeq = th.streamSeq := Decidable.not_not.mp hold
      by_cases hblocked : lim.draining = true ∨ lim.units ≤ s.units.length
      · simp only [if_neg hold, if_pos hblocked]
        exact
          { grows := List.prefix_refl _, threads := fun _ => rfl
            quiet := fun _ _ => IssueEnd.noConfusion
            spent := fun _ h => absurd h IssueEnd.noConfusion
            blocked := fun _ => hblocked
            draining := fun _ => rfl
            stale := fun hall => absurd hcur (hall o List.mem_cons_self th hth) }
      · have hfree : lim.draining = false := by
          cases hd : lim.draining with
          | false => rfl
          | true => exact absurd (.inl hd) hblocked
        obtain ⟨th', r, hissue⟩ : ∃ th' r, th.issue t o = (th', r) := ⟨_, _, rfl⟩
        simp only [if_neg hold, if_neg hblocked, hissue]
        cases r with
        | none =>
          have ih := issueOps_idle lim t rest (s.start lim.doneAt t th' o)
          exact .issued ih.grows hth hcur hfree ih.blocked
        | some r =>
          exact .issued (List.prefix_refl _) hth hcur hfree fun h => absurd h IssueEnd.noConfusion

/-- What issue from a queue comes to, as far as it issues nothing. -/
structure QueueIdle (lim : IssueLimits) (bs : List Bundle) (s : Issue)
    (r : List Bundle × Issue × Option Redirect) : Prop where
  grows : s.units <+: r.2.1.units
  threads : r.2.1.units = s.units → r.2.1.threads = s.threads
  quiet : r.2.1.units = s.units → r.2.2 = none
  emptied : r.2.1.units = s.units → lim.draining = false → s.units.length < lim.units →
    r.1 = [] ∧ ∀ x ∈ waitingOps s.index bs, Stale s.threads x
  draining : lim.draining = true → r.2.1.units = s.units
  stale : (∀ x ∈ waitingOps s.index bs, Stale s.threads x) → r.2.1.units = s.units ∧ r.1 = []

/-- Of what grows twice and is then as before, nothing was added the first time either. -/
theorem eq_of_prefix {α : Type} {xs ys zs : List α} (h₁ : xs <+: ys) (h₂ : ys <+: zs)
    (heq : zs = xs) : ys = xs := by
  have hle := h₂.length_le
  rw [heq] at hle
  exact (h₁.eq_of_length_le hle).symm

theorem issueQueue_idle (lim : IssueLimits) :
    ∀ (bs : List Bundle) (s : Issue), QueueIdle lim bs s (issueQueue lim bs s)
  | [], s =>
    { grows := List.prefix_refl _, threads := fun _ => rfl, quiet := fun _ => rfl
      emptied := fun _ _ _ => ⟨rfl, fun x hx => absurd hx (by simp [waitingOps])⟩
      draining := fun _ => rfl, stale := fun _ => ⟨rfl, rfl⟩ }
  | b :: rest, s => by
    have hops := issueOps_idle lim b.thread (b.insts.drop s.index) s
    have hwaiting : ∀ x, x ∈ waitingOps s.index (b :: rest) ↔
        (∃ o ∈ b.insts.drop s.index, (b.thread, o) = x) ∨ x ∈ waitingOps 0 rest := fun x => by
      rw [waitingOps, waitingOps_zero, List.mem_append, List.mem_map]
    have hhead : (∀ x ∈ waitingOps s.index (b :: rest), Stale s.threads x) →
        ∀ o ∈ b.insts.drop s.index, Stale s.threads (b.thread, o) := fun hall o ho =>
      hall _ ((hwaiting _).mpr (.inl ⟨o, ho, rfl⟩))
    rw [issueQueue]
    obtain ⟨s', e, he⟩ : ∃ s' e, issueOps lim b.thread (b.insts.drop s.index) s = (s', e) :=
      ⟨_, _, rfl⟩
    rw [he] at hops ⊢
    cases e with
    | blocked =>
      refine ⟨hops.grows, hops.threads, fun _ => rfl, fun hunits hfree hroom => ?_, hops.draining,
        fun hall => ?_⟩
      · rcases hops.blocked rfl with hdraining | hfull
        · rw [hfree] at hdraining
          exact absurd hdraining Bool.false_ne_true
        · have hlength := congrArg List.length hunits
          simp only at hlength hfull
          omega
      · exact absurd (hops.stale (hhead hall)).2 IssueEnd.noConfusion
    | raised r =>
      refine ⟨hops.grows, hops.threads, fun hunits => absurd rfl (hops.quiet hunits r),
        fun hunits => absurd rfl (hops.quiet hunits r), hops.draining, fun hall => ?_⟩
      exact absurd (hops.stale (hhead hall)).2 IssueEnd.noConfusion
    | spent =>
      have ih := issueQueue_idle lim rest { s' with index := 0 }
      have hback := eq_of_prefix hops.grows ih.grows
      refine ⟨hops.grows.trans ih.grows, ?_, ?_, ?_, ?_, ?_⟩
      · intro hunits
        exact (ih.threads (hunits.trans (hback hunits).symm)).trans (hops.threads (hback hunits))
      · intro hunits
        exact ih.quiet (hunits.trans (hback hunits).symm)
      · intro hunits hfree hroom
        have hsame : s'.units = s.units := hback hunits
        obtain ⟨hempty, hrest⟩ := ih.emptied (hunits.trans hsame.symm) hfree (hsame ▸ hroom)
        refine ⟨hempty, fun x hx => ?_⟩
        rcases (hwaiting x).mp hx with ⟨o, ho, rfl⟩ | hx
        · exact hops.spent hsame rfl o ho
        · exact hops.threads hsame ▸ hrest x hx
      · intro hdraining
        exact (ih.draining hdraining).trans (hops.draining hdraining)
      · intro hall
        have hsame := (hops.stale (hhead hall)).1
        obtain ⟨hunits, hempty⟩ := ih.stale fun x hx => by
          rw [show ({ s' with index := 0 } : Issue).threads = s.threads from hops.threads hsame]
          exact hall x ((hwaiting x).mpr (.inr hx))
        exact ⟨hunits.trans hsame, hempty⟩

/-! ## Halts -/

namespace Execute

variable {s : Execute}

/-- Halts concern the threads alone. -/
theorem haltNext_congr {s' : Execute} (h : s'.threads = s.threads) :
    s'.haltNext.1.threads = s.haltNext.1.threads ∧ s'.haltNext.2 = s.haltNext.2 := by
  unfold haltNext
  rw [h]
  split
  · exact ⟨h, rfl⟩
  · split
    · exact ⟨h, rfl⟩
    · exact ⟨rfl, rfl⟩

/-- Without a pending halt none is sent. -/
theorem haltNext_of_none (h : ∀ th ∈ s.threads, th.haltPending = false) :
    s.haltNext = (s, none) := by
  have hnone : s.threads.findIdx? (·.haltPending) = none := List.findIdx?_eq_none_iff.mpr h
  rw [haltNext, hnone]

/-- While a halt is pending one is sent, and the others stay pending. -/
theorem countP_haltNext (h : 0 < s.threads.countP (·.haltPending)) :
    s.haltNext.1.threads.countP (·.haltPending) + 1 = s.threads.countP (·.haltPending) ∧
      ∃ r, s.haltNext.2 = some r := by
  unfold haltNext
  cases hfind : s.threads.findIdx? (·.haltPending) with
  | none =>
    have hnone := List.findIdx?_eq_none_iff.mp hfind
    obtain ⟨th, hth, hpending⟩ := List.countP_pos_iff.mp h
    rw [hnone th hth] at hpending
    exact absurd hpending Bool.false_ne_true
  | some t =>
    obtain ⟨ht, hpending, -⟩ := List.findIdx?_eq_some_iff_getElem.mp hfind
    simp only [List.getElem?_eq_getElem ht]
    refine ⟨?_, _, rfl⟩
    show (s.threads.set t (s.threads[t].halt (UInt32.ofNat t)).1).countP (·.haltPending) + 1 = _
    rw [List.countP_set ht, if_pos hpending,
      show (s.threads[t].halt (UInt32.ofNat t)).1.haltPending = false from rfl,
      if_neg Bool.false_ne_true]
    omega

/-! ## A cycle -/

/-- The units that stay in use if nothing is issued. -/
def kept (s : Execute) (cycle : Nat) : List InFlight := s.units.dropWhile (isDone cycle)

variable {cycle : Nat} {b : Bundle}

theorem loaded_idle (s : Execute) (cycle : Nat) (b : Bundle) :
    QueueIdle ⟨s.draining, s.unitCount, cycle + s.latency⟩ (s.loaded cycle b).input.entries
      ⟨s.threads, s.kept cycle, s.squashed, s.issueIndex, []⟩
      (issueQueue ⟨s.draining, s.unitCount, cycle + s.latency⟩ (s.loaded cycle b).input.entries
        ⟨s.threads, s.kept cycle, s.squashed, s.issueIndex, []⟩) :=
  issueQueue_idle ..

/-- What is in units and queue after a cycle is what issue left there. -/
theorem evaluate_issue (s : Execute) (cycle : Nat) (b : Bundle) :
    (s.evaluate cycle b).stage.units = ((s.loaded cycle b).issue cycle).1.units ∧
      (s.evaluate cycle b).stage.input.entries =
        ((s.loaded cycle b).issue cycle).1.input.entries := by
  obtain ⟨threads, heq⟩ := ((s.loaded cycle b).issue cycle).1.orHalt_eq
    ((s.loaded cycle b).issue cycle).2.1
  rw [stage_evaluate, heq]
  exact ⟨rfl, rfl⟩

/-- What is not done stays in its unit. -/
theorem kept_prefix (s : Execute) (cycle : Nat) (b : Bundle) :
    s.kept cycle <+: (s.evaluate cycle b).stage.units := by
  rw [(s.evaluate_issue cycle b).1]
  exact (s.loaded_idle cycle b).grows

/-- **During a drain nothing is issued.** -/
theorem units_of_draining (h : s.draining = true) (cycle : Nat) (b : Bundle) :
    (s.evaluate cycle b).stage.units = s.kept cycle := by
  rw [(s.evaluate_issue cycle b).1]
  exact (s.loaded_idle cycle b).draining h

/-- **If nothing is issued, only a halt is sent.** -/
theorem of_kept (h : (s.evaluate cycle b).stage.units = s.kept cycle) :
    (s.evaluate cycle b).stage.threads = s.haltNext.1.threads ∧
      (s.evaluate cycle b).redirect = s.haltNext.2 := by
  rw [(s.evaluate_issue cycle b).1] at h
  have hquiet : ((s.loaded cycle b).issue cycle).2.1 = none := (s.loaded_idle cycle b).quiet h
  rw [stage_evaluate, redirect_evaluate, hquiet]
  exact haltNext_congr ((s.loaded_idle cycle b).threads h)

theorem mem_waiting_loaded (hindexed : s.Indexed) {x : UInt32 × MicroOp} :
    x ∈ waitingOps s.issueIndex (s.loaded cycle b).input.entries ↔ x ∈ s.waiting ++ b.tagged := by
  rw [← waiting_loaded hindexed cycle b]
  rfl

/-- **If nothing is issued though a unit is free, all that waited was stale**, and is gone. -/
theorem stale_of_kept (hindexed : s.Indexed)
    (h : (s.evaluate cycle b).stage.units = s.kept cycle) (hfree : s.draining = false)
    (hroom : (s.kept cycle).length < s.unitCount) :
    (s.evaluate cycle b).stage.input.entries = [] ∧
      ∀ x ∈ s.waiting ++ b.tagged, Stale s.threads x := by
  rw [(s.evaluate_issue cycle b).1] at h
  obtain ⟨hempty, hstale⟩ := (s.loaded_idle cycle b).emptied h hfree hroom
  rw [(s.evaluate_issue cycle b).2]
  exact ⟨hempty, fun x hx => hstale x ((mem_waiting_loaded hindexed).mpr hx)⟩

/-- **Of stale micro-ops none is issued**, and none goes on waiting. -/
theorem of_stale (hindexed : s.Indexed) (h : ∀ x ∈ s.waiting ++ b.tagged, Stale s.threads x) :
    (s.evaluate cycle b).stage.units = s.kept cycle ∧
      (s.evaluate cycle b).stage.input.entries = [] := by
  rw [(s.evaluate_issue cycle b).1, (s.evaluate_issue cycle b).2]
  exact (s.loaded_idle cycle b).stale fun x hx => h x ((mem_waiting_loaded hindexed).mp hx)

/-- Execute does not work in a cycle if nothing is sent, retires, waits or is in a unit. -/
theorem busy_eq_false_iff (s : Execute) (cycle : Nat) (b : Bundle) :
    (s.evaluate cycle b).busy = false ↔ (s.evaluate cycle b).redirect = none ∧
      (s.evaluate cycle b).retired = [] ∧
      (∀ th ∈ (s.evaluate cycle b).stage.threads, th.haltPending = false) ∧
      (s.evaluate cycle b).stage.input.entries = [] ∧ (s.evaluate cycle b).stage.units = [] := by
  have hbusy : (s.evaluate cycle b).busy = ((s.evaluate cycle b).redirect.isSome ||
      !(s.evaluate cycle b).retired.isEmpty ||
      (s.evaluate cycle b).stage.threads.any (·.haltPending) ||
      !(s.evaluate cycle b).stage.isDrained) := rfl
  rw [hbusy]
  simp only [isDrained, Queue.isEmpty, Bool.or_eq_false_iff, Option.isSome_eq_false_iff,
    Option.isNone_iff_eq_none, Bool.not_eq_eq_eq_not, Bool.not_false, List.isEmpty_iff,
    List.any_eq_false, Bool.not_eq_true, Bool.and_eq_true, and_assoc]

/-- A cycle does not touch the settings of the stage. -/
theorem settings_evaluate (s : Execute) (cycle : Nat) (b : Bundle) :
    (s.evaluate cycle b).stage.draining = s.draining ∧
      (s.evaluate cycle b).stage.unitCount = s.unitCount ∧
      (s.evaluate cycle b).stage.input.capacity = s.input.capacity := by
  obtain ⟨threads, heq⟩ := ((s.loaded cycle b).issue cycle).1.orHalt_eq
    ((s.loaded cycle b).issue cycle).2.1
  have hpush : (s.input.push b).capacity = s.input.capacity := by
    unfold Queue.push
    split <;> rfl
  rw [stage_evaluate, heq]
  exact ⟨rfl, rfl, hpush⟩

theorem faultBit_evaluate (s : Execute) (cycle : Nat) (b : Bundle) :
    (s.evaluate cycle b).stage.faultBit = s.faultBit := by
  obtain ⟨threads, heq⟩ := ((s.loaded cycle b).issue cycle).1.orHalt_eq
    ((s.loaded cycle b).issue cycle).2.1
  rw [stage_evaluate, heq]
  rfl

end Execute

end InOrder
