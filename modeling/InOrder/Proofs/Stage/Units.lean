import InOrder.Proofs.Pipeline.Faults
import InOrder.Proofs.Stage.Squash

/-!
# Execute does not look into its units

Issue reads how many units are in use, and retirement reads when a micro-op is done. So two stages
that differ only in the instruction words in their units (`Execute.masked`) do the same in a cycle
(`Execute.evaluate_of_masked`): they send the same redirect, issue the same micro-ops and keep the
same queue. Only what retires, and so the signature, has the other words.
-/

namespace InOrder

/-! ## Words out of sight -/

/-- What is in a unit, without its instruction word. -/
def InFlight.masked (f : InFlight) : InFlight := { f with op := { f.op with inst := 0 } }

theorem InFlight.Alike.masked_eq {us us' : List InFlight} (h : List.Forall₂ Alike us us') :
    us'.map masked = us.map masked :=
  Alike.map_eq (fun _ _ => rfl) h

/-- What has retired, without its instruction word. -/
def Retired.masked (r : Retired) : Retired := { r with inst := 0 }

theorem masked_retired (us : List InFlight) :
    (us.map InFlight.retired).map Retired.masked =
      (us.map InFlight.masked).map InFlight.retired := by
  rw [List.map_map, List.map_map]
  rfl

/-- Execute without what corrupted units concern: the words in the units, the signature that is made
of them, and the bit that is to be flipped. -/
def Execute.masked (s : Execute) : Execute :=
  { s with units := s.units.map InFlight.masked, signature := 0, faultBit := 0 }

/-! ## Issue -/

/-- **Issue reads how many units are in use**, and not what is in them. -/
theorem issueOps_units (lim : IssueLimits) (t : UInt32) {us : List InFlight} :
    ∀ (os : List MicroOp) (s : Issue), us.length = s.units.length →
      ∃ (started : List InFlight) (i : Issue) (e : IssueEnd),
        issueOps lim t os s = ({ i with units := s.units ++ started }, e) ∧
        issueOps lim t os { s with units := us } = ({ i with units := us ++ started }, e) := by
  intro os
  induction os generalizing us with
  | nil =>
    intro s _
    exact ⟨[], s, .spent, by rw [List.append_nil]; rfl, by rw [List.append_nil]; rfl⟩
  | cons o rest ih =>
    intro s hlength
    rw [issueOps, issueOps]
    cases hth : s.threads[t.toNat]? with
    | none => exact ih s.squash hlength
    | some th =>
      dsimp only
      by_cases hstream : o.streamSeq ≠ th.streamSeq
      · rw [if_pos hstream, if_pos hstream]
        exact ih s.squash hlength
      · rw [if_neg hstream, if_neg hstream, hlength]
        by_cases hblocked : lim.draining = true ∨ lim.units ≤ s.units.length
        · rw [if_pos hblocked, if_pos hblocked]
          exact ⟨[], s, .blocked, by rw [List.append_nil], by rw [List.append_nil]⟩
        · rw [if_neg hblocked, if_neg hblocked]
          cases hissue : th.issue t o with
          | mk th' raised =>
            cases raised with
            | some r =>
              exact ⟨[⟨t, o, lim.doneAt⟩], s.start lim.doneAt t th' o, .raised r, rfl, rfl⟩
            | none =>
              obtain ⟨started, i, e, hsame, hother⟩ :=
                @ih (us ++ [⟨t, o, lim.doneAt⟩]) (s.start lim.doneAt t th' o)
                  (by simp [Issue.start, hlength])
              refine ⟨⟨t, o, lim.doneAt⟩ :: started, i, e, ?_, ?_⟩
              · rw [List.append_cons]
                exact hsame
              · rw [List.append_cons]
                exact hother

/-- So it is over all bundles. -/
theorem issueQueue_units (lim : IssueLimits) {us : List InFlight} :
    ∀ (bs : List Bundle) (s : Issue), us.length = s.units.length →
      ∃ (started : List InFlight) (left : List Bundle) (i : Issue) (r : Option Redirect),
        issueQueue lim bs s = (left, { i with units := s.units ++ started }, r) ∧
        issueQueue lim bs { s with units := us } =
          (left, { i with units := us ++ started }, r) := by
  intro bs
  induction bs generalizing us with
  | nil =>
    intro s _
    exact ⟨[], [], s, none, by rw [List.append_nil]; rfl, by rw [List.append_nil]; rfl⟩
  | cons b rest ih =>
    intro s hlength
    obtain ⟨started, i, e, hsame, hother⟩ :=
      issueOps_units lim b.thread (b.insts.drop s.index) s hlength
    rw [issueQueue, issueQueue, hsame]
    dsimp only
    rw [hother]
    cases e with
    | spent =>
      obtain ⟨more, left, i', r, hsame', hother'⟩ :=
        @ih (us ++ started) { i with units := s.units ++ started, index := 0 }
          (by rw [List.length_append, List.length_append, hlength])
      refine ⟨started ++ more, left, i', r, ?_, ?_⟩
      · rw [← List.append_assoc]
        exact hsame'
      · rw [← List.append_assoc]
        exact hother'
    | blocked => exact ⟨started, b :: rest, i, none, rfl, rfl⟩
    | raised r => exact ⟨started, b :: rest, i, some r, rfl, rfl⟩

namespace Execute

variable {s s' : Execute}

/-- A word does not tell whether its unit is in use. -/
theorem isDrained_masked (s : Execute) : s.masked.isDrained = s.isDrained := by
  rw [isDrained, isDrained, masked, List.isEmpty_map]

/-- Of the stage, too, issue reads no more than how many units are in use. -/
theorem issue_units (s : Execute) {us : List InFlight} (h : us.length = s.units.length)
    (signature : UInt64) (faultBit cycle : Nat) :
    ∃ (started : List InFlight) (e : Execute) (answer : Option Redirect × List UInt64),
      s.issue cycle = ({ e with units := s.units ++ started }, answer) ∧
      ({ s with units := us, signature, faultBit } : Execute).issue cycle =
        ({ e with units := us ++ started, signature, faultBit }, answer) := by
  obtain ⟨started, left, i, r, hsame, hother⟩ :=
    issueQueue_units ⟨s.draining, s.unitCount, cycle + s.latency⟩ s.input.entries
      ⟨s.threads, s.units, s.squashed, s.issueIndex, []⟩ h
  refine ⟨started,
    { s with
      input := s.input.withEntries left
      threads := i.threads, squashed := i.squashed, issueIndex := i.index }, (r, i.addrs), ?_, ?_⟩
  · rw [issue, hsame]
  · rw [issue, hother]

/-! ## A cycle -/

/-- The stages agree but for their units, their signatures and the bits to be flipped. -/
theorem eq_of_masked (h : s'.masked = s.masked) :
    s' = { s with units := s'.units, signature := s'.signature, faultBit := s'.faultBit } ∧
      s'.units.map InFlight.masked = s.units.map InFlight.masked := by
  cases s
  cases s'
  simp only [masked, mk.injEq] at h
  simp only [mk.injEq, true_and]
  exact ⟨by simp only [h, and_self], h.2.2.2.1⟩

/-- As many retire, and the rest stays. -/
theorem map_masked_done {us us' : List InFlight}
    (h : us'.map InFlight.masked = us.map InFlight.masked) (cycle : Nat) :
    (us'.takeWhile (isDone cycle)).map InFlight.masked =
        (us.takeWhile (isDone cycle)).map InFlight.masked ∧
      (us'.dropWhile (isDone cycle)).map InFlight.masked =
        (us.dropWhile (isDone cycle)).map InFlight.masked := by
  have hdone : isDone cycle ∘ InFlight.masked = isDone cycle := rfl
  have htake := congrArg (List.takeWhile (isDone cycle)) h
  have hdrop := congrArg (List.dropWhile (isDone cycle)) h
  rw [List.takeWhile_map, List.takeWhile_map, hdone] at htake
  rw [List.dropWhile_map, List.dropWhile_map, hdone] at hdrop
  exact ⟨htake, hdrop⟩

/-- Stages that agree in this way send the same halt. -/
theorem orHalt_of_masked (h : s'.masked = s.masked) (raised : Option Redirect) :
    (s'.orHalt raised).1.masked = (s.orHalt raised).1.masked ∧
      (s'.orHalt raised).2 = (s.orHalt raised).2 := by
  cases raised with
  | some r => exact ⟨h, rfl⟩
  | none =>
    rw [(eq_of_masked h).1]
    unfold orHalt haltNext
    dsimp only
    cases s.threads.findIdx? (·.haltPending) with
    | none => exact ⟨congrArg _ (eq_of_masked h).1.symm |>.trans h, rfl⟩
    | some t =>
      dsimp only
      cases s.threads[t]? with
      | none => exact ⟨congrArg _ (eq_of_masked h).1.symm |>.trans h, rfl⟩
      | some th =>
        refine ⟨?_, rfl⟩
        simp only [masked, (eq_of_masked h).2]

/-- Behind what stays in the units the same micro-ops are issued. -/
theorem issue_of_masked (h : s'.masked = s.masked) (cycle : Nat) (b : Bundle) :
    (∃ started, ((s.loaded cycle b).issue cycle).1.units = s.kept cycle ++ started ∧
      ((s'.loaded cycle b).issue cycle).1.units = s'.kept cycle ++ started) ∧
    ((s'.loaded cycle b).issue cycle).1.masked = ((s.loaded cycle b).issue cycle).1.masked ∧
    ((s'.loaded cycle b).issue cycle).2 = ((s.loaded cycle b).issue cycle).2 := by
  obtain ⟨heq, hunits⟩ := eq_of_masked h
  obtain ⟨htake, hdrop⟩ := map_masked_done hunits cycle
  have hlength : (s'.kept cycle).length = (s.kept cycle).length := by
    have := congrArg List.length hdrop
    rwa [List.length_map, List.length_map] at this
  obtain ⟨started, e, answer, hsame, hother⟩ := (s.loaded cycle b).issue_units hlength
    (s'.loaded cycle b).signature s'.faultBit cycle
  have hretired : ((s'.units.takeWhile (isDone cycle)).map InFlight.retired).length =
      ((s.units.takeWhile (isDone cycle)).map InFlight.retired).length := by
    have := congrArg List.length htake
    rwa [List.length_map, List.length_map, ← List.length_map (f := InFlight.retired),
      ← List.length_map (f := InFlight.retired)] at this
  have hloaded : s'.loaded cycle b = { s.loaded cycle b with
      units := s'.kept cycle, signature := (s'.loaded cycle b).signature
      faultBit := s'.faultBit } := by
    rw [heq]
    simp only [loaded, retire, hretired, kept]
  rw [hloaded, hsame, hother]
  refine ⟨⟨started, rfl, rfl⟩, ?_, rfl⟩
  have hkept : (s'.kept cycle).map InFlight.masked =
      (s.loaded cycle b).units.map InFlight.masked := hdrop
  simp only [masked, List.map_append, hkept]

/-- **What is in the units shows in nothing but what retires.** The same micro-ops are issued behind
them. -/
theorem evaluate_of_masked (h : s'.masked = s.masked) (cycle : Nat) (b : Bundle) :
    (∃ started, (s.evaluate cycle b).stage.units = s.kept cycle ++ started ∧
      (s'.evaluate cycle b).stage.units = s'.kept cycle ++ started) ∧
    (s'.evaluate cycle b).stage.masked = (s.evaluate cycle b).stage.masked ∧
    (s'.evaluate cycle b).redirect = (s.evaluate cycle b).redirect ∧
    (s'.evaluate cycle b).addrs = (s.evaluate cycle b).addrs ∧
    (s'.evaluate cycle b).busy = (s.evaluate cycle b).busy ∧
    (s'.evaluate cycle b).retired.map Retired.masked =
      (s.evaluate cycle b).retired.map Retired.masked := by
  obtain ⟨⟨started, hstarted, hstarted'⟩, hmasked, hanswer⟩ := issue_of_masked h cycle b
  obtain ⟨hstage, hredirect⟩ := orHalt_of_masked hmasked ((s.loaded cycle b).issue cycle).2.1
  have hretired : (s'.evaluate cycle b).retired.map Retired.masked =
      (s.evaluate cycle b).retired.map Retired.masked := by
    rw [(s'.evaluate_retired cycle b).1, (s.evaluate_retired cycle b).1, masked_retired,
      masked_retired, (map_masked_done (eq_of_masked h).2 cycle).1]
  have hstage' : (s'.evaluate cycle b).stage.masked = (s.evaluate cycle b).stage.masked := by
    rw [stage_evaluate, stage_evaluate, hanswer, hstage]
  have hredirect' : (s'.evaluate cycle b).redirect = (s.evaluate cycle b).redirect := by
    rw [redirect_evaluate, redirect_evaluate, hanswer, hredirect]
  refine ⟨⟨started, ?_, ?_⟩, hstage', hredirect', congrArg Prod.snd hanswer, ?_, hretired⟩
  · rw [(s.evaluate_issue cycle b).1, hstarted]
  · rw [(s'.evaluate_issue cycle b).1, hstarted']
  · show ((s'.evaluate cycle b).redirect.isSome || !(s'.evaluate cycle b).retired.isEmpty ||
        (s'.evaluate cycle b).stage.threads.any (·.haltPending) ||
        !(s'.evaluate cycle b).stage.isDrained) = _
    have hthreads : (s'.evaluate cycle b).stage.threads = (s.evaluate cycle b).stage.threads := by
      rw [(eq_of_masked hstage').1]
    rw [hredirect', hthreads, ← isDrained_masked, hstage', isDrained_masked,
      ← List.isEmpty_map (f := Retired.masked), hretired, List.isEmpty_map]
    rfl

end Execute

end InOrder
