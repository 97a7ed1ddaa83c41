import InOrder.Proofs.Stage.Squash
import InOrder.Proofs.Pipeline.Faults

/-!
# When units are left

What execute issues in a cycle stands behind all that stays in the units, and is done in one and the
same later cycle (`Execute.evaluate_issued`). So the units are lined up by the cycles in which they
are left: those that are due come first, and to retire from the oldest on is to retire just them
(`Execute.done_of_alike`).
-/

namespace InOrder

/-! ## Issue -/

/-- What issue did between two moments: it put micro-ops behind those in the units, all to be done
at the same time, in no more units than there are, and noted their addresses. -/
def Issue.Fills (lim : IssueLimits) (s s' : Issue) : Prop :=
  ∃ started, s'.units = s.units ++ started ∧ s'.addrs = s.addrs ++ started.map (·.op.pc) ∧
    (∀ f ∈ started, f.doneAt = lim.doneAt) ∧
    (s.units.length ≤ lim.units → s'.units.length ≤ lim.units)

namespace Issue.Fills

variable {lim : IssueLimits} {s s' s'' : Issue}

/-- Nothing was issued. -/
theorem of_same (hunits : s'.units = s.units) (haddrs : s'.addrs = s.addrs) : s.Fills lim s' :=
  ⟨[], by rw [hunits, List.append_nil], by rw [haddrs, List.map_nil, List.append_nil],
    fun f hf => absurd hf List.not_mem_nil, fun h => hunits ▸ h⟩

theorem trans (h : s.Fills lim s') (h' : s'.Fills lim s'') : s.Fills lim s'' := by
  obtain ⟨started, hunits, haddrs, hdone, hfit⟩ := h
  obtain ⟨started', hunits', haddrs', hdone', hfit'⟩ := h'
  refine ⟨started ++ started', ?_, ?_, fun f hf => ?_, fun hle => hfit' (hfit hle)⟩
  · rw [hunits', hunits, List.append_assoc]
  · rw [haddrs', haddrs, List.map_append, List.append_assoc]
  · exact (List.mem_append.mp hf).elim (hdone f) (hdone' f)

/-- A micro-op is put into a free unit. -/
theorem start (hroom : ¬ lim.units ≤ s.units.length) (t : UInt32) (th : ExecThread) (o : MicroOp) :
    s.Fills lim (s.start lim.doneAt t th o) := by
  refine ⟨[⟨t, o, lim.doneAt⟩], rfl, rfl, fun f hf => ?_, fun _ => ?_⟩
  · rw [List.mem_singleton.mp hf]
  · show (s.units ++ [_]).length ≤ lim.units
    rw [List.length_append, List.length_singleton]
    omega

end Issue.Fills

theorem issueOps_fills (lim : IssueLimits) (t : UInt32) :
    ∀ (os : List MicroOp) (s : Issue), s.Fills lim (issueOps lim t os s).1
  | [], s => .of_same rfl rfl
  | o :: rest, s => by
    have hsquash : s.Fills lim (issueOps lim t rest s.squash).1 :=
      (Issue.Fills.of_same rfl rfl : s.Fills lim s.squash).trans (issueOps_fills lim t rest _)
    rw [issueOps]
    split
    · exact hsquash
    split
    · exact hsquash
    split
    · exact .of_same rfl rfl
    · rename_i hfree
      have hroom : ¬ lim.units ≤ s.units.length := fun h => hfree (.inr h)
      split
      · exact .start hroom t _ o
      · exact (Issue.Fills.start hroom t _ o).trans (issueOps_fills lim t rest _)

theorem issueQueue_fills (lim : IssueLimits) :
    ∀ (bs : List Bundle) (s : Issue), s.Fills lim (issueQueue lim bs s).2.1
  | [], s => .of_same rfl rfl
  | b :: rest, s => by
    have hops := issueOps_fills lim b.thread (b.insts.drop s.index) s
    rw [issueQueue]
    split
    · rename_i s' he
      rw [he] at hops
      have hrest := issueQueue_fills lim rest { s' with index := 0 }
      exact hops.trans ((Issue.Fills.of_same rfl rfl).trans hrest)
    · rename_i s' he
      rwa [he] at hops
    · rename_i s' r he
      rwa [he] at hops

namespace Execute

/-- The micro-ops that are issued in a cycle: those behind what stays in the units. -/
def issued (s : Execute) (cycle : Nat) (b : Bundle) : List InFlight :=
  (s.evaluate cycle b).stage.units.drop (s.kept cycle).length

/-- **What is issued in a cycle** is done together, and as many micro-ops are in the units as there
are units, or fewer. -/
theorem evaluate_issued (s : Execute) (cycle : Nat) (b : Bundle) :
    (s.evaluate cycle b).stage.units = s.kept cycle ++ s.issued cycle b ∧
      (s.evaluate cycle b).addrs = (s.issued cycle b).map (·.op.pc) ∧
      (∀ f ∈ s.issued cycle b, f.doneAt = cycle + s.latency) ∧
      (s.units.length ≤ s.unitCount → (s.evaluate cycle b).stage.units.length ≤ s.unitCount) := by
  obtain ⟨started, hunits, haddrs, hdone, hfit⟩ :=
    issueQueue_fills ⟨s.draining, s.unitCount, cycle + s.latency⟩ (s.loaded cycle b).input.entries
      ⟨s.threads, s.kept cycle, s.squashed, s.issueIndex, []⟩
  have hafter : (s.evaluate cycle b).stage.units = s.kept cycle ++ started :=
    (s.evaluate_issue cycle b).1.trans hunits
  have hissued : s.issued cycle b = started := by rw [issued, hafter, List.drop_left]
  rw [hissued]
  refine ⟨hafter, haddrs, hdone, fun hle => ?_⟩
  have hkept : (s.kept cycle).length ≤ s.unitCount :=
    Nat.le_trans (List.dropWhile_sublist _).length_le hle
  rw [hafter, ← hunits]
  exact hfit hkept

theorem latency_evaluate (s : Execute) (cycle : Nat) (b : Bundle) :
    (s.evaluate cycle b).stage.latency = s.latency := by
  obtain ⟨threads, heq⟩ := ((s.loaded cycle b).issue cycle).1.orHalt_eq
    ((s.loaded cycle b).issue cycle).2.1
  rw [stage_evaluate, heq]
  rfl

end Execute

/-! ## Retirement -/

theorem InFlight.Alike.trans {f g h : InFlight} (hfg : f.Alike g) (hgh : g.Alike h) :
    f.Alike h := by
  obtain ⟨inst, rfl⟩ := hfg
  obtain ⟨inst', rfl⟩ := hgh
  exact ⟨inst', rfl⟩

theorem InFlight.Alike.trans_forall₂ {us us' us'' : List InFlight}
    (h : List.Forall₂ Alike us us') (h' : List.Forall₂ Alike us' us'') :
    List.Forall₂ Alike us us'' := by
  induction h generalizing us'' with
  | nil => exact h'
  | cons halike _ ih =>
    cases h' with
    | cons halike' htail => exact .cons (halike.trans halike') (ih htail)

theorem InFlight.Alike.isDone_eq {f g : InFlight} (h : f.Alike g) (cycle : Nat) :
    Execute.isDone cycle g = Execute.isDone cycle f := by
  obtain ⟨inst, rfl⟩ := h
  rfl

/-- **Where what is due comes first, just that leaves the units**, also after flips. -/
theorem Execute.done_of_alike {cycle : Nat} {due rest us : List InFlight}
    (h : List.Forall₂ InFlight.Alike (due ++ rest) us) (hdue : ∀ f ∈ due, isDone cycle f = true)
    (hrest : ∀ f ∈ rest, isDone cycle f = false) :
    List.Forall₂ InFlight.Alike due (us.takeWhile (isDone cycle)) ∧
      List.Forall₂ InFlight.Alike rest (us.dropWhile (isDone cycle)) := by
  induction due generalizing us with
  | nil =>
    rw [List.nil_append] at h
    cases h with
    | nil => exact ⟨.nil, .nil⟩
    | @cons f g rest us halike htail =>
      have hg : ¬ isDone cycle g = true := by
        rw [halike.isDone_eq, hrest f List.mem_cons_self]
        exact Bool.false_ne_true
      rw [List.takeWhile_cons_of_neg hg, List.dropWhile_cons_of_neg hg]
      exact ⟨.nil, .cons halike htail⟩
  | cons f due ih =>
    cases h with
    | @cons _ g _ us halike htail =>
      have hg : isDone cycle g = true := by
        rw [halike.isDone_eq, hdue f List.mem_cons_self]
      obtain ⟨htake, hdrop⟩ := ih htail fun f' hf' => hdue f' (List.mem_cons_of_mem f hf')
      rw [List.takeWhile_cons_of_pos hg, List.dropWhile_cons_of_pos hg]
      exact ⟨.cons halike htake, hdrop⟩

end InOrder
