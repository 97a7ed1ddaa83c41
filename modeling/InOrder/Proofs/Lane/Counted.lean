import InOrder.Proofs.Contents
import InOrder.Proofs.Lane.Route

/-!
# How far the numbers of a lane come

A thread changes its stream when it issues a micro-op or sends a halt, so its stream has no more
numbers before it than that. The numbers of predictions start again with every stream, and a
prediction is made when a jump is cut. As long as no redirect is on its way, what was cut in the
stream was issued or still waits for issue (`Lane.Counted`). This needs nothing of the numbers
themselves, so it can be said before it is known that none is given out twice.
-/

namespace InOrder

namespace Lane

variable {k : Track} {v w : Lane} {d : Nat}

/-- The numbers of a lane, when `d` halts were asked for. -/
structure Counted (d : Nat) (v : Lane) : Prop where
  stream : ordinal v.exec.streamSeq + (if v.exec.haltPending then 1 else 0) ≤ d + v.issued.length
  predictions : v.redirects = [] →
    ordinal v.expected.predictionSeq ≤ v.issued.length + predicted v.currentOps

theorem currentOps_cons {o : MicroOp} {rest : List MicroOp} (hops : v.ops = o :: rest)
    (hcur : o.streamSeq = v.exec.streamSeq) :
    v.currentOps = o :: rest.filter fun o => decide (o.streamSeq = v.exec.streamSeq) := by
  rw [currentOps, hops, List.filter_cons_of_pos (by simpa using hcur)]

namespace Counted

theorem start (entry : UInt64) : (Lane.start entry).Counted 0 :=
  ⟨by simp [Lane.start], fun _ => by simp [Lane.start]⟩

/-- What concerns neither execute nor the numbers that are expected leaves the count as it is. -/
theorem keep (hc : v.Counted d) (hissued : w.issued = v.issued) (hexec : w.exec = v.exec)
    (hops : w.ops = v.ops) (hexpected : w.expected = v.expected)
    (hredirects : w.redirects = v.redirects) : w.Counted d := by
  have hcurrent : w.currentOps = v.currentOps := by rw [currentOps, currentOps, hops, hexec]
  refine ⟨?_, fun hr => ?_⟩
  · rw [hexec, hissued]
    exact hc.stream
  · rw [hexpected, hissued, hcurrent]
    exact hc.predictions (hredirects ▸ hr)

theorem woken (hc : v.Counted d) : v.woken.Counted d := hc.keep rfl rfl rfl rfl rfl

/-- A halt that is asked for is one more. -/
theorem pend (hc : v.Counted d) : (v.pend true).Counted (d + 1) := by
  have hstream := hc.stream
  refine ⟨?_, hc.predictions⟩
  show ordinal v.exec.streamSeq + 1 ≤ d + 1 + v.issued.length
  omega

/-- A halt that is called off changes nothing. -/
theorem unpend (hc : v.Counted d) : (v.pend false).Counted d :=
  ⟨Nat.le_trans (Nat.le_add_right _ _) hc.stream, hc.predictions⟩

/-- A step that sends a redirect leaves no more to be said of predictions. -/
theorem send {r : Redirect} {rs : List Redirect}
    (hstream : ordinal w.exec.streamSeq + (if w.exec.haltPending then 1 else 0) ≤
      d + w.issued.length) (hredirects : w.redirects = rs ++ [r]) : w.Counted d :=
  ⟨hstream, fun hnone => absurd (hredirects.symm.trans hnone) (by simp)⟩

/-- A micro-op that is issued is counted, and does not wait any more. -/
theorem issue (hc : v.Counted d) {o : MicroOp} {rest : List MicroOp} (hops : v.ops = o :: rest)
    (hcur : o.streamSeq = v.exec.streamSeq) (hissued : w.issued = v.issued ++ [(o.pc, o.inst)])
    (hstream : w.exec.streamSeq = v.exec.streamSeq)
    (hpending : w.exec.haltPending = v.exec.haltPending) (hrest : w.ops = rest)
    (hexpected : w.expected = v.expected) (hredirects : w.redirects = v.redirects) :
    w.Counted d := by
  have hlength : w.issued.length = v.issued.length + 1 := by
    rw [hissued, List.length_append, List.length_singleton]
  refine ⟨?_, fun hr => ?_⟩
  · have hle := hc.stream
    rw [hstream, hpending, hlength]
    omega
  · have hle := hc.predictions (hredirects ▸ hr)
    have hcons := predicted_cons_le o (rest.filter fun o => o.streamSeq = v.exec.streamSeq)
    rw [currentOps_cons hops hcur] at hle
    rw [hexpected, hlength, currentOps, hrest, hstream]
    omega

/-- A predicted jump that is cut in the stream of execute waits then. -/
theorem predict (hc : v.Counted d) {o : MicroOp} (hcur : o.streamSeq = v.exec.streamSeq)
    (ho : o.predictedTaken.isSet = true) (hr : v.redirects = []) :
    ordinal (v.expected.predictionSeq + 1) ≤ v.issued.length +
      predicted ((v.ops ++ [o]).filter fun o : MicroOp => o.streamSeq = v.exec.streamSeq) := by
  have hle := hc.predictions hr
  have hnext := ordinal_succ_le v.expected.predictionSeq
  have hkept : ([o].filter fun o : MicroOp => o.streamSeq = v.exec.streamSeq) = [o] :=
    List.filter_cons_of_pos (by simpa using hcur)
  rw [currentOps] at hle
  rw [List.filter_append, predicted_append, hkept, predicted_singleton, if_pos ho]
  omega

/-- **Every step keeps the count.** -/
theorem step (hc : v.Counted d) (hv : v.InStream) (hs : Step k v w) : w.Counted d := by
  cases hs with
  | squash o rest hops hold =>
    have hcurrent : v.currentOps =
        rest.filter fun o => decide (o.streamSeq = v.exec.streamSeq) := by
      rw [currentOps, hops, List.filter_cons_of_neg (by simpa using hold)]
    refine ⟨hc.stream, fun hr => ?_⟩
    have hle := hc.predictions hr
    rw [hcurrent] at hle
    exact hle
  | issue o rest th hops hcur hissue =>
    obtain ⟨-, rfl⟩ := ExecThread.of_issue_none hissue
    exact hc.issue hops hcur rfl rfl rfl rfl rfl rfl
  | raise o rest th r hops hcur hissue hfresh =>
    obtain ⟨-, rfl, rfl⟩ := ExecThread.of_issue_some hissue
    have hstream := hc.stream
    have hnext := ordinal_succ_le v.exec.streamSeq
    refine send ?_ rfl
    show ordinal (v.exec.streamSeq + 1) + (if v.exec.haltPending = true then 1 else 0) ≤
      d + (v.issued ++ [(o.pc, o.inst)]).length
    rw [List.length_append, List.length_singleton]
    omega
  | halt hpending hfresh =>
    have hstream := hc.stream
    rw [if_pos hpending] at hstream
    exact send (Nat.le_trans (ordinal_succ_le v.exec.streamSeq) hstream) rfl
  | cut l rest inst seq hlines hcarries hword hplain =>
    refine ⟨hc.stream, fun hr => Nat.le_trans (hc.predictions hr) (Nat.add_le_add_left ?_ _)⟩
    exact predicted_le_of_sublist ((List.sublist_append_left _ _).filter _)
  | cutJump l rest inst offset seq hlines hcarries hword hjump hfresh =>
    refine ⟨hc.stream, fun hr => ?_⟩
    have hnone : v.redirects = [] := hr
    have hcur : l.streamSeq = v.exec.streamSeq := by
      have hclimbs := hv.climbs
      rw [hnone] at hclimbs
      exact (hcarries.1.trans hv.stream).trans hclimbs
    exact hc.predict hcur Flag.isSet_set hnone
  | follow r rest ps hredirects hps =>
    have hreset := hv.resets r (hredirects ▸ List.mem_cons_self)
    refine ⟨hc.stream, fun _ => ?_⟩
    show ordinal r.newPredictionSeq ≤ _
    rw [hreset, ordinal_firstSeq]
    exact Nat.zero_le _
  | drop | overtake | heed | ignore | forget | request | wake => exact hc.keep rfl rfl rfl rfl rfl

theorem steps (hc : v.Counted d) (hv : v.InStream) (hs : Steps k v w) : w.Counted d := by
  induction hs with
  | refl => exact hc
  | tail hpre hlast ih => exact ih.step (hv.steps hpre) hlast

end Counted

end Lane

end InOrder
