import InOrder.Proofs.Lane.Route

/-!
# Lanes with chaff

Streams are numbered from `firstSeq` on, so nothing that belongs to a thread is of stream 0, and
what is of stream 0 is never issued nor cut. `Lane.sifted` is the lane without it, and with the
latches of what is left set afresh.

* `Lane.Step.sifted`: a step of a lane either concerns what is of stream 0, and the sifted lane stays
  as it is, or it is a step of the sifted lane.
* `Lane.Straight.steps`: so a lane of which the sifted one has right numbers and follows the course
  goes on in this way, whatever else it holds.
-/

namespace InOrder

/-! ## What is of no stream -/

/-- The latch with the same value and nothing else in it. -/
def Flag.refreshed (f : Flag) : Flag := if f.isSet then .set else .clear

@[simp] theorem Flag.refreshed_clear : clear.refreshed = clear := rfl

@[simp] theorem Flag.refreshed_set : set.refreshed = set := rfl

@[simp] theorem Flag.isSet_refreshed (f : Flag) : f.refreshed.isSet = f.isSet := by
  unfold refreshed
  cases h : f.isSet <;> simp

/-- The micro-op with its latches set afresh. -/
def MicroOp.refreshed (o : MicroOp) : MicroOp :=
  { o with bubble := .clear, predictedTaken := o.predictedTaken.refreshed }

theorem MicroOp.refreshed_eq {o : MicroOp} (hbubble : o.bubble = .clear)
    (htaken : o.predictedTaken.refreshed = o.predictedTaken) : o.refreshed = o := by
  rw [refreshed, htaken, ← hbubble]

/-- The line with its latch set afresh. -/
def Line.refreshed (l : Line) : Line := { l with bubble := .clear }

/-- What is done about a micro-op does not hang on what else is in its latches. -/
theorem MicroOp.outcome_refreshed (o : MicroOp) :
    ExecThread.outcome o.refreshed = ExecThread.outcome o := by
  unfold ExecThread.outcome MicroOp.refreshed
  simp only [Flag.isSet_refreshed]

theorem MicroOp.issue_refreshed (th : ExecThread) (t : UInt32) (o : MicroOp) :
    th.issue t o.refreshed = th.issue t o := by
  rw [ExecThread.issue, ExecThread.issue, outcome_refreshed]

/-- Data of a stream, with latches in it. -/
class Streamed (α : Type) where
  stream : α → UInt64
  /-- The latches set afresh. -/
  refresh : α → α
  stream_refresh : ∀ a, stream (refresh a) = stream a

instance : Streamed MicroOp := ⟨MicroOp.streamSeq, MicroOp.refreshed, fun _ => rfl⟩

instance : Streamed Line := ⟨Line.streamSeq, Line.refreshed, fun _ => rfl⟩

section Sift

variable {α : Type} [Streamed α] {a : α} {as : List α}

open Streamed

/-- What is of a stream, its latches set afresh. -/
def sift (as : List α) : List α := (as.map refresh).filter fun a => stream a != 0

@[simp] theorem sift_append (as bs : List α) : sift (as ++ bs) = sift as ++ sift bs := by
  simp [sift]

theorem sift_cons_of_ne (h : stream a ≠ 0) : sift (a :: as) = refresh a :: sift as := by
  simp [sift, stream_refresh, h]

theorem sift_cons_of_eq (h : stream a = 0) : sift (a :: as) = sift as := by
  simp [sift, stream_refresh, h]

/-- What is in front is chaff, or it is in front of what is left. -/
theorem sift_front {front : List α} (h : front = a :: as) :
    stream a = 0 ∧ sift as = sift front ∨ stream a ≠ 0 ∧ sift front = refresh a :: sift as := by
  subst h
  by_cases hzero : stream a = 0
  · exact .inl ⟨hzero, (sift_cons_of_eq hzero).symm⟩
  · exact .inr ⟨hzero, sift_cons_of_ne hzero⟩

theorem sift_congr {bs : List α} (h : as.map refresh = bs.map refresh) : sift as = sift bs := by
  rw [sift, h, sift]

/-- Of chaff nothing is left. -/
theorem sift_eq_nil (h : ∀ a ∈ as, stream a = 0) : sift as = [] := by
  simpa [sift, stream_refresh] using h

/-- What comes in with fresh latches is left as it is. -/
theorem sift_concat (as : List α) (h : stream a ≠ 0) (ha : refresh a = a) :
    sift (as ++ [a]) = sift as ++ [a] := by
  rw [sift_append, sift_cons_of_ne h, ha]
  rfl

end Sift

/-! ## Lanes -/

namespace Lane

variable {k : Track} {v w : Lane}

/-- The lane without what is of no stream. -/
def sifted (v : Lane) : Lane := { v with ops := sift v.ops, lines := sift v.lines }

theorem sifted_ops {ops : List MicroOp} (h : sift ops = sift v.ops) :
    ({ v with ops } : Lane).sifted = v.sifted := Lane.ext rfl rfl h rfl rfl rfl rfl rfl rfl rfl

theorem sifted_lines {lines : List Line} (h : sift lines = sift v.lines) :
    ({ v with lines } : Lane).sifted = v.sifted := Lane.ext rfl rfl rfl rfl h rfl rfl rfl rfl rfl

/-- The thread of a lane is in a stream wherever it is looked at, and its redirects lead to streams,
for reasons that have names. -/
structure Proper (v : Lane) : Prop where
  exec : v.exec.streamSeq ≠ 0
  expected : v.expected.streamSeq ≠ 0
  fetch : v.fetch.streamSeq ≠ 0
  stream : ∀ r ∈ v.redirects, r.newStreamSeq ≠ 0
  named : ∀ r ∈ v.redirects, Reason.ofCode r.reason.code = r.reason

namespace Proper

theorem firstSeq_ne_zero : firstSeq ≠ 0 := by decide

theorem start (entry : UInt64) : (Lane.start entry).Proper where
  exec := firstSeq_ne_zero
  expected := firstSeq_ne_zero
  fetch := firstSeq_ne_zero
  stream r hr := absurd hr (by simp [Lane.start])
  named r hr := absurd hr (by simp [Lane.start])

theorem pend (h : v.Proper) (haltPending : Bool) : (v.pend haltPending).Proper := { h with }

/-- A redirect that execute sends leads to a stream, and has a reason with a name. -/
theorem send (h : v.Proper) {r : Redirect} (hstream : r.newStreamSeq ≠ 0)
    (hnamed : Reason.ofCode r.reason.code = r.reason) :
    (∀ r' ∈ v.redirects ++ [r], r'.newStreamSeq ≠ 0) ∧
      ∀ r' ∈ v.redirects ++ [r], Reason.ofCode r'.reason.code = r'.reason := by
  simp only [List.mem_append, List.mem_singleton]
  refine ⟨?_, ?_⟩
  · rintro r' (hr' | rfl)
    · exact h.stream r' hr'
    · exact hstream
  · rintro r' (hr' | rfl)
    · exact h.named r' hr'
    · exact hnamed

/-- The reason for a redirect after a micro-op has a name. -/
theorem named_outcome (o : MicroOp) :
    Reason.ofCode (ExecThread.outcome o).1.code = (ExecThread.outcome o).1 := by
  unfold ExecThread.outcome
  cases Isa.classify o.inst with
  | jump offset =>
    dsimp only
    repeat' split
    all_goals rfl
  | suspend => rfl
  | plain => dsimp only; split <;> rfl

/-- **No step leads to stream 0, if its number is not given out.** -/
theorem step (hk : ∀ x, k.fresh x → x ≠ 0) (h : v.Proper) (hs : Step k v w) : w.Proper := by
  cases hs with
  | issue o rest th hops hcur hissue =>
    obtain ⟨-, rfl⟩ := ExecThread.of_issue_none hissue
    exact { h with }
  | raise o rest th r hops hcur hissue hfresh =>
    obtain ⟨-, rfl, rfl⟩ := ExecThread.of_issue_some hissue
    obtain ⟨hstream, hnamed⟩ := h.send (r := .live (ExecThread.outcome o).1 k.thread
      (ExecThread.outcome o).2 (v.exec.streamSeq + 1) firstSeq) (hk _ hfresh) (named_outcome o)
    exact { h with exec := hk _ hfresh, stream := hstream, named := hnamed }
  | halt hpending hfresh =>
    obtain ⟨hstream, hnamed⟩ := h.send (r := (v.exec.halt k.thread).2) (hk _ hfresh) rfl
    exact { h with exec := hk _ hfresh, stream := hstream, named := hnamed }
  | follow r rest ps hredirects hps =>
    have hhead : r ∈ v.redirects := hredirects ▸ List.mem_cons_self
    have hmem : ∀ r' ∈ rest, r' ∈ v.redirects := fun r' hr' =>
      hredirects ▸ List.mem_cons_of_mem r hr'
    exact ⟨h.exec, h.stream r hhead, h.stream r hhead, fun r' hr' => h.stream r' (hmem r' hr'),
      fun r' hr' => h.named r' (hmem r' hr')⟩
  | squash | drop | cut | cutJump | overtake | heed | ignore | forget | request | wake =>
    exact { h with }

end Proper

/-! ### Steps -/

/-- **A step concerns what is of stream 0, and the sifted lane stays as it is, or it is a step of the
sifted lane.** -/
theorem Step.sifted (h : v.Proper) (hs : Step k v w) : Steps k v.sifted w.sifted := by
  cases hs with
  | squash o rest hops hold =>
    rcases sift_front hops with ⟨-, hsame⟩ | ⟨-, hfront⟩
    · rw [sifted_ops hsame]
    · exact .single (.squash v.sifted o.refreshed _ hfront hold)
  | issue o rest th hops hcur hissue =>
    have hzero : o.streamSeq ≠ 0 := hcur ▸ h.exec
    have hfront := (congrArg sift hops).trans (sift_cons_of_ne hzero)
    exact .single (.issue v.sifted o.refreshed _ th hfront hcur
      ((MicroOp.issue_refreshed _ _ o).trans hissue))
  | raise o rest th r hops hcur hissue hfresh =>
    have hzero : o.streamSeq ≠ 0 := hcur ▸ h.exec
    have hfront := (congrArg sift hops).trans (sift_cons_of_ne hzero)
    exact .single (.raise v.sifted o.refreshed _ th r hfront hcur
      ((MicroOp.issue_refreshed _ _ o).trans hissue) hfresh)
  | halt hpending hfresh => exact .single (.halt v.sifted hpending hfresh)
  | drop l rest hlines hdone =>
    rcases sift_front hlines with ⟨-, hsame⟩ | ⟨-, hfront⟩
    · rw [sifted_lines hsame]
    · exact .single (.drop v.sifted l.refreshed _ hfront hdone)
  | cut l rest inst seq hlines hcarries hword hplain =>
    have hzero : l.streamSeq ≠ 0 := hcarries.1 ▸ h.expected
    have hfront := (congrArg sift hlines).trans (sift_cons_of_ne hzero)
    have hop := sift_concat (a := (⟨.clear, l.pc, seq, l.streamSeq, inst, .clear, 0⟩ : MicroOp))
      v.ops hzero (MicroOp.refreshed_eq rfl Flag.refreshed_clear)
    have hline : sift (l.enter (Isa.nextWord l.pc) :: rest) =
        l.refreshed.enter (Isa.nextWord l.pc) :: sift rest := sift_cons_of_ne hzero
    refine .single ?_
    show Step k v.sifted { v.sifted with lines := sift _, ops := sift _ }
    rw [hop, hline]
    exact .cut v.sifted l.refreshed _ inst seq hfront hcarries hword hplain
  | cutJump l rest inst offset seq hlines hcarries hword hjump hfresh =>
    have hzero : l.streamSeq ≠ 0 := hcarries.1 ▸ h.expected
    have hfront := (congrArg sift hlines).trans (sift_cons_of_ne hzero)
    have hop := sift_concat
      (a := (⟨.clear, l.pc, seq, l.streamSeq, inst, .set, Isa.displace l.pc offset⟩ : MicroOp))
      v.ops hzero (MicroOp.refreshed_eq rfl Flag.refreshed_set)
    refine .single ?_
    show Step k v.sifted { v.sifted with
      lines := sift rest, ops := sift _, expected := _, predictions := _ }
    rw [hop]
    exact .cutJump v.sifted l.refreshed _ inst offset seq hfront hcarries hword hjump hfresh
  | follow r rest ps hredirects hps => exact .single (.follow v.sifted r rest ps hredirects hps)
  | overtake p rest hpredictions => exact .single (.overtake v.sifted p rest hpredictions)
  | heed p rest hpredictions hruns hstream =>
    exact .single (.heed v.sifted p rest hpredictions hruns hstream)
  | ignore p rest hpredictions hold => exact .single (.ignore v.sifted p rest hpredictions hold)
  | forget lines l hlines hold =>
    have hback : sift v.lines = sift lines ++ sift [l] := by
      rw [hlines, sift_append]
    by_cases hzero : l.streamSeq = 0
    · rw [sift_cons_of_eq hzero] at hback
      rw [sifted_lines (hback.trans (List.append_nil _)).symm]
    · rw [sift_cons_of_ne hzero] at hback
      exact .single (.forget v.sifted _ l.refreshed hback hold)
  | request hruns =>
    have hline := sift_concat (a := v.fetch.line k) v.lines h.fetch rfl
    refine .single ?_
    show Step k v.sifted { v.sifted with lines := sift _, fetch := _ }
    rw [hline]
    exact .request v.sifted hruns
  | wake => exact .single (.wake v.sifted)

/-! ## Lanes that keep to the course -/

/-- But for what is of no stream, the lane has right numbers, and its thread follows the course. -/
structure Straight (k : Track) (v : Lane) : Prop where
  proper : v.Proper
  numbered : v.sifted.Numbered
  onRoute : v.sifted.OnRoute k

namespace Straight

theorem start (k : Track) : (Lane.start k.image.entry).Straight k :=
  ⟨.start _, .start _, .start k⟩

theorem pend (h : v.Straight k) (haltPending : Bool) : (v.pend haltPending).Straight k :=
  ⟨h.proper.pend haltPending, h.numbered.pend haltPending, h.onRoute.pend haltPending⟩

/-- What is of no stream does not matter. -/
theorem of_sifted (h : v.Straight k) (heq : w.sifted = v.sifted) : w.Straight k := by
  have hproper : w.sifted.Proper := heq ▸ { h.proper with }
  exact ⟨{ hproper with }, heq ▸ h.numbered, heq ▸ h.onRoute⟩

/-- **What else a lane holds does not lead its thread off the course.** -/
theorem steps (hk : ∀ x, k.fresh x → x ≠ firstSeq ∧ x ≠ 0) (hwhole : k.Whole)
    (hm : k.image.WordAligned) (h : v.Straight k) (hs : Steps k v w) : w.Straight k := by
  induction hs with
  | refl => exact h
  | tail _ hlast ih =>
    have hsifted := hlast.sifted ih.proper
    exact ⟨ih.proper.step (fun x hx => (hk x hx).2) hlast,
      ih.numbered.steps (fun x hx => (hk x hx).1) hsifted,
      ih.onRoute.steps (fun x hx => (hk x hx).1) hwhole hm ih.numbered hsifted⟩

/-- What a thread issued is a first part of its course. -/
theorem issued (h : v.Straight k) : v.issued = k.image.course v.issued.length := h.onRoute.issued

end Straight

end Lane

end InOrder
