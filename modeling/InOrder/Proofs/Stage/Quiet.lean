import InOrder.Proofs.Stage.Discard
import InOrder.Proofs.Stage.Squash
import InOrder.Proofs.Stage.Supply
import InOrder.Stage.Set

/-!
# Stages with nothing to do

Stages are quiet when they hold nothing, no thread fetches and no halt is asked for.

* `Stages.quiet_of_busy`: stages that did no work in a cycle are quiet.
* `Stages.Quiet.evaluate`: quiet stages to which nothing comes do nothing, and stay as they are. A
  prediction may come, since no thread takes it up.
-/

namespace InOrder

/-! ## Single stages -/

namespace LineFetch

variable {s : LineFetch} {cycle : Nat}

/-- If no line is in flight when one could have been asked for, no thread runs. -/
theorem stopped_requestNext (h : (s.requestNext cycle).1.pending = none) :
    ∀ th ∈ (s.requestNext cycle).1.threads, th.state ≠ .running := by
  have hstopped : ∀ th ∈ s.threads, th.state ≠ .running := by
    intro th hth hrun
    obtain ⟨t, ht⟩ := List.getElem?_of_mem hth
    exact pending_of_running ht hrun cycle h
  rw [requestNext_of_stopped hstopped]
  exact hstopped

/-- A stage in which nothing is in flight and no thread runs does nothing without a redirect. -/
theorem evaluate_quiet (hpending : s.pending = none)
    (hstopped : ∀ th ∈ s.threads, th.state ≠ .running) {branch : Redirect}
    (hb : Payload.isBubble branch = true) (cycle : Nat) (prediction : Redirect) (room : Bool) :
    (s.evaluate cycle branch prediction room).stage = s ∧
      (s.evaluate cycle branch prediction room).line = none := by
  have hdeliver : s.deliver cycle room = (s, none) := by
    rw [deliver, hpending]
  obtain ⟨hstage, hline⟩ := evaluate_of_stopped hb hstopped cycle prediction room
  rw [hstage, hline, hdeliver]
  exact ⟨rfl, rfl⟩

/-- A halt leaves a stage in which nothing is in flight and no thread runs so. -/
theorem evaluate_halted (hpending : s.pending = none)
    (hstopped : ∀ th ∈ s.threads, th.state ≠ .running) {branch prediction : Redirect}
    (hb : Payload.isBubble branch = false → branch.reason = .halt)
    (hp : Payload.isBubble prediction = true) (cycle : Nat) (room : Bool) :
    (s.evaluate cycle branch prediction room).stage.pending = none ∧
      (∀ th ∈ (s.evaluate cycle branch prediction room).stage.threads, th.state ≠ .running) ∧
      (s.evaluate cycle branch prediction room).line = none := by
  obtain ⟨hpending', hstopped'⟩ : (s.redirect branch prediction).1.pending = none ∧
      ∀ th ∈ (s.redirect branch prediction).1.threads, th.state ≠ .running := by
    cases hlive : Payload.isBubble branch with
    | true =>
      rw [redirect_of_bubbles hlive hp]
      exact ⟨hpending, hstopped⟩
    | false =>
      have hhalt := hb hlive
      have hset : branch.bubble.isSet = false := hlive
      have hisLive : branch.isLive = true := by simp [Redirect.isLive, hset, hhalt]
      have hchanges : Reason.halt.changesStream = true := rfl
      rw [redirect, if_pos hisLive, changeStream, hhalt, if_pos hchanges]
      split
      · exact ⟨hpending, hstopped⟩
      · refine ⟨congrArg (Option.filter _) hpending, fun th hth => ?_⟩
        rcases List.mem_or_eq_of_mem_set hth with hth | rfl
        · exact hstopped th hth
        · show FetchState.after .halt ≠ .running
          decide
  have hdeliver : (s.redirect branch prediction).1.deliver cycle room =
      ((s.redirect branch prediction).1, none) := by
    rw [deliver, hpending']
  rw [stage_evaluate, line_evaluate, hdeliver, requestNext_of_stopped hstopped']
  exact ⟨hpending', hstopped', rfl⟩

end LineFetch

/-- A bubble is not queued. -/
theorem Queue.push_of_bubble {α : Type} [Payload α] (q : Queue α) {a : α}
    (h : Payload.isBubble a = true) : q.push a = q := if_pos h

/-- A queue without entries is as it was when no entries are put back. -/
theorem Queue.withEntries_nil {α : Type} {q : Queue α} (h : q.entries = []) :
    q.withEntries [] = q := by
  rw [← h]
  rfl

namespace Slicer

variable {s : Slicer}

/-- A stage without lines cuts nothing when none comes, whatever numbers it is to expect. -/
theorem evaluate_empty (hentries : s.input.entries = []) {l : Line}
    (hl : Payload.isBubble l = true) (r : Redirect) (room : Bool) :
    (s.evaluate l r room).stage = { s with expected := s.followed r } ∧
      (s.evaluate l r room).bundle = none ∧ (s.evaluate l r room).prediction = none := by
  obtain ⟨q, hq⟩ : ∃ q, q = ({ s with expected := s.followed r } : Slicer) := ⟨_, rfl⟩
  have hloaded : s.loaded l r = q := by
    rw [loaded, Queue.push_of_bubble _ hl, hq]
  have hentries' : q.input.entries = [] := hq ▸ hentries
  have hcut : q.cut = (q, ⟨q.expected, q.cursor, q.nextSeq, q.discarded, 0, [], none⟩) := by
    simp only [cut, hentries', cutQueue, Queue.withEntries_nil hentries']
  rw [← hq]
  unfold evaluate
  simp only [follow_push, hloaded, hcut]
  cases room <;> exact ⟨rfl, rfl, rfl⟩

/-- A stage without lines does nothing when none comes. -/
theorem evaluate_quiet (hentries : s.input.entries = []) {l : Line} {r : Redirect}
    (hl : Payload.isBubble l = true) (hr : Payload.isBubble r = true) (room : Bool) :
    (s.evaluate l r room).stage = s ∧ (s.evaluate l r room).bundle = none ∧
      (s.evaluate l r room).prediction = none := by
  obtain ⟨hstage, hsent⟩ := evaluate_empty hentries hl r room
  rw [followed_of_bubble (Redirect.not_isLive hr)] at hstage
  exact ⟨hstage, hsent⟩

end Slicer

namespace Decode

variable {s : Decode}

/-- A stage without bundles does nothing when none comes. -/
theorem evaluate_quiet (hentries : s.input.entries = []) {b : Bundle}
    (hb : Payload.isBubble b = true) (room : Bool) :
    (s.evaluate b room).stage = s ∧ (s.evaluate b room).bundle = none := by
  have hpop : s.input.pop = (none, s.input) := by
    rw [Queue.pop, hentries]
  unfold evaluate
  simp only [Queue.push_of_bubble _ hb, hpop]
  cases room <;> exact ⟨rfl, rfl⟩

end Decode

namespace Execute

variable {s : Execute}

/-- A stage without micro-ops sends halts and does nothing else when no bundle comes. -/
theorem evaluate_empty (hentries : s.input.entries = []) (hunits : s.units = []) {b : Bundle}
    (hb : Payload.isBubble b = true) (cycle : Nat) :
    (s.evaluate cycle b).stage = s.haltNext.1 ∧ (s.evaluate cycle b).redirect = s.haltNext.2 ∧
      (s.evaluate cycle b).retired = [] := by
  have hloaded : s.loaded cycle b = s := by
    unfold loaded retire
    simp only [hunits, List.takeWhile_nil, List.dropWhile_nil, List.map_nil, List.length_nil,
      Nat.add_zero, List.foldl_nil, Queue.push_of_bubble _ hb]
    rw [← hunits]
  have hissue : s.issue cycle = (s, none, []) := by
    unfold issue
    simp only [hentries, issueQueue, Queue.withEntries_nil hentries]
  refine ⟨?_, ?_, ?_⟩
  · rw [stage_evaluate, hloaded, hissue]
    rfl
  · rw [redirect_evaluate, hloaded, hissue]
    rfl
  · rw [(s.evaluate_retired cycle b).1, hunits]
    rfl

/-- A stage without micro-ops and halts does nothing when no bundle comes. -/
theorem evaluate_quiet (hentries : s.input.entries = []) (hunits : s.units = [])
    (hhalts : ∀ th ∈ s.threads, th.haltPending = false) {b : Bundle}
    (hb : Payload.isBubble b = true) (cycle : Nat) :
    (s.evaluate cycle b).stage = s ∧ (s.evaluate cycle b).redirect = none ∧
      (s.evaluate cycle b).retired = [] := by
  have hempty := evaluate_empty hentries hunits hb cycle
  rwa [haltNext_of_none hhalts] at hempty

/-- A halt concerns the threads alone, and is sent for no other reason. -/
theorem haltNext_eq (s : Execute) :
    ∃ threads, s.haltNext.1 = { s with threads } ∧ ∀ r, s.haltNext.2 = some r → r.reason = .halt := by
  unfold haltNext
  split
  · exact ⟨s.threads, rfl, fun r hr => nomatch hr⟩
  · split
    · exact ⟨s.threads, rfl, fun r hr => nomatch hr⟩
    · exact ⟨_, rfl, fun r hr => Option.some.inj hr ▸ rfl⟩

end Execute

/-! ## All four -/

/-- Nothing comes to a stage, but for a prediction. -/
structure Outputs.Quiet (o : Outputs) : Prop where
  line : Payload.isBubble o.f1ToF2 = true
  cut : Payload.isBubble o.f2ToD = true
  decoded : Payload.isBubble o.dToE = true
  redirect : Payload.isBubble o.eToF1 = true

namespace Stages

/-- Nothing is held, no thread fetches, and no halt is asked for. -/
structure Quiet (s : Stages) : Prop where
  pending : s.lineFetch.pending = none
  stopped : ∀ th ∈ s.lineFetch.threads, th.state ≠ .running
  lines : s.slicer.input.entries = []
  bundles : s.decode.input.entries = []
  queued : s.execute.input.entries = []
  units : s.execute.units = []
  halts : ∀ th ∈ s.execute.threads, th.haltPending = false

variable {s : Stages} {cycle : Nat} {o : Outputs}

/-- **Stages that did no work in a cycle are quiet.** -/
theorem quiet_of_busy (h : (s.evaluate cycle o).busy = false) :
    (s.evaluate cycle o).stages.Quiet := by
  simp only [evaluate, Bool.or_eq_false_iff] at h
  obtain ⟨⟨⟨hexecute, hdecode⟩, hslicer⟩, hfetch⟩ := h
  obtain ⟨-, -, hhalts, hqueued, hunits⟩ := (Execute.busy_eq_false_iff ..).mp hexecute
  obtain ⟨-, hbundles⟩ := (Decode.busy_eq_false_iff ..).mp hdecode
  obtain ⟨-, hlines⟩ := (Slicer.busy_eq_false_iff ..).mp hslicer
  obtain ⟨-, hpending⟩ := (LineFetch.busy_eq_false_iff ..).mp hfetch
  exact ⟨hpending, LineFetch.stopped_requestNext hpending, hlines, hbundles, hqueued, hunits,
    hhalts⟩

/-- Stages that did no work in a cycle wrote nothing, but perhaps a prediction. -/
theorem writes_of_busy (h : (s.evaluate cycle o).busy = false) :
    (s.evaluate cycle o).writes.f1ToF2 = none ∧ (s.evaluate cycle o).writes.f2ToD = none ∧
      (s.evaluate cycle o).writes.dToE = none ∧ (s.evaluate cycle o).writes.eToF1 = none := by
  simp only [evaluate, Bool.or_eq_false_iff] at h
  obtain ⟨⟨⟨hexecute, hdecode⟩, hslicer⟩, hfetch⟩ := h
  exact ⟨((LineFetch.busy_eq_false_iff ..).mp hfetch).1,
    ((Slicer.busy_eq_false_iff ..).mp hslicer).1, ((Decode.busy_eq_false_iff ..).mp hdecode).1,
    ((Execute.busy_eq_false_iff ..).mp hexecute).1⟩

/-- Stages that hold nothing, and in which no thread fetches, all report that they are drained. -/
theorem all_drained (hpending : s.lineFetch.pending = none)
    (hstopped : ∀ th ∈ s.lineFetch.threads, th.state ≠ .running)
    (hlines : s.slicer.input.entries = []) (hbundles : s.decode.input.entries = [])
    (hqueued : s.execute.input.entries = []) (hunits : s.execute.units = []) :
    ∀ drained ∈ (StageSet.drained s).toList, drained = true := by
  have hfetch : s.lineFetch.isDrained = true := by
    simpa [LineFetch.isDrained, hpending] using hstopped
  simp only [PerStage.toList, StageSet.drained, Slicer.isDrained, Decode.isDrained,
    Execute.isDrained, Queue.isEmpty, hlines, hbundles, hqueued, hunits, hfetch]
  simp

/-- Quiet stages all report that they are drained. -/
theorem Quiet.drained (h : s.Quiet) : ∀ drained ∈ (StageSet.drained s).toList, drained = true :=
  all_drained h.pending h.stopped h.lines h.bundles h.queued h.units

/-- **Quiet stages to which nothing comes do nothing**, and stay as they are. -/
theorem Quiet.evaluate (h : s.Quiet) (ho : o.Quiet) (cycle : Nat) :
    (s.evaluate cycle o).stages = s ∧ (s.evaluate cycle o).writes = {} ∧
      (s.evaluate cycle o).retired = [] := by
  obtain ⟨hexecute, hredirect, hretired⟩ :=
    Execute.evaluate_quiet h.queued h.units h.halts ho.decoded cycle
  obtain ⟨hdecode, hdecoded⟩ := Decode.evaluate_quiet h.bundles ho.cut s.execute.input.hasRoom
  obtain ⟨hslicer, hcut, hprediction⟩ :=
    Slicer.evaluate_quiet h.lines ho.line ho.redirect s.decode.input.hasRoom
  obtain ⟨hfetch, hline⟩ := LineFetch.evaluate_quiet h.pending h.stopped ho.redirect cycle
    o.f2ToF1 s.slicer.input.hasRoom
  simp only [Stages.evaluate, hexecute, hdecode, hslicer, hfetch, hredirect, hdecoded, hcut,
    hprediction, hline, hretired, and_self]

end Stages

end InOrder
