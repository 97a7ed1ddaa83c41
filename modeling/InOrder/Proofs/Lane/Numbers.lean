import InOrder.Proofs.Lane.Basic
import InOrder.Proofs.Ordinal

/-!
# The numbers in a lane

Two stages keep copies of the numbers of a thread, and learn of a change by redirects and
predictions that are under way for any number of cycles. Two invariants of a lane say what the
copies have to do with each other:

* `InStream` is about streams alone: the line fetch and the slicer always agree, and the redirects
  on their way lead from their stream to that of execute without a gap. It holds whatever
  numbers are given out.
* `Numbered` needs that no number is given out twice. Nothing in the lane is younger than the
  stream of the line fetch, and the slicer is ahead of the line fetch by `Lane.owed` predictions:
  by the prediction that is on its way, or that was lost.
-/

namespace InOrder

namespace Lane

variable {k : Track} {v w : Lane}

/-! ## Streams -/

/-- The line fetch, the slicer and execute agree on the stream, but for redirects on their way. -/
structure InStream (v : Lane) : Prop where
  stream : v.expected.streamSeq = v.fetch.streamSeq
  climbs : Climbs v.fetch.streamSeq (v.redirects.map (·.newStreamSeq)) v.exec.streamSeq
  resets : ∀ r ∈ v.redirects, r.newPredictionSeq = firstSeq

/-- A redirect that execute sends goes on where the ones before it end. -/
theorem InStream.send (h : v.InStream) {r : Redirect}
    (hseq : r.newStreamSeq = v.exec.streamSeq + 1) (hps : r.newPredictionSeq = firstSeq) :
    Climbs v.fetch.streamSeq ((v.redirects ++ [r]).map (·.newStreamSeq)) (v.exec.streamSeq + 1) ∧
      ∀ r' ∈ v.redirects ++ [r], r'.newPredictionSeq = firstSeq := by
  constructor
  · rw [List.map_append, List.map_singleton, hseq]
    exact h.climbs.concat
  · intro r' hr'
    rcases List.mem_append.mp hr' with hr' | hr'
    · exact h.resets r' hr'
    · rw [List.mem_singleton.mp hr', hps]

theorem InStream.step (h : v.InStream) (hs : Step k v w) : w.InStream := by
  cases hs with
  | issue o rest th hops hcur hissue =>
    obtain ⟨-, rfl⟩ := ExecThread.of_issue_none hissue
    exact ⟨h.stream, h.climbs, h.resets⟩
  | raise o rest th r hops hcur hissue hfresh =>
    obtain ⟨-, rfl, rfl⟩ := ExecThread.of_issue_some hissue
    obtain ⟨hclimbs, hresets⟩ := h.send (r := .live (ExecThread.outcome o).1 k.thread
      (ExecThread.outcome o).2 (v.exec.streamSeq + 1) firstSeq) rfl rfl
    exact ⟨h.stream, hclimbs, hresets⟩
  | halt hpending hfresh =>
    obtain ⟨hclimbs, hresets⟩ := h.send (r := (v.exec.halt k.thread).2) rfl rfl
    exact ⟨h.stream, hclimbs, hresets⟩
  | follow r rest ps hredirects hps =>
    have hclimbs := h.climbs
    rw [hredirects] at hclimbs
    refine ⟨rfl, hclimbs.2, fun r' hr' => h.resets r' ?_⟩
    rw [hredirects]
    exact List.mem_cons_of_mem r hr'
  | squash | drop | cut | cutJump | overtake | heed | ignore | forget | request | wake =>
    exact ⟨h.stream, h.climbs, h.resets⟩

/-- The streams of a lane agree after any number of steps. -/
theorem InStream.steps (h : v.InStream) (hs : Steps k v w) : w.InStream := by
  induction hs with
  | refl => exact h
  | tail _ hlast ih => exact ih.step hlast

theorem InStream.pend (h : v.InStream) (haltPending : Bool) : (v.pend haltPending).InStream :=
  { h with }

theorem InStream.start (entry : UInt64) : (Lane.start entry).InStream :=
  ⟨rfl, rfl, fun r hr => absurd hr (by simp [Lane.start])⟩

/-! ## Predictions owed -/

/-- The predictions in the stream of the line fetch that it has not taken up: those on their way,
and those lost. -/
def owed (v : Lane) : Nat :=
  v.predictions.countP (fun p => p.newStreamSeq == v.fetch.streamSeq) +
    v.overtaken.count v.fetch.streamSeq

/-- What is not owed is not on its way. -/
theorem ne_of_owed (h : v.owed = 0) {p : Redirect} (hp : p ∈ v.predictions) :
    p.newStreamSeq ≠ v.fetch.streamSeq := by
  have hno := List.countP_eq_zero.mp (Nat.add_eq_zero_iff.mp h).1 p hp
  simpa using hno

/-- A prediction that is lost stays owed. -/
theorem owed_overtake {p : Redirect} {rest : List Redirect} (hp : v.predictions = p :: rest) :
    ({ v with predictions := rest, overtaken := v.overtaken ++ [p.newStreamSeq] } : Lane).owed =
      v.owed := by
  simp only [owed, hp, List.countP_cons, List.count_append, List.count_singleton]
  omega

theorem owed_ignore {p : Redirect} {rest : List Redirect} (hp : v.predictions = p :: rest)
    (hne : p.newStreamSeq ≠ v.fetch.streamSeq) :
    ({ v with predictions := rest } : Lane).owed = v.owed := by
  simp [owed, hp, hne]

/-- The numbers in a lane when none is given out twice. -/
structure Numbered (v : Lane) : Prop extends InStream v where
  fresh : ∀ r ∈ v.redirects, r.newStreamSeq ≠ firstSeq
  ops_le : ∀ o ∈ v.ops, ordinal o.streamSeq ≤ ordinal v.fetch.streamSeq
  lines_le : ∀ l ∈ v.lines, ordinal l.streamSeq ≤ ordinal v.fetch.streamSeq
  predictions_le : ∀ p ∈ v.predictions, ordinal p.newStreamSeq ≤ ordinal v.fetch.streamSeq
  overtaken_le : ∀ x ∈ v.overtaken, ordinal x ≤ ordinal v.fetch.streamSeq
  /-- No line in the stream is ahead of the line fetch. -/
  stamped : ∀ l ∈ v.lines, l.streamSeq = v.fetch.streamSeq →
    ordinal l.predictionSeq ≤ ordinal v.fetch.predictionSeq
  owes : ordinal v.expected.predictionSeq = ordinal v.fetch.predictionSeq + v.owed
  owed_le : v.owed ≤ 1
  /-- A prediction on its way in the stream is the one that the slicer made last. -/
  current : ∀ p ∈ v.predictions, p.newStreamSeq = v.fetch.streamSeq →
    p.newPredictionSeq = v.expected.predictionSeq
  /-- Nothing is there of a stream in which the thread never ran. -/
  rests : v.fetch.state ≠ .running → (∀ o ∈ v.ops, o.streamSeq ≠ v.fetch.streamSeq) ∧
    (∀ l ∈ v.lines, l.streamSeq ≠ v.fetch.streamSeq) ∧ v.owed = 0

namespace Numbered

/-- No redirect is on its way when the line fetch is as far as execute. -/
theorem redirects_eq_nil (h : v.Numbered)
    (hle : ordinal v.exec.streamSeq ≤ ordinal v.fetch.streamSeq) : v.redirects = [] := by
  have hfresh : ∀ x ∈ v.redirects.map (·.newStreamSeq), x ≠ firstSeq := by
    intro x hx
    obtain ⟨r, hr, rfl⟩ := List.mem_map.mp hx
    exact h.fresh r hr
  exact List.map_eq_nil_iff.mp (h.climbs.eq_nil hfresh hle)

theorem redirects_of_current (h : v.Numbered) {o : MicroOp} (ho : o ∈ v.ops)
    (hcur : o.streamSeq = v.exec.streamSeq) : v.redirects = [] :=
  h.redirects_eq_nil (hcur ▸ h.ops_le o ho)

theorem stream_eq (h : v.Numbered) (hr : v.redirects = []) :
    v.fetch.streamSeq = v.exec.streamSeq := by
  have hclimbs := h.climbs
  rwa [hr] at hclimbs

theorem runs_of_line (h : v.Numbered) {l : Line} (hl : l ∈ v.lines)
    (hs : l.streamSeq = v.fetch.streamSeq) : v.fetch.state = .running := by
  by_cases hrun : v.fetch.state = .running
  · exact hrun
  · exact absurd hs ((h.rests hrun).2.1 l hl)

/-- While a line is accepted, no prediction is owed. -/
theorem owed_eq_zero (h : v.Numbered) {l : Line} (hl : l ∈ v.lines)
    (hc : l.Carries v.expected) : v.owed = 0 := by
  have hle := h.stamped l hl (hc.1.trans h.stream)
  have howes := h.owes
  rw [hc.2] at hle
  omega

/-- The slicer expects what the line fetch asks for unless a prediction is owed. -/
theorem expected_eq (h : v.Numbered) (h0 : v.owed = 0) : v.expected = v.fetch.stamp := by
  have hp : v.expected.predictionSeq = v.fetch.predictionSeq := by
    have howes := h.owes
    rw [h0] at howes
    exact ordinal_inj howes
  show Expected.mk v.expected.streamSeq v.expected.predictionSeq = _
  rw [h.stream, hp]
  rfl

/-- **The slicer and the line fetch agree iff no prediction is owed.** -/
theorem expected_eq_iff (h : v.Numbered) : v.expected = v.fetch.stamp ↔ v.owed = 0 := by
  refine ⟨fun he => ?_, h.expected_eq⟩
  have howes := h.owes
  rw [he] at howes
  exact Nat.left_eq_add.mp howes

/-- Execute sends a redirect of a new number. -/
theorem send (h : v.Numbered) {r : Redirect} (hseq : r.newStreamSeq = v.exec.streamSeq + 1)
    (hne : v.exec.streamSeq + 1 ≠ firstSeq) :
    ∀ r' ∈ v.redirects ++ [r], r'.newStreamSeq ≠ firstSeq := by
  intro r' hr'
  rcases List.mem_append.mp hr' with hr' | hr'
  · exact h.fresh r' hr'
  · rw [List.mem_singleton.mp hr', hseq]
    exact hne

/-- The next redirect leads to a stream that nothing in the lane is of. -/
theorem arrive (h : v.Numbered) {r : Redirect} {rest : List Redirect}
    (hr : v.redirects = r :: rest) {x : UInt64} (hx : ordinal x ≤ ordinal v.fetch.streamSeq) :
    ordinal x ≤ ordinal r.newStreamSeq ∧ x ≠ r.newStreamSeq := by
  have hclimbs := h.climbs
  rw [hr] at hclimbs
  have hseq : r.newStreamSeq = v.fetch.streamSeq + 1 := hclimbs.1
  have hne : v.fetch.streamSeq + 1 ≠ firstSeq := hseq ▸ h.fresh r (hr ▸ List.mem_cons_self)
  have hnext : ordinal r.newStreamSeq = ordinal v.fetch.streamSeq + 1 := by
    rw [hseq, ordinal_add_one hne]
  refine ⟨by omega, fun he => ?_⟩
  rw [he] at hx
  omega

theorem start (entry : UInt64) : (Lane.start entry).Numbered :=
  { InStream.start entry with
    owes := (Nat.add_zero _).symm, owed_le := Nat.zero_le 1
    fresh := fun r hr => absurd hr (by simp [Lane.start])
    ops_le := fun o ho => absurd ho (by simp [Lane.start])
    lines_le := fun l hl => absurd hl (by simp [Lane.start])
    predictions_le := fun p hp => absurd hp (by simp [Lane.start])
    overtaken_le := fun x hx => absurd hx (by simp [Lane.start])
    stamped := fun l hl => absurd hl (by simp [Lane.start])
    current := fun p hp => absurd hp (by simp [Lane.start])
    rests := fun _ =>
      ⟨fun o ho => absurd ho (by simp [Lane.start]),
        fun l hl => absurd hl (by simp [Lane.start]), rfl⟩ }

theorem pend (h : v.Numbered) (haltPending : Bool) : (v.pend haltPending).Numbered := { h with }

/-! ## Every step keeps the numbers -/

theorem squash (h : v.Numbered) {o : MicroOp} {rest : List MicroOp} (hops : v.ops = o :: rest) :
    ({ v with ops := rest } : Lane).Numbered := by
  have hmem : ∀ o' ∈ rest, o' ∈ v.ops := fun o' ho' => hops ▸ List.mem_cons_of_mem o ho'
  exact { h with
    ops_le := fun o' ho' => h.ops_le o' (hmem o' ho')
    rests := fun hrest => ⟨fun o' ho' => (h.rests hrest).1 o' (hmem o' ho'), (h.rests hrest).2⟩ }

theorem keepLines (h : v.Numbered) {lines : List Line} (hmem : ∀ l ∈ lines, l ∈ v.lines) :
    ({ v with lines } : Lane).Numbered :=
  { h with
    lines_le := fun l hl => h.lines_le l (hmem l hl)
    stamped := fun l hl => h.stamped l (hmem l hl)
    rests := fun hrest =>
      ⟨(h.rests hrest).1, fun l hl => (h.rests hrest).2.1 l (hmem l hl), (h.rests hrest).2.2⟩ }

/-- The cut of a micro-op from the oldest line. -/
theorem pushOp (h : v.Numbered) {o : MicroOp} {l : Line} (hl : l ∈ v.lines)
    (hseq : o.streamSeq = l.streamSeq) : ({ v with ops := v.ops ++ [o] } : Lane).Numbered := by
  refine { h with ops_le := ?_, rests := fun hrest => ⟨fun o' ho' => ?_, ?_⟩ }
  · intro o' ho'
    rcases List.mem_append.mp ho' with ho' | ho'
    · exact h.ops_le o' ho'
    · rw [List.mem_singleton.mp ho', hseq]
      exact h.lines_le l hl
  · rcases List.mem_append.mp ho' with ho' | ho'
    · exact (h.rests hrest).1 o' ho'
    · rw [List.mem_singleton.mp ho', hseq]
      exact (h.rests hrest).2.1 l hl
  · exact (h.rests hrest).2

theorem enterLine (h : v.Numbered) {l : Line} {rest : List Line} (hlines : v.lines = l :: rest)
    (pc : UInt64) : ({ v with lines := l.enter pc :: rest } : Lane).Numbered := by
  have hhead : l ∈ v.lines := hlines ▸ List.mem_cons_self
  have hmem : ∀ l' ∈ l.enter pc :: rest, ∃ l₀ ∈ v.lines,
      l'.streamSeq = l₀.streamSeq ∧ l'.predictionSeq = l₀.predictionSeq := by
    intro l' hl'
    rcases List.mem_cons.mp hl' with rfl | hl'
    · exact ⟨l, hhead, rfl, rfl⟩
    · exact ⟨l', hlines ▸ List.mem_cons_of_mem l hl', rfl, rfl⟩
  refine { h with lines_le := ?_, stamped := ?_, rests := ?_ }
  · intro l' hl'
    obtain ⟨l₀, hl₀, hs, -⟩ := hmem l' hl'
    exact hs ▸ h.lines_le l₀ hl₀
  · intro l' hl' hcur
    obtain ⟨l₀, hl₀, hs, hp⟩ := hmem l' hl'
    exact hp ▸ h.stamped l₀ hl₀ (hs ▸ hcur)
  · intro hrest
    refine ⟨(h.rests hrest).1, fun l' hl' => ?_, (h.rests hrest).2.2⟩
    obtain ⟨l₀, hl₀, hs, -⟩ := hmem l' hl'
    exact hs ▸ (h.rests hrest).2.1 l₀ hl₀

/-- A prediction of the slicer is one more that is owed. -/
theorem predict (h : v.Numbered) {l : Line} {p : Redirect} (hl : l ∈ v.lines)
    (hc : l.Carries v.expected) (hs : p.newStreamSeq = l.streamSeq)
    (hp : p.newPredictionSeq = v.expected.predictionSeq + 1)
    (hne : v.expected.predictionSeq + 1 ≠ firstSeq) :
    ({ v with
        expected := { v.expected with predictionSeq := v.expected.predictionSeq + 1 }
        predictions := v.predictions ++ [p] } : Lane).Numbered := by
  have hcur : p.newStreamSeq = v.fetch.streamSeq := hs.trans (hc.1.trans h.stream)
  have hnone : v.owed = 0 := h.owed_eq_zero hl hc
  have hone : ({ v with
      expected := { v.expected with predictionSeq := v.expected.predictionSeq + 1 }
      predictions := v.predictions ++ [p] } : Lane).owed = 1 := by
    simp only [owed, Nat.add_eq_zero_iff] at hnone
    simp [owed, List.countP_append, hnone, hcur]
  refine { h with
    predictions_le := ?_, owes := ?_, owed_le := Nat.le_of_eq hone, current := ?_, rests := ?_ }
  · intro p' hp'
    rcases List.mem_append.mp hp' with hp' | hp'
    · exact h.predictions_le p' hp'
    · rw [List.mem_singleton.mp hp']
      exact Nat.le_of_eq (congrArg ordinal hcur)
  · have howes := h.owes
    rw [hnone] at howes
    rw [hone]
    show ordinal (v.expected.predictionSeq + 1) = ordinal v.fetch.predictionSeq + 1
    rw [ordinal_add_one hne, howes]
  · intro p' hp' hcur'
    rcases List.mem_append.mp hp' with hp' | hp'
    · exact absurd hcur' (ne_of_owed hnone hp')
    · rw [List.mem_singleton.mp hp', hp]
  · intro hrest
    exact absurd (h.runs_of_line hl (hc.1.trans h.stream)) hrest

/-- A redirect leads to a stream in which nothing has happened. -/
theorem follow (h : v.Numbered) {r : Redirect} {rest ps : List Redirect}
    (hr : v.redirects = r :: rest) (hps : ∀ p ∈ ps, p ∈ v.predictions) :
    ({ v with
        redirects := rest, predictions := ps
        expected := ⟨r.newStreamSeq, r.newPredictionSeq⟩
        fetch := ⟨.after r.reason, r.target, r.newStreamSeq, r.newPredictionSeq⟩ } :
      Lane).Numbered := by
  have hnone : ({ v with
      redirects := rest, predictions := ps
      expected := ⟨r.newStreamSeq, r.newPredictionSeq⟩
      fetch := ⟨.after r.reason, r.target, r.newStreamSeq, r.newPredictionSeq⟩ } :
      Lane).owed = 0 := by
    refine Nat.add_eq_zero_iff.mpr ⟨List.countP_eq_zero.mpr ?_, ?_⟩
    · intro p hp
      have hne := (h.arrive hr (h.predictions_le p (hps p hp))).2
      simpa using hne
    · exact List.count_eq_zero.mpr fun hx => (h.arrive hr (h.overtaken_le _ hx)).2 rfl
  have hclimbs := h.climbs
  rw [hr] at hclimbs
  have hmem : ∀ r' ∈ rest, r' ∈ v.redirects := fun r' hr' => hr ▸ List.mem_cons_of_mem r hr'
  exact
    { stream := rfl
      climbs := hclimbs.2
      resets := fun r' hr' => h.resets r' (hmem r' hr')
      fresh := fun r' hr' => h.fresh r' (hmem r' hr')
      ops_le := fun o ho => (h.arrive hr (h.ops_le o ho)).1
      lines_le := fun l hl => (h.arrive hr (h.lines_le l hl)).1
      predictions_le := fun p hp => (h.arrive hr (h.predictions_le p (hps p hp))).1
      overtaken_le := fun x hx => (h.arrive hr (h.overtaken_le x hx)).1
      stamped := fun l hl hcur => absurd hcur (h.arrive hr (h.lines_le l hl)).2
      owes := by rw [hnone]; rfl
      owed_le := by rw [hnone]; exact Nat.zero_le 1
      current := fun p hp hcur => absurd hcur (h.arrive hr (h.predictions_le p (hps p hp))).2
      rests := fun _ =>
        ⟨fun o ho => (h.arrive hr (h.ops_le o ho)).2, fun l hl => (h.arrive hr (h.lines_le l hl)).2,
          hnone⟩ }

/-- A prediction that is passed over alone is still owed. -/
theorem overtake (h : v.Numbered) {p : Redirect} {rest : List Redirect}
    (hp : v.predictions = p :: rest) :
    ({ v with predictions := rest, overtaken := v.overtaken ++ [p.newStreamSeq] } :
      Lane).Numbered := by
  have howed := owed_overtake hp
  have hmem : ∀ p' ∈ rest, p' ∈ v.predictions := fun p' hp' => hp ▸ List.mem_cons_of_mem p hp'
  refine { h with
    predictions_le := fun p' hp' => h.predictions_le p' (hmem p' hp')
    overtaken_le := fun x hx => ?_
    owes := howed ▸ h.owes, owed_le := howed ▸ h.owed_le
    current := fun p' hp' => h.current p' (hmem p' hp')
    rests := fun hrest => ⟨(h.rests hrest).1, (h.rests hrest).2.1, howed ▸ (h.rests hrest).2.2⟩ }
  rcases List.mem_append.mp hx with hx | hx
  · exact h.overtaken_le x hx
  · rw [List.mem_singleton.mp hx]
    exact h.predictions_le p (hp ▸ List.mem_cons_self)

/-- A prediction that is taken up is owed no more. -/
theorem heed (h : v.Numbered) {p : Redirect} {rest : List Redirect}
    (hp : v.predictions = p :: rest) (hruns : v.fetch.state = .running)
    (hs : p.newStreamSeq = v.fetch.streamSeq) :
    ({ v with
        predictions := rest
        fetch := { v.fetch with predictionSeq := p.newPredictionSeq, pc := p.target } } :
      Lane).Numbered := by
  have hnone : ({ v with
      predictions := rest
      fetch := { v.fetch with predictionSeq := p.newPredictionSeq, pc := p.target } } :
      Lane).owed = 0 := by
    have hle := h.owed_le
    simp only [owed, hp, List.countP_cons, hs, beq_self_eq_true, if_true] at hle ⊢
    omega
  have hseq : p.newPredictionSeq = v.expected.predictionSeq :=
    h.current p (hp ▸ List.mem_cons_self) hs
  have hmem : ∀ p' ∈ rest, p' ∈ v.predictions := fun p' hp' => hp ▸ List.mem_cons_of_mem p hp'
  refine { h with
    predictions_le := fun p' hp' => h.predictions_le p' (hmem p' hp')
    stamped := ?_
    owes := ?_, owed_le := by rw [hnone]; exact Nat.zero_le 1
    current := fun p' hp' => h.current p' (hmem p' hp')
    rests := fun hrest => absurd hruns hrest }
  · intro l hl hcur
    have hold := h.stamped l hl hcur
    have howes := h.owes
    show ordinal l.predictionSeq ≤ ordinal p.newPredictionSeq
    rw [hseq]
    omega
  · rw [hnone]
    exact congrArg ordinal hseq.symm

/-- A prediction that is not heeded was not owed. -/
theorem ne_of_ignored (h : v.Numbered) {p : Redirect} {rest : List Redirect}
    (hp : v.predictions = p :: rest)
    (hold : ¬ (v.fetch.state = .running ∧ p.newStreamSeq = v.fetch.streamSeq)) :
    p.newStreamSeq ≠ v.fetch.streamSeq := by
  intro hs
  have hnone := (h.rests fun hruns => hold ⟨hruns, hs⟩).2.2
  exact ne_of_owed hnone (hp ▸ List.mem_cons_self) hs

theorem ignore (h : v.Numbered) {p : Redirect} {rest : List Redirect}
    (hp : v.predictions = p :: rest)
    (hold : ¬ (v.fetch.state = .running ∧ p.newStreamSeq = v.fetch.streamSeq)) :
    ({ v with predictions := rest } : Lane).Numbered := by
  have howed := owed_ignore hp (h.ne_of_ignored hp hold)
  have hmem : ∀ p' ∈ rest, p' ∈ v.predictions := fun p' hp' => hp ▸ List.mem_cons_of_mem p hp'
  exact { h with
    predictions_le := fun p' hp' => h.predictions_le p' (hmem p' hp')
    owes := howed ▸ h.owes, owed_le := howed ▸ h.owed_le
    current := fun p' hp' => h.current p' (hmem p' hp')
    rests := fun hrest => ⟨(h.rests hrest).1, (h.rests hrest).2.1, howed ▸ (h.rests hrest).2.2⟩ }

theorem request (h : v.Numbered) (hruns : v.fetch.state = .running) :
    ({ v with
        lines := v.lines ++ [v.fetch.line k]
        fetch := { v.fetch with pc := v.fetch.lineBase k + k.lineBytes } } : Lane).Numbered := by
  refine { h with
    lines_le := ?_, stamped := ?_
    rests := fun hrest => absurd hruns hrest }
  · intro l hl
    rcases List.mem_append.mp hl with hl | hl
    · exact h.lines_le l hl
    · rw [List.mem_singleton.mp hl]
      exact Nat.le_refl _
  · intro l hl hcur
    rcases List.mem_append.mp hl with hl | hl
    · exact h.stamped l hl hcur
    · rw [List.mem_singleton.mp hl]
      exact Nat.le_refl _

/-- **No step of a lane disturbs its numbers, if none is given out twice.** -/
theorem step (hk : ∀ x, k.fresh x → x ≠ firstSeq) (h : v.Numbered) (hs : Step k v w) :
    w.Numbered := by
  have hin := h.toInStream.step hs
  cases hs with
  | squash o rest hops hold => exact h.squash hops
  | issue o rest th hops hcur hissue =>
    exact { h.squash hops with toInStream := hin }
  | raise o rest th r hops hcur hissue hfresh =>
    obtain ⟨-, -, rfl⟩ := ExecThread.of_issue_some hissue
    exact { h.squash hops with toInStream := hin, fresh := h.send rfl (hk _ hfresh) }
  | halt hpending hfresh =>
    exact { h with toInStream := hin, fresh := h.send rfl (hk _ hfresh) }
  | drop l rest hlines hdone =>
    exact h.keepLines fun l' hl' => hlines ▸ List.mem_cons_of_mem l hl'
  | cut l rest inst seq hlines hcarries hword hplain =>
    have hop := h.pushOp (o := ⟨.clear, l.pc, seq, l.streamSeq, inst, .clear, 0⟩)
      (hlines ▸ List.mem_cons_self) rfl
    exact hop.enterLine hlines _
  | cutJump l rest inst offset seq hlines hcarries hword hjump hfresh =>
    have hl : l ∈ v.lines := hlines ▸ List.mem_cons_self
    have hpredicted := h.predict (p := .live .prediction k.thread (Isa.displace l.pc offset)
      l.streamSeq (v.expected.predictionSeq + 1)) hl hcarries rfl rfl (hk _ hfresh)
    have hop := hpredicted.pushOp (o := ⟨.clear, l.pc, seq, l.streamSeq, inst, .set,
      Isa.displace l.pc offset⟩) hl rfl
    exact hop.keepLines fun l' hl' => hlines ▸ List.mem_cons_of_mem l hl'
  | follow r rest ps hredirects hps =>
    exact h.follow hredirects fun p hp => mem_of_passed hps hp
  | overtake p rest hpredictions => exact h.overtake hpredictions
  | heed p rest hpredictions hruns hstream => exact h.heed hpredictions hruns hstream
  | ignore p rest hpredictions hold => exact h.ignore hpredictions hold
  | forget lines l hlines hold =>
    exact h.keepLines fun l' hl' => hlines ▸ List.mem_append_left [l] hl'
  | request hruns => exact h.request hruns
  | wake => exact { h with rests := fun hrest => absurd rfl hrest }

/-- The numbers of a lane are right after any number of steps. -/
theorem steps (hk : ∀ x, k.fresh x → x ≠ firstSeq) (h : v.Numbered) (hs : Steps k v w) :
    w.Numbered := by
  induction hs with
  | refl => exact h
  | tail _ hlast ih => exact ih.step hk hlast

end Numbered

end Lane

end InOrder
