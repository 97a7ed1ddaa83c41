import InOrder.Proofs.Lane.Numbers

/-!
# The route of a lane

What a thread has issued, what it still holds of its stream and where it fetches lie on its course,
one after the other. The micro-ops of the stream come first, as far as fetch was right about what
follows each of them (`Follows`); then the lines that are expected, or the prediction that tells
where the next of them begins (`Lane.Ahead`); and last the address at which the line fetch goes on.

What is of another stream or prediction is never issued, so nothing is said of it, except that every
line holds what the image has at its place (`Line.Within`).

* `Ahead.skip` to `Ahead.request`: what each step does to the place where cutting goes on.
* `OnRoute.step`: no step of a lane with right numbers leaves the route.
-/

namespace InOrder

/-! ## Micro-ops that follow each other -/

/-- The micro-ops are those from instruction `n` on, up to the first after which fetch is wrong. If
there is none, `q` holds of the instruction after them. -/
def Follows (m : Image) (q : Nat → Prop) : Nat → List MicroOp → Prop
  | n, [] => q n
  | n, o :: os =>
    o.pc = m.pcAt n ∧ o.inst = m.wordAt (m.pcAt n) ∧
      ((ExecThread.outcome o).1.changesStream = false → Follows m q (n + 1) os)

namespace Follows

variable {m : Image} {q q' : Nat → Prop}

/-- A micro-op after which fetch is right does not suspend. -/
theorem not_suspend {n : Nat} {o : MicroOp} (hinst : o.inst = m.wordAt (m.pcAt n))
    (hright : (ExecThread.outcome o).1.changesStream = false) :
    Isa.classify (m.wordAt (m.pcAt n)) ≠ .suspend := by
  intro hsuspend
  rw [← hinst] at hsuspend
  rw [ExecThread.outcome, hsuspend] at hright
  exact absurd hright (by simp [Reason.changesStream])

theorem mono : ∀ {n : Nat} {os : List MicroOp}, (∀ j, m.Passes n j → q j → q' j) →
    Follows m q n os → Follows m q' n os
  | n, [], hq, h => hq n (.refl m n) h
  | _, _ :: _, hq, ⟨hpc, hinst, h⟩ => ⟨hpc, hinst, fun hright => (h hright).mono fun j hpasses =>
      hq j (.cons (not_suspend hinst hright) hpasses)⟩

theorem concat {o : MicroOp} (hq : ∀ n, q n → Follows m q' n [o]) : ∀ {n : Nat} {os : List MicroOp},
    Follows m q n os → Follows m q' n (os ++ [o])
  | n, [], h => hq n h
  | _, _ :: _, ⟨hpc, hinst, h⟩ => ⟨hpc, hinst, fun hright => (h hright).concat hq⟩

end Follows

/-! ## Lines that follow each other -/

/-- The lines are entered one where the one before ends, from `a` to `b`. -/
def Chain (size : UInt64) (b : UInt64) : UInt64 → List Line → Prop
  | a, [] => a = b
  | a, l :: ls => l.pc = a ∧ Chain size b (l.lineBase + size) ls

theorem Chain.concat {size b : UInt64} {l : Line} (hl : l.pc = b) :
    ∀ {a : UInt64} {ls : List Line}, Chain size b a ls →
      Chain size (l.lineBase + size) a (ls ++ [l])
  | _, [], h => ⟨hl.trans (Eq.symm h), rfl⟩
  | _, _ :: _, ⟨hpc, h⟩ => ⟨hpc, h.concat hl⟩

/-- The line holds what the image has at its place, and is entered in it or at its end. -/
structure Line.Within (k : Track) (l : Line) : Prop where
  data : l.data = k.image.read l.lineBase k.lineBytes.toNat
  entered : (l.pc - l.lineBase).toNat ≤ k.lineBytes.toNat
  aligned : l.lineBase.toNat % 4 = 0

/-- The lines of a track have whole words. -/
structure Track.Whole (k : Track) : Prop where
  positive : 0 < k.lineBytes.toNat
  words : k.lineBytes.toNat % 4 = 0

/-- The line of an address begins before it. -/
theorem toNat_sub_mod (pc size : UInt64) :
    (pc - pc % size).toNat = pc.toNat - pc.toNat % size.toNat := by
  have hmod : (pc % size).toNat = pc.toNat % size.toNat := UInt64.toNat_mod _ _
  have hle : pc.toNat % size.toNat ≤ pc.toNat := Nat.mod_le _ _
  rw [UInt64.toNat_sub_of_le _ _ (UInt64.le_iff_toNat_le.mpr (hmod ▸ hle)), hmod]

/-- The line that a thread asks for begins as far before the thread as the thread is in the line. -/
theorem FetchThread.toNat_lineBase {k : Track} (hk : k.Whole) (th : FetchThread) :
    (th.lineBase k).toNat = th.pc.toNat - th.pc.toNat % k.lineBytes.toNat ∧
      (th.pc - th.lineBase k).toNat = th.pc.toNat % k.lineBytes.toNat ∧
      th.pc.toNat % k.lineBytes.toNat < k.lineBytes.toNat := by
  have hle : th.pc.toNat % k.lineBytes.toNat ≤ th.pc.toNat := Nat.mod_le _ _
  have hbase : (th.lineBase k).toNat = _ := toNat_sub_mod th.pc k.lineBytes
  refine ⟨hbase, ?_, Nat.mod_lt _ hk.positive⟩
  rw [UInt64.toNat_sub_of_le _ _ (UInt64.le_iff_toNat_le.mpr (by omega)), hbase]
  omega

theorem Line.within_request {k : Track} (hk : k.Whole) (th : FetchThread) :
    (th.line k).Within k := by
  obtain ⟨hbase, hoffset, hlt⟩ := th.toNat_lineBase hk
  refine ⟨rfl, ?_, ?_⟩
  · show (th.pc - th.lineBase k).toNat ≤ _
    omega
  · show (th.lineBase k).toNat % 4 = 0
    rw [hbase]
    exact Nat.mod_eq_zero_of_dvd
      (Nat.dvd_trans (Nat.dvd_of_mod_eq_zero hk.words) (Nat.dvd_sub_mod _))

/-- A line that is asked for at a word has that word. -/
theorem Line.wordAt?_request {k : Track} (hk : k.Whole) {th : FetchThread}
    (hpc : th.pc.toNat % 4 = 0) : (th.line k).wordAt? (th.line k).pc ≠ none := by
  intro hnone
  obtain ⟨-, hoffset, hlt⟩ := th.toNat_lineBase hk
  have hpast : k.lineBytes.toNat < ((th.line k).pc - (th.line k).lineBase).toNat + 4 :=
    Line.wordAt?_eq_none (Line.within_request hk th).data hnone
  rw [show (th.line k).pc - (th.line k).lineBase = th.pc - th.lineBase k from rfl] at hpast
  have hwords := hk.words
  have hword : th.pc.toNat % k.lineBytes.toNat % 4 = 0 := by
    rw [Nat.mod_mod_of_dvd _ (Nat.dvd_of_mod_eq_zero hwords), hpc]
  omega

namespace Line.Within

variable {k : Track} {l : Line}

theorem wordAt (h : l.Within k) {inst : UInt32} (hword : l.wordAt? l.pc = some inst) :
    inst = k.image.wordAt l.pc ∧ (l.pc - l.lineBase).toNat + 4 ≤ k.lineBytes.toNat := by
  by_cases hin : (l.pc - l.lineBase).toNat + 4 ≤ k.lineBytes.toNat
  · rw [Line.wordAt?_of_read h.data hin] at hword
    exact ⟨(Option.some.inj hword).symm, hin⟩
  · have hlen : l.data.length = k.lineBytes.toNat := by rw [h.data, Image.length_read]
    unfold Line.wordAt? at hword
    rw [hlen, if_neg hin] at hword
    exact absurd hword (by simp)

/-- After a word of a line the line goes on, or ends. -/
theorem enter_next (h : l.Within k)
    (hin : (l.pc - l.lineBase).toNat + 4 ≤ k.lineBytes.toNat) :
    (l.enter (Isa.nextWord l.pc)).Within k := by
  refine ⟨h.data, ?_, h.aligned⟩
  have hoffset : Isa.nextWord l.pc - l.lineBase = (l.pc - l.lineBase) + 4 := by
    unfold Isa.nextWord
    rw [UInt64.sub_eq_add_neg, UInt64.sub_eq_add_neg, UInt64.add_assoc, UInt64.add_assoc,
      UInt64.add_comm 4]
  have h4 : (4 : UInt64).toNat = 4 := rfl
  show (Isa.nextWord l.pc - l.lineBase).toNat ≤ _
  rw [hoffset, UInt64.toNat_add, h4]
  omega

/-- A line without a further word was cut up to its end. -/
theorem pc_of_end (h : l.Within k) (hk : k.Whole) (hpc : l.pc.toNat % 4 = 0)
    (hword : l.wordAt? l.pc = none) : l.lineBase + k.lineBytes = l.pc := by
  have hpast := Line.wordAt?_eq_none h.data hword
  have hentered := h.entered
  have haligned := h.aligned
  have hwords := hk.words
  have hoffset : (l.pc - l.lineBase).toNat % 4 = 0 := by
    rw [UInt64.toNat_sub]
    omega
  have hend : l.pc - l.lineBase = k.lineBytes := UInt64.toNat_inj.mp (by omega)
  rw [← hend, UInt64.add_comm, UInt64.sub_add_cancel]

end Line.Within

/-- A chain that begins at a word ends at one. -/
theorem Chain.aligned {k : Track} (hk : k.Whole) {b : UInt64} : ∀ {a : UInt64} {ls : List Line},
    Chain k.lineBytes b a ls → a.toNat % 4 = 0 → (∀ l ∈ ls, l.Within k) → b.toNat % 4 = 0
  | _, [], h, ha, _ => (show _ = b from h) ▸ ha
  | _, l :: ls, ⟨_, h⟩, _, hls => by
    refine h.aligned hk ?_ fun l' hl' => hls l' (List.mem_cons_of_mem l hl')
    have hbase := (hls l List.mem_cons_self).aligned
    have hwords := hk.words
    rw [UInt64.toNat_add]
    omega

/-! ## The route -/

namespace Lane

variable {k : Track} {v w : Lane}

/-- The micro-ops that are not of an old stream. -/
def currentOps (v : Lane) : List MicroOp :=
  v.ops.filter fun o => decide (o.streamSeq = v.exec.streamSeq)

/-- The lines with the numbers of those that the line fetch asks for. -/
def currentLines (v : Lane) : List Line := v.lines.filter fun l => decide (l.Carries v.fetch.stamp)

/-- What is cut next is at `a`: the lines lead on from there, or a prediction leads there. -/
def Ahead (k : Track) (v : Lane) (a : UInt64) : Prop :=
  (v.owed = 0 → Chain k.lineBytes v.fetch.pc a v.currentLines) ∧
    ∀ p ∈ v.predictions, p.newStreamSeq = v.fetch.streamSeq → p.target = a

namespace Ahead

variable {a : UInt64} {l : Line} {rest : List Line}

theorem start (k : Track) (entry : UInt64) : (Lane.start entry).Ahead k entry :=
  ⟨fun _ => rfl, fun p hp => absurd hp (by simp [Lane.start])⟩

/-- A line that is accepted is entered where cutting goes on. -/
theorem entered (ha : v.Ahead k a) (hn : v.Numbered) (hlines : v.lines = l :: rest)
    (hcarries : l.Carries v.expected) :
    l.pc = a ∧ Chain k.lineBytes v.fetch.pc (l.lineBase + k.lineBytes)
      (rest.filter fun l => decide (l.Carries v.fetch.stamp)) := by
  have hnone := hn.owed_eq_zero (hlines ▸ List.mem_cons_self) hcarries
  have hchain := ha.1 hnone
  rw [hn.expected_eq hnone] at hcarries
  rwa [currentLines, hlines, List.filter_cons_of_pos (by simpa using hcarries)] at hchain

/-- A line that is not expected is passed over. -/
theorem skip (ha : v.Ahead k a) (hn : v.Numbered) (hlines : v.lines = l :: rest)
    (hold : ¬ l.Carries v.expected) : ({ v with lines := rest } : Lane).Ahead k a := by
  refine ⟨fun h0 => ?_, ha.2⟩
  have hchain := ha.1 h0
  rw [hn.expected_eq h0] at hold
  rwa [currentLines, hlines, List.filter_cons_of_neg (by simpa using hold)] at hchain

/-- Cutting leaves a line that is accepted, and goes on in the next one. -/
theorem leave (ha : v.Ahead k a) (hn : v.Numbered) (hlines : v.lines = l :: rest)
    (hcarries : l.Carries v.expected) :
    ({ v with lines := rest } : Lane).Ahead k (l.lineBase + k.lineBytes) := by
  have hnone := hn.owed_eq_zero (hlines ▸ List.mem_cons_self) hcarries
  exact ⟨fun _ => (ha.entered hn hlines hcarries).2, fun p hp hcur =>
    absurd hcur (ne_of_owed hnone hp)⟩

/-- Cutting goes on in a line that is accepted. -/
theorem cut (ha : v.Ahead k a) (hn : v.Numbered) (hlines : v.lines = l :: rest)
    (hcarries : l.Carries v.expected) (pc : UInt64) (ops : List MicroOp) :
    ({ v with lines := l.enter pc :: rest, ops } : Lane).Ahead k pc := by
  have hnone := hn.owed_eq_zero (hlines ▸ List.mem_cons_self) hcarries
  refine ⟨fun _ => ?_, fun p hp hcur => absurd hcur (ne_of_owed hnone hp)⟩
  have hstamp : (l.enter pc).Carries v.fetch.stamp := hn.expected_eq hnone ▸ hcarries
  rw [currentLines, List.filter_cons_of_pos (by simpa using hstamp)]
  exact ⟨rfl, (ha.entered hn hlines hcarries).2⟩

/-- After a jump cutting goes on where its prediction leads. -/
theorem cutJump (hn : v.Numbered) (hlines : v.lines = l :: rest) (hcarries : l.Carries v.expected)
    (lines : List Line) (ops : List MicroOp) (expected : Expected) {p : Redirect}
    (hp : p.newStreamSeq = l.streamSeq) :
    ({ v with lines, ops, expected, predictions := v.predictions ++ [p] } : Lane).Ahead k
      p.target := by
  have hnone := hn.owed_eq_zero (hlines ▸ List.mem_cons_self) hcarries
  have hcur : p.newStreamSeq = v.fetch.streamSeq := hp.trans (hcarries.1.trans hn.stream)
  refine ⟨fun h0 => ?_, fun p' hp' hcur' => ?_⟩
  · exact absurd hcur (ne_of_owed h0 (List.mem_append_right _ (List.mem_singleton_self p)))
  · rcases List.mem_append.mp hp' with hp' | hp'
    · exact absurd hcur' (ne_of_owed hnone hp')
    · rw [List.mem_singleton.mp hp']

/-- When a redirect arrives, nothing is held of the stream to which it leads. -/
theorem follow (hn : v.Numbered) {r : Redirect} {redirects ps : List Redirect}
    (hr : v.redirects = r :: redirects) (hps : ∀ p ∈ ps, p ∈ v.predictions) :
    ({ v with
        redirects, predictions := ps
        expected := ⟨r.newStreamSeq, r.newPredictionSeq⟩
        fetch := ⟨.after r.reason, r.target, r.newStreamSeq, r.newPredictionSeq⟩ } :
      Lane).Ahead k r.target := by
  refine ⟨fun _ => ?_, fun p hp hcur =>
    absurd hcur (hn.arrive hr (hn.predictions_le p (hps p hp))).2⟩
  have hlines : v.lines.filter
      (fun l => decide (l.Carries ⟨r.newStreamSeq, r.newPredictionSeq⟩)) = [] :=
    List.filter_eq_nil_iff.mpr fun l hl hc =>
      (hn.arrive hr (hn.lines_le l hl)).2 (of_decide_eq_true hc).1
  show Chain _ _ _ (v.lines.filter _)
  rw [FetchThread.stamp, hlines]
  rfl

/-- A prediction that is lost stays owed. -/
theorem overtake (ha : v.Ahead k a) {p : Redirect} {predictions : List Redirect}
    (hp : v.predictions = p :: predictions) :
    ({ v with predictions, overtaken := v.overtaken ++ [p.newStreamSeq] } : Lane).Ahead k a :=
  ⟨fun h0 => ha.1 (owed_overtake hp ▸ h0), fun p' hp' =>
    ha.2 p' (hp ▸ List.mem_cons_of_mem p hp')⟩

/-- When a prediction is taken up, no line is held that the line fetch asks for from then on. -/
theorem heed (ha : v.Ahead k a) (hn : v.Numbered) {p : Redirect} {predictions : List Redirect}
    (hp : v.predictions = p :: predictions) (hs : p.newStreamSeq = v.fetch.streamSeq) :
    ({ v with
        predictions
        fetch := { v.fetch with predictionSeq := p.newPredictionSeq, pc := p.target } } :
      Lane).Ahead k a := by
  have hhead : p ∈ v.predictions := hp ▸ List.mem_cons_self
  have howes := hn.owes
  have howed : v.owed ≠ 0 := fun h0 => ne_of_owed h0 hhead hs
  refine ⟨fun _ => ?_, fun p' hp' => ha.2 p' (hp ▸ List.mem_cons_of_mem p hp')⟩
  rw [show currentLines _ = [] from List.filter_eq_nil_iff.mpr fun l hl hc => by
    have hcarries := of_decide_eq_true hc
    have hle := hn.stamped l hl hcarries.1
    have hseq : l.predictionSeq = v.expected.predictionSeq :=
      hcarries.2.trans (hn.current p hhead hs)
    rw [hseq] at hle
    omega]
  exact (ha.2 p hhead hs).symm

theorem ignore (ha : v.Ahead k a) (hn : v.Numbered) {p : Redirect} {predictions : List Redirect}
    (hp : v.predictions = p :: predictions)
    (hold : ¬ (v.fetch.state = .running ∧ p.newStreamSeq = v.fetch.streamSeq)) :
    ({ v with predictions } : Lane).Ahead k a := by
  have howed := owed_ignore hp (hn.ne_of_ignored hp hold)
  exact ⟨fun h0 => ha.1 (howed ▸ h0), fun p' hp' => ha.2 p' (hp ▸ List.mem_cons_of_mem p hp')⟩

theorem forget (ha : v.Ahead k a) {lines : List Line} (hlines : v.lines = lines ++ [l])
    (hold : ¬ l.Carries v.fetch.stamp) : ({ v with lines } : Lane).Ahead k a := by
  refine ⟨fun h0 => ?_, ha.2⟩
  have hchain := ha.1 h0
  rwa [currentLines, hlines, List.filter_append, List.filter_cons_of_neg (by simpa using hold),
    List.filter_nil, List.append_nil] at hchain

/-- The line that is asked for comes behind the others. -/
theorem request (ha : v.Ahead k a) :
    ({ v with
        lines := v.lines ++ [v.fetch.line k]
        fetch := { v.fetch with pc := v.fetch.lineBase k + k.lineBytes } } : Lane).Ahead k a := by
  refine ⟨fun h0 => ?_, ha.2⟩
  have hchain := (ha.1 h0).concat (l := v.fetch.line k) rfl
  have hstamp : (v.fetch.line k).Carries v.fetch.stamp := ⟨rfl, rfl⟩
  have hlines : (v.lines ++ [v.fetch.line k]).filter (fun l => decide (l.Carries v.fetch.stamp)) =
      v.currentLines ++ [v.fetch.line k] := by
    rw [List.filter_append, List.filter_cons_of_pos (by simpa using hstamp), List.filter_nil,
      currentLines]
  show Chain _ _ _
    ((v.lines ++ [v.fetch.line k]).filter fun l => decide (l.Carries v.fetch.stamp))
  rw [hlines]
  exact hchain

end Ahead

/-- The thread of a lane follows its course. -/
structure OnRoute (k : Track) (v : Lane) : Prop where
  issued : v.issued = k.image.course v.issued.length
  nextPc : v.exec.nextPc = k.image.pcAt v.issued.length
  lines : ∀ l ∈ v.lines, l.Within k
  /-- A redirect leads to where the thread goes on, unless another one is behind it. -/
  target : ∀ r, v.redirects.getLast? = some r → r.target = v.exec.nextPc
  follows : v.redirects = [] →
    Follows k.image (fun n => v.Ahead k (k.image.pcAt n)) v.issued.length v.currentOps

namespace OnRoute

/-- What happens ahead of the micro-ops does not touch them. It is where the course passes. -/
theorem aheadWhere (h : v.OnRoute k) (hissued : w.issued = v.issued) (hexec : w.exec = v.exec)
    (hops : w.ops = v.ops) (hredirects : w.redirects = v.redirects)
    (hlines : ∀ l ∈ w.lines, l.Within k)
    (hahead : v.redirects = [] → ∀ n, k.image.Passes v.issued.length n →
      v.Ahead k (k.image.pcAt n) → w.Ahead k (k.image.pcAt n)) : w.OnRoute k := by
  have hcurrent : w.currentOps = v.currentOps := by rw [currentOps, currentOps, hops, hexec]
  refine ⟨by rw [hissued]; exact h.issued, by rw [hissued, hexec]; exact h.nextPc, hlines,
    by rw [hredirects, hexec]; exact h.target, fun hr => ?_⟩
  rw [hcurrent, hissued]
  exact (h.follows (hredirects ▸ hr)).mono (hahead (hredirects ▸ hr))

theorem ahead (h : v.OnRoute k) (hissued : w.issued = v.issued) (hexec : w.exec = v.exec)
    (hops : w.ops = v.ops) (hredirects : w.redirects = v.redirects)
    (hlines : ∀ l ∈ w.lines, l.Within k)
    (hahead : ∀ n, v.Ahead k (k.image.pcAt n) → w.Ahead k (k.image.pcAt n)) : w.OnRoute k :=
  h.aheadWhere hissued hexec hops hredirects hlines fun _ n _ => hahead n

/-- The oldest micro-op of the stream is the instruction that the course comes to. -/
theorem next_op (h : v.OnRoute k) (hn : v.Numbered) {o : MicroOp} {rest : List MicroOp}
    (hops : v.ops = o :: rest) (hcur : o.streamSeq = v.exec.streamSeq) :
    v.issued ++ [(o.pc, o.inst)] = k.image.course (v.issued.length + 1) ∧
      (ExecThread.outcome o).2 = k.image.pcAt (v.issued.length + 1) ∧
      ((ExecThread.outcome o).1.changesStream = false →
        Follows k.image (fun n => v.Ahead k (k.image.pcAt n)) (v.issued.length + 1)
          (rest.filter fun o => decide (o.streamSeq = v.exec.streamSeq))) := by
  have hnone : v.redirects = [] :=
    hn.redirects_of_current (hops ▸ List.mem_cons_self) hcur
  have hfollows := h.follows hnone
  rw [currentOps, hops, List.filter_cons_of_pos (by simpa using hcur)] at hfollows
  obtain ⟨hpc, hinst, hrest⟩ := hfollows
  refine ⟨?_, ?_, hrest⟩
  · rw [Image.course_succ, ← h.issued, hpc, hinst]
  · rw [ExecThread.outcome_target, hpc, hinst]
    rfl

theorem start (k : Track) : (Lane.start k.image.entry).OnRoute k where
  issued := rfl
  nextPc := rfl
  lines l hl := absurd hl (by simp [Lane.start])
  target r hr := absurd hr (by simp [Lane.start])
  follows _ := Ahead.start k k.image.entry

theorem pend (h : v.OnRoute k) (haltPending : Bool) : (v.pend haltPending).OnRoute k := { h with }

/-! ### Every step keeps the route -/

theorem squash (h : v.OnRoute k) {o : MicroOp} {rest : List MicroOp} (hops : v.ops = o :: rest)
    (hold : o.streamSeq ≠ v.exec.streamSeq) : ({ v with ops := rest } : Lane).OnRoute k := by
  have hcurrent : ({ v with ops := rest } : Lane).currentOps = v.currentOps := by
    rw [currentOps, currentOps, hops, List.filter_cons_of_neg (by simpa using hold)]
  exact { h with follows := fun hr => hcurrent ▸ h.follows hr }

theorem issue (h : v.OnRoute k) (hn : v.Numbered) {o : MicroOp} {rest : List MicroOp}
    (hops : v.ops = o :: rest) (hcur : o.streamSeq = v.exec.streamSeq)
    (hright : (ExecThread.outcome o).1.changesStream = false) :
    ({ v with
        ops := rest, exec := { v.exec with nextPc := (ExecThread.outcome o).2 }
        issued := v.issued ++ [(o.pc, o.inst)] } : Lane).OnRoute k := by
  obtain ⟨hcourse, hnext, hrest⟩ := h.next_op hn hops hcur
  have hlen : (v.issued ++ [(o.pc, o.inst)]).length = v.issued.length + 1 := by simp
  have hnone : v.redirects = [] := hn.redirects_of_current (hops ▸ List.mem_cons_self) hcur
  refine ⟨?_, ?_, h.lines, ?_, ?_⟩
  · show v.issued ++ _ = k.image.course (v.issued ++ _).length
    rw [hlen, hcourse]
  · show (ExecThread.outcome o).2 = k.image.pcAt (v.issued ++ _).length
    rw [hlen, hnext]
  · intro r hr
    rw [hnone] at hr
    exact absurd hr (by simp)
  · intro _
    rw [hlen]
    exact hrest hright

/-- After a redirect is sent, nothing that is held matters. -/
theorem send (h : v.OnRoute k) {ops : List MicroOp} {exec : ExecThread}
    {issued : List (UInt64 × UInt32)} {r : Redirect}
    (hissued : issued = k.image.course issued.length)
    (hnext : exec.nextPc = k.image.pcAt issued.length) (htarget : r.target = exec.nextPc) :
    ({ v with ops, exec, issued, redirects := v.redirects ++ [r] } : Lane).OnRoute k := by
  refine ⟨hissued, hnext, h.lines, ?_, ?_⟩
  · intro r' hr'
    rw [List.getLast?_concat] at hr'
    rw [← Option.some.inj hr', htarget]
  · intro hr
    exact absurd hr (by simp)

theorem drop (hk : k.Whole)
    (hm : v.fetch.state = .running → v.redirects = [] → k.image.AlignedFrom v.issued.length)
    (h : v.OnRoute k) (hn : v.Numbered) {l : Line} {rest : List Line} (hlines : v.lines = l :: rest)
    (hdone : ¬ l.Carries v.expected ∨ l.wordAt? l.pc = none) :
    ({ v with lines := rest } : Lane).OnRoute k := by
  have hl : l ∈ v.lines := hlines ▸ List.mem_cons_self
  refine h.aheadWhere rfl rfl rfl rfl
    (fun l' hl' => h.lines l' (hlines ▸ List.mem_cons_of_mem l hl')) fun hr n hpasses ha => ?_
  by_cases hcarries : l.Carries v.expected
  · have hpc := (ha.entered hn hlines hcarries).1
    have hruns := hn.runs_of_line hl (hcarries.1.trans hn.stream)
    have hpc4 : l.pc.toNat % 4 = 0 := hpc ▸ hm hruns hr n hpasses
    have hend := (h.lines l hl).pc_of_end hk hpc4 (hdone.resolve_left (not_not_intro hcarries))
    rw [← hpc, ← hend]
    exact ha.leave hn hlines hcarries
  · exact ha.skip hn hlines hcarries

/-- A micro-op is cut where the course comes to. -/
theorem pushOp (h : v.OnRoute k) (hn : v.Numbered) {o : MicroOp} {l : Line}
    {lines : List Line} {expected : Expected} {predictions : List Redirect}
    (hseq : o.streamSeq = l.streamSeq) (hcarries : l.Carries v.expected)
    (hlines : ∀ l ∈ lines, l.Within k)
    (hahead : ∀ n, v.Ahead k (k.image.pcAt n) → Follows k.image
      (fun n => ({ v with lines, expected, predictions } : Lane).Ahead k (k.image.pcAt n)) n [o]) :
    ({ v with lines, expected, predictions, ops := v.ops ++ [o] } : Lane).OnRoute k := by
  refine ⟨h.issued, h.nextPc, hlines, h.target, fun hr => ?_⟩
  have hcur : o.streamSeq = v.exec.streamSeq :=
    hseq.trans (hcarries.1.trans (hn.stream.trans (hn.stream_eq hr)))
  have hcurrent : ({ v with lines, expected, predictions, ops := v.ops ++ [o] } : Lane).currentOps =
      v.currentOps ++ [o] := by
    rw [currentOps, currentOps, List.filter_append, List.filter_cons_of_pos (by simpa using hcur),
      List.filter_nil]
  rw [hcurrent]
  exact (h.follows hr).concat hahead

theorem cut (h : v.OnRoute k) (hn : v.Numbered) {l : Line} {rest : List Line} {inst : UInt32}
    {seq : UInt64} (hlines : v.lines = l :: rest) (hcarries : l.Carries v.expected)
    (hword : l.wordAt? l.pc = some inst) :
    ({ v with
        lines := l.enter (Isa.nextWord l.pc) :: rest
        ops := v.ops ++ [⟨.clear, l.pc, seq, l.streamSeq, inst, .clear, 0⟩] } :
      Lane).OnRoute k := by
  have hl : l ∈ v.lines := hlines ▸ List.mem_cons_self
  obtain ⟨hinst, hin⟩ := (h.lines l hl).wordAt hword
  refine h.pushOp hn rfl hcarries ?_ ?_
  · intro l' hl'
    rcases List.mem_cons.mp hl' with rfl | hl'
    · exact (h.lines l hl).enter_next hin
    · exact h.lines l' (hlines ▸ List.mem_cons_of_mem l hl')
  · intro n ha
    have hpc := (ha.entered hn hlines hcarries).1
    refine ⟨hpc, hpc ▸ hinst, fun hright => ?_⟩
    have hnext : Isa.nextWord l.pc = k.image.pcAt (n + 1) := by
      rw [← ExecThread.outcome_unpredicted Flag.isSet_clear hright, ExecThread.outcome_target,
        hinst, hpc]
      rfl
    exact hnext ▸ ha.cut hn hlines hcarries _ v.ops

theorem cutJump (h : v.OnRoute k) (hn : v.Numbered) {l : Line} {rest : List Line} {inst : UInt32}
    {offset : Int} {seq : UInt64} (hlines : v.lines = l :: rest) (hcarries : l.Carries v.expected)
    (hword : l.wordAt? l.pc = some inst) (hjump : Isa.classify inst = .jump offset) :
    ({ v with
        lines := rest
        ops := v.ops ++ [⟨.clear, l.pc, seq, l.streamSeq, inst, .set, Isa.displace l.pc offset⟩]
        expected := { v.expected with predictionSeq := v.expected.predictionSeq + 1 }
        predictions := v.predictions ++
          [.live .prediction k.thread (Isa.displace l.pc offset) l.streamSeq
            (v.expected.predictionSeq + 1)] } : Lane).OnRoute k := by
  have hl : l ∈ v.lines := hlines ▸ List.mem_cons_self
  have hinst := ((h.lines l hl).wordAt hword).1
  refine h.pushOp hn rfl hcarries (fun l' hl' => h.lines l' (hlines ▸ List.mem_cons_of_mem l hl'))
    fun n ha => ?_
  have hpc := (ha.entered hn hlines hcarries).1
  have htarget : Isa.displace l.pc offset = k.image.pcAt (n + 1) := by
    rw [Image.pcAt, ← hpc, ← hinst, Isa.next, hjump]
  have hahead := Ahead.cutJump (k := k) hn hlines hcarries rest v.ops
    { v.expected with predictionSeq := v.expected.predictionSeq + 1 }
    (p := .live .prediction k.thread (Isa.displace l.pc offset) l.streamSeq
      (v.expected.predictionSeq + 1)) rfl
  refine ⟨hpc, hpc ▸ hinst, fun _ => ?_⟩
  exact htarget ▸ hahead

theorem follow (h : v.OnRoute k) (hn : v.Numbered) {r : Redirect} {rest ps : List Redirect}
    (hr : v.redirects = r :: rest) (hps : ∀ p ∈ ps, p ∈ v.predictions) :
    ({ v with
        redirects := rest, predictions := ps
        expected := ⟨r.newStreamSeq, r.newPredictionSeq⟩
        fetch := ⟨.after r.reason, r.target, r.newStreamSeq, r.newPredictionSeq⟩ } :
      Lane).OnRoute k := by
  refine ⟨h.issued, h.nextPc, h.lines, fun r' hr' => h.target r' ?_, ?_⟩
  · rw [hr, List.getLast?_cons, show rest.getLast? = some r' from hr']
    rfl
  · intro hnil
    have hlast : rest = [] := hnil
    subst hlast
    have hclimbs := hn.climbs
    rw [hr] at hclimbs
    have hstream : r.newStreamSeq = v.exec.streamSeq := hclimbs.2
    have htarget : r.target = k.image.pcAt v.issued.length := by
      rw [h.target r (by rw [hr]; rfl), h.nextPc]
    have hops : v.ops.filter (fun o => decide (o.streamSeq = v.exec.streamSeq)) = [] :=
      List.filter_eq_nil_iff.mpr fun o ho hc =>
        (hn.arrive hr (hn.ops_le o ho)).2 ((of_decide_eq_true hc).trans hstream.symm)
    show Follows _ _ _ (v.ops.filter _)
    rw [hops]
    show Ahead k _ (k.image.pcAt v.issued.length)
    rw [← htarget]
    exact Ahead.follow hn hr hps

/-- **No step of a lane with right numbers leaves the route**, if the course keeps to whole words as
far as the thread fetches. -/
theorem step (hk : k.Whole)
    (hm : v.fetch.state = .running → v.redirects = [] → k.image.AlignedFrom v.issued.length)
    (h : v.OnRoute k) (hn : v.Numbered) (hs : Step k v w) : w.OnRoute k := by
  cases hs with
  | squash o rest hops hold => exact h.squash hops hold
  | issue o rest th hops hcur hissue =>
    obtain ⟨hright, rfl⟩ := ExecThread.of_issue_none hissue
    exact h.issue hn hops hcur hright
  | raise o rest th r hops hcur hissue hfresh =>
    obtain ⟨-, rfl, rfl⟩ := ExecThread.of_issue_some hissue
    obtain ⟨hcourse, hnext, -⟩ := h.next_op hn hops hcur
    have hlen : (v.issued ++ [(o.pc, o.inst)]).length = v.issued.length + 1 := by simp
    exact h.send (by rw [hlen, hcourse]) (by rw [hlen, ← hnext]) rfl
  | halt hpending hfresh => exact h.send h.issued h.nextPc rfl
  | drop l rest hlines hdone => exact h.drop hk hm hn hlines hdone
  | cut l rest inst seq hlines hcarries hword hplain => exact h.cut hn hlines hcarries hword
  | cutJump l rest inst offset seq hlines hcarries hword hjump hfresh =>
    exact h.cutJump hn hlines hcarries hword hjump
  | follow r rest ps hredirects hps =>
    exact h.follow hn hredirects fun p hp => mem_of_passed hps hp
  | overtake p rest hpredictions =>
    exact h.ahead rfl rfl rfl rfl h.lines fun _ ha => ha.overtake hpredictions
  | heed p rest hpredictions hruns hstream =>
    exact h.ahead rfl rfl rfl rfl h.lines fun _ ha => ha.heed hn hpredictions hstream
  | ignore p rest hpredictions hold =>
    exact h.ahead rfl rfl rfl rfl h.lines fun _ ha => ha.ignore hn hpredictions hold
  | forget lines l hlines hold =>
    have hwithin : ∀ l' ∈ lines, l'.Within k := fun l' hl' =>
      h.lines l' (hlines ▸ List.mem_append_left [l] hl')
    exact h.ahead rfl rfl rfl rfl hwithin fun _ ha => ha.forget hlines hold
  | request hruns =>
    refine h.ahead rfl rfl rfl rfl (fun l hl => ?_) fun _ ha => ha.request
    rcases List.mem_append.mp hl with hl | hl
    · exact h.lines l hl
    · rw [List.mem_singleton.mp hl]
      exact Line.within_request hk v.fetch
  | wake => exact h.ahead rfl rfl rfl rfl h.lines fun _ ha => ha

/-- A lane stays on its route for any number of steps. -/
theorem steps (hfresh : ∀ x, k.fresh x → x ≠ firstSeq) (hk : k.Whole) (hm : k.image.WordAligned)
    (h : v.OnRoute k) (hn : v.Numbered) (hs : Steps k v w) : w.OnRoute k := by
  induction hs with
  | refl => exact h
  | tail hpre hlast ih =>
    exact ih.step hk (fun _ _ => hm.alignedFrom _) (hn.steps hfresh hpre) hlast

/-- **A thread that does not fetch goes on after what it has issued**, when no redirect is on its
way: the line fetch and execute agree on the address and stream, and the slicer on the numbers. -/
theorem resumes (h : v.OnRoute k) (hn : v.Numbered) (hredirects : v.redirects = [])
    (hstopped : v.fetch.state ≠ .running) :
    v.fetch.pc = v.exec.nextPc ∧ v.fetch.streamSeq = v.exec.streamSeq ∧
      v.expected = v.fetch.stamp := by
  obtain ⟨hops, hlines, howed⟩ := hn.rests hstopped
  have hstream := hn.stream_eq hredirects
  have hnone : v.currentOps = [] := by
    refine List.filter_eq_nil_iff.mpr fun o ho => ?_
    rw [← hstream]
    simpa using hops o ho
  have hempty : v.currentLines = [] := by
    refine List.filter_eq_nil_iff.mpr fun l hl hcarries => ?_
    exact hlines l hl (of_decide_eq_true hcarries).1
  have hahead := h.follows hredirects
  rw [hnone] at hahead
  have hchain := hahead.1 howed
  rw [hempty, ← h.nextPc] at hchain
  exact ⟨Eq.symm hchain, hstream, hn.expected_eq howed⟩

end OnRoute

end Lane

end InOrder
