import InOrder.Proofs.Pipeline.Sound

/-!
# The lanes of a pipeline

`Pipeline.lane p h t` is what a pipeline and its history hold of thread `t`, gathered from the
stages and the registers from execute back to the line fetch. A cycle of the pipeline is a sequence
of steps for each lane (`Pipeline.lane_evaluate`): execute works on the front of it, then the line
fetch on its end, and then the slicer in its midst. What the last two take from the lane and add to
it is what arrives and what is sent (`laneOf_supply`).
-/

namespace InOrder

/-- What has happened to a pipeline that it does not hold itself. -/
structure History where
  /-- What retired, in order. -/
  retired : List Retired := []
  /-- The predictions that were lost to the redirect of another thread. -/
  overtaken : List Redirect := []
  /-- The threads that were woken, as often as they were. -/
  woken : List UInt32 := []

/-- What the lane of thread `t` depends on. -/
def Config.track (c : Config) (m : Image) (fresh : UInt64 → Prop) (t : UInt32) : Track :=
  { thread := t, image := m, lineBytes := c.pipeline.lineBytes.toUInt64
    predictJumps := c.pipeline.predictJumps, fresh }

/-- What decode sends and keeps is what it kept and got. -/
theorem Decode.evaluate_tagged (s : Decode) (b : Bundle) (room : Bool) :
    ((s.evaluate b room).bundle.toList ++ (s.evaluate b room).stage.input.entries).flatMap
        Bundle.tagged =
      s.input.entries.flatMap Bundle.tagged ++ b.tagged := by
  have hpush : ((s.input.push b).entries).flatMap Bundle.tagged =
      s.input.entries.flatMap Bundle.tagged ++ b.tagged := by
    rw [Queue.entries_push, List.flatMap_append, Bundle.flatMap_tagged_present,
      List.flatMap_singleton]
  rw [← hpush]
  unfold evaluate
  cases room with
  | false => rfl
  | true =>
    unfold Queue.pop
    cases hentries : (s.input.push b).entries with
    | nil => simp [hentries]
    | cons b' rest => simp [hentries]

/-! ## Gathering -/

/-- What stages, registers and a history hold of thread `t`. -/
def laneOf (s : Stages) (rs : Registers) (h : History) (t : UInt32) : Lane :=
  { issued := trail t (h.retired ++ s.execute.units.map InFlight.retired)
    exec := s.execute.threads[t.toNat]?.getD ⟨firstSeq, 0, false⟩
    ops := share t (s.execute.waiting ++
      (rs.dToE.held ++ s.decode.input.entries ++ rs.f2ToD.held).flatMap Bundle.tagged)
    expected := s.slicer.expected[t.toNat]?.getD ⟨firstSeq, firstSeq⟩
    lines := linesOf t (s.slicer.waiting ++ rs.f1ToF2.held) ++
      LineFetch.pendingOf t s.lineFetch.pending
    fetch := (s.lineFetch.thread? t).getD ⟨.halted, 0, firstSeq, firstSeq⟩
    redirects := redirectsOf t rs.eToF1.held
    predictions := redirectsOf t rs.f2ToF1.held
    overtaken := (redirectsOf t h.overtaken).map (·.newStreamSeq)
    wakes := h.woken.count t }

/-- The micro-ops behind execute. -/
theorem ops_cycle {rs : Registers} (hdecoded : rs.dToE.Clean) (hcut : rs.f2ToD.Clean) (s : Decode)
    (room : Bool) (sent : Option Bundle) :
    ((rs.dToE.write? (s.evaluate rs.f2ToD.output room).bundle).advance.held ++
        (s.evaluate rs.f2ToD.output room).stage.input.entries ++
        (rs.f2ToD.write? sent).advance.held).flatMap Bundle.tagged =
      (rs.dToE.behind ++ s.input.entries ++ rs.f2ToD.held).flatMap Bundle.tagged ++
        sent.toList.flatMap Bundle.tagged := by
  have hdecode := s.evaluate_tagged rs.f2ToD.output room
  rw [Register.held_cycle hdecoded, Register.held_cycle hcut, Register.held]
  simp only [List.flatMap_append, Bundle.flatMap_tagged_present, List.flatMap_singleton,
    List.append_assoc] at hdecode ⊢
  rw [← List.append_assoc (List.flatMap _ (Option.toList _)), hdecode, List.append_assoc]

/-- The numbers that the slicer expects of a thread when a redirect has arrived. -/
theorem arrive_followed {n c : Nat} {s : Slicer} (hs : s.Sound n c) {r : Redirect}
    (hr : Payload.isBubble r = false → r.Sent n) {t : UInt32} (ht : t.toNat < n) (e : Expected) :
    r.arrive t (s.expected[t.toNat]?.getD e) = (s.followed r)[t.toNat]?.getD e := by
  cases hlive : Payload.isBubble r with
  | true =>
    have hsame : s.followed r = s.expected := by
      rw [Slicer.followed, Slicer.follow, if_neg (by simp [Redirect.not_isLive hlive])]
    rw [Redirect.arrive, if_neg (by simp [hlive]), hsame]
  | false =>
    have hset : s.followed r =
        s.expected.set r.thread.toNat ⟨r.newStreamSeq, r.newPredictionSeq⟩ := by
      rw [Slicer.followed, Slicer.follow, if_pos ⟨(hr hlive).isLive, (hr hlive).changes⟩]
    rw [hset, Redirect.arrive]
    by_cases heq : r.thread = t
    · rw [if_pos ⟨hlive, heq⟩, heq, List.getElem?_set_self (hs.length.symm ▸ ht)]
      rfl
    · rw [if_neg fun hc => heq hc.2, List.getElem?_set_ne fun hc => heq (UInt32.toNat_inj.mp hc)]

/-! ## A cycle -/

section Cycle

variable (s : Stages) (rs : Registers) (h : History) (k : Track)

/-- What execute leaves to the others of a lane, when `retired` has just retired. -/
def besideExecute (retired : List Retired) : Lane :=
  { laneOf s rs h k.thread with
    issued := trail k.thread (h.retired ++ retired)
    exec := ⟨firstSeq, 0, false⟩
    ops := share k.thread
      ((rs.dToE.behind ++ s.decode.input.entries ++ rs.f2ToD.held).flatMap Bundle.tagged) }

/-- What the line fetch leaves to the others of the lane `v`, when execute has sent `sent`. -/
def besideLineFetch (sent : Option Redirect) (v : Lane) : Lane :=
  { v with
    lines := linesOf k.thread (s.slicer.waiting ++ rs.f1ToF2.held)
    fetch := ⟨.halted, 0, firstSeq, firstSeq⟩
    redirects := redirectsOf k.thread (rs.eToF1.behind ++ sent.toList)
    predictions := redirectsOf k.thread rs.f2ToF1.behind }

/-- What the slicer leaves to the others of the lane `v`, after the line fetch. -/
def besideSlicer (l : LineFetch.Result) (v : Lane) : Lane :=
  { v with
    expected := ⟨firstSeq, firstSeq⟩
    lines := linesOf k.thread rs.f1ToF2.behind ++ linesOf k.thread l.line.toList ++
      LineFetch.pendingOf k.thread l.stage.pending
    fetch := (l.stage.thread? k.thread).getD ⟨.halted, 0, firstSeq, firstSeq⟩
    overtaken := v.overtaken ++ (redirectsOf k.thread
      (overtakenBy rs.eToF1.output rs.f2ToF1.output)).map (·.newStreamSeq) }

/-- Execute begins its cycle at the front of the lane. -/
theorem laneOf_eq_ahead (cycle : Nat) :
    laneOf s rs h k.thread = Issuing.ahead ⟨s.execute.waiting ++ rs.dToE.output.tagged,
      s.execute.threads, s.execute.units.dropWhile (Execute.isDone cycle), none⟩ k
      (besideExecute s rs h k (s.execute.evaluate cycle rs.dToE.output).retired) := by
  have hissued : trail k.thread (h.retired ++ s.execute.units.map InFlight.retired) =
      trail k.thread (h.retired ++ (s.execute.evaluate cycle rs.dToE.output).retired) ++
        trail k.thread
          ((s.execute.units.dropWhile (Execute.isDone cycle)).map InFlight.retired) := by
    rw [(s.execute.evaluate_retired cycle rs.dToE.output).1, ← trail_append, List.append_assoc,
      ← List.map_append, List.takeWhile_append_dropWhile]
  have hops : share k.thread (s.execute.waiting ++
      (rs.dToE.held ++ s.decode.input.entries ++ rs.f2ToD.held).flatMap Bundle.tagged) =
      share k.thread (s.execute.waiting ++ rs.dToE.output.tagged) ++ share k.thread
        ((rs.dToE.behind ++ s.decode.input.entries ++ rs.f2ToD.held).flatMap Bundle.tagged) := by
    rw [Register.held, List.append_assoc, List.append_assoc, List.flatMap_append,
      Bundle.flatMap_tagged_present, List.flatMap_singleton, ← List.append_assoc, share_append,
      List.append_assoc]
  have hredirects : redirectsOf k.thread rs.eToF1.held =
      redirectsOf k.thread rs.eToF1.held ++ redirectsOf k.thread [] := (List.append_nil _).symm
  exact Lane.ext hissued rfl hops rfl rfl rfl hredirects rfl rfl rfl

/-- Where execute ends, the line fetch begins at the end of the lane. -/
theorem ahead_eq_before (i : Issuing) (retired : List Retired) :
    i.ahead k (besideExecute s rs h k retired) =
      s.lineFetch.before k rs.eToF1.output rs.f2ToF1.output
        (besideLineFetch s rs k i.redirect (i.ahead k (besideExecute s rs h k retired))) := by
  have hredirects : redirectsOf k.thread rs.eToF1.held ++ redirectsOf k.thread i.redirect.toList =
      redirectsOf k.thread (present [rs.eToF1.output]) ++
        redirectsOf k.thread (rs.eToF1.behind ++ i.redirect.toList) := by
    rw [Register.held, redirectsOf_append, redirectsOf_append, List.append_assoc]
  have hpredictions : redirectsOf k.thread rs.f2ToF1.held =
      redirectsOf k.thread (present [rs.f2ToF1.output]) ++
        redirectsOf k.thread rs.f2ToF1.behind := by
    rw [Register.held, redirectsOf_append]
  exact Lane.ext rfl rfl rfl rfl rfl rfl hredirects hpredictions rfl rfl

variable {s rs h k}

/-- Where the line fetch ends, the slicer begins in the midst of the lane. -/
theorem below_eq_between {n cycles : Nat} (hs : s.slicer.Sound n cycles)
    (hsent : Payload.isBubble rs.eToF1.output = false → rs.eToF1.output.Sent n)
    (ht : k.thread.toNat < n) {v : Lane}
    (hexpected : v.expected = s.slicer.expected[k.thread.toNat]?.getD ⟨firstSeq, firstSeq⟩)
    (hlines : v.lines = linesOf k.thread (s.slicer.waiting ++ rs.f1ToF2.held))
    (l : LineFetch.Result) :
    l.stage.below k { v with
        expected := rs.eToF1.output.arrive k.thread v.expected
        lines := v.lines ++ linesOf k.thread l.line.toList
        fetch := ⟨.halted, 0, firstSeq, firstSeq⟩
        overtaken := v.overtaken ++ (redirectsOf k.thread
          (overtakenBy rs.eToF1.output rs.f2ToF1.output)).map (·.newStreamSeq) } =
      Cutting.between ⟨s.slicer.waiting ++ present [rs.f1ToF2.output],
        s.slicer.followed rs.eToF1.output, [], none⟩ k (besideSlicer rs k l v) := by
  have hops : v.ops = v.ops ++ share k.thread [] := (List.append_nil _).symm
  have hfollowed : rs.eToF1.output.arrive k.thread v.expected =
      (s.slicer.followed rs.eToF1.output)[k.thread.toNat]?.getD ⟨firstSeq, firstSeq⟩ := by
    rw [hexpected, arrive_followed hs hsent ht]
  have hcut : v.lines ++ linesOf k.thread l.line.toList ++
      LineFetch.pendingOf k.thread l.stage.pending =
      linesOf k.thread (s.slicer.waiting ++ present [rs.f1ToF2.output]) ++
        (linesOf k.thread rs.f1ToF2.behind ++ linesOf k.thread l.line.toList ++
          LineFetch.pendingOf k.thread l.stage.pending) := by
    simp only [hlines, Register.held, linesOf_append, List.append_assoc]
  have hpredictions : v.predictions = v.predictions ++ redirectsOf k.thread [] :=
    (List.append_nil _).symm
  exact Lane.ext rfl rfl hops hfollowed hcut rfl rfl hpredictions rfl rfl

/-- Where the slicer ends, the lane is that of the next cycle. -/
theorem between_eq_laneOf {n : Nat} (hrs : rs.Sound n) {room : Bool} {e : Execute.Result}
    {f : Slicer.Result} {l : LineFetch.Result}
    (hw : Writes.Sound n ⟨l.line, f.bundle, (s.decode.evaluate rs.f2ToD.output room).bundle,
      e.redirect, f.prediction⟩) :
    Cutting.between ⟨f.stage.waiting, f.stage.expected, f.bundle.toList.flatMap Bundle.tagged,
        f.prediction⟩ k (besideSlicer rs k l (besideLineFetch s rs k e.redirect
          ((e.stage.issuing e.redirect).ahead k (besideExecute s rs h k e.retired)))) =
      laneOf ⟨l.stage, f.stage, (s.decode.evaluate rs.f2ToD.output room).stage, e.stage⟩
        (rs.write ⟨l.line, f.bundle, (s.decode.evaluate rs.f2ToD.output room).bundle, e.redirect,
          f.prediction⟩).advance
        { h with
          retired := h.retired ++ e.retired
          overtaken := h.overtaken ++ overtakenBy rs.eToF1.output rs.f2ToF1.output } k.thread := by
  have hissued : trail k.thread (h.retired ++ e.retired) ++
      trail k.thread (e.stage.units.map InFlight.retired) =
      trail k.thread (h.retired ++ e.retired ++ e.stage.units.map InFlight.retired) :=
    (trail_append ..).symm
  have hops : share k.thread e.stage.waiting ++ share k.thread
      ((rs.dToE.behind ++ s.decode.input.entries ++ rs.f2ToD.held).flatMap Bundle.tagged) ++
        share k.thread (f.bundle.toList.flatMap Bundle.tagged) =
      share k.thread (e.stage.waiting ++
        ((rs.dToE.write? (s.decode.evaluate rs.f2ToD.output room).bundle).advance.held ++
          (s.decode.evaluate rs.f2ToD.output room).stage.input.entries ++
          (rs.f2ToD.write? f.bundle).advance.held).flatMap Bundle.tagged) := by
    rw [ops_cycle hrs.decoded hrs.cut, share_append, share_append, List.append_assoc]
  have hlines : linesOf k.thread f.stage.waiting ++ (linesOf k.thread rs.f1ToF2.behind ++
      linesOf k.thread l.line.toList ++ LineFetch.pendingOf k.thread l.stage.pending) =
      linesOf k.thread (f.stage.waiting ++ (rs.f1ToF2.write? l.line).advance.held) ++
        LineFetch.pendingOf k.thread l.stage.pending := by
    rw [Register.held_cycle hrs.lines, hw.line]
    simp only [linesOf_append, List.append_assoc]
  have hredirects : redirectsOf k.thread (rs.eToF1.behind ++ e.redirect.toList) =
      redirectsOf k.thread (rs.eToF1.write? e.redirect).advance.held := by
    rw [Register.held_cycle hrs.redirects, present_toList fun r hr => (hw.redirect r hr).live]
  have hpredictions : redirectsOf k.thread rs.f2ToF1.behind ++
      redirectsOf k.thread f.prediction.toList =
      redirectsOf k.thread (rs.f2ToF1.write? f.prediction).advance.held := by
    rw [Register.held_cycle hrs.predictions, present_toList fun r hr => (hw.prediction r hr).live,
      redirectsOf_append]
  have hovertaken : (redirectsOf k.thread h.overtaken).map (·.newStreamSeq) ++
      (redirectsOf k.thread
        (overtakenBy rs.eToF1.output rs.f2ToF1.output)).map (·.newStreamSeq) =
      (redirectsOf k.thread (h.overtaken ++
        overtakenBy rs.eToF1.output rs.f2ToF1.output)).map (·.newStreamSeq) := by
    rw [redirectsOf_append, List.map_append]
  exact Lane.ext hissued rfl hops rfl hlines rfl hredirects hpredictions hovertaken rfl

end Cycle

/-- **In a cycle each lane goes through steps of execute, and then through steps of the line fetch
and the slicer.** Execute works on the front of the lane. The others then take the redirects that
arrive, and add the micro-ops that are sent. -/
theorem laneOf_supply {c : Config} {m : Image} {cycles : Nat} {s : Stages} {rs : Registers}
    (hs : s.Sound c m cycles) (hrs : rs.Sound c.host.threads.toNat) {t : UInt32}
    (ht : t.toNat < c.host.threads.toNat) {fresh : UInt64 → Prop}
    (hfresh : ∀ x, ordinal x ≤ cycles → fresh (x + 1)) (cycle : Nat) (h : History) :
    let v := laneOf s rs h t
    let w := laneOf (s.evaluate cycle rs.outputs).stages
      (rs.write (s.evaluate cycle rs.outputs).writes).advance
      { h with
        retired := h.retired ++ (s.evaluate cycle rs.outputs).retired
        overtaken := h.overtaken ++ overtakenBy rs.eToF1.output rs.f2ToF1.output } t
    ∃ issued exec ops redirects,
      Lane.Steps (c.track m fresh t) v { v with issued, exec, ops, redirects } ∧
        Lane.SupplySteps (c.track m fresh t) { v with issued, exec, ops, redirects } w ∧
        w.ops = ops ++ share t
          ((s.evaluate cycle rs.outputs).writes.f2ToD.toList.flatMap Bundle.tagged) ∧
        redirects = redirectsOf t (present [rs.eToF1.output]) ++ w.redirects := by
  intro v w
  let k := c.track m fresh t
  let e := s.execute.evaluate cycle rs.dToE.output
  let d := s.decode.evaluate rs.f2ToD.output e.stage.input.hasRoom
  let f := s.slicer.evaluate rs.f1ToF2.output rs.eToF1.output d.stage.input.hasRoom
  let l := s.lineFetch.evaluate cycle rs.eToF1.output rs.f2ToF1.output f.stage.input.hasRoom
  have hn : c.host.threads.toNat ≤ UInt32.size := Nat.le_of_lt (UInt32.toNat_lt _)
  have hsent : Payload.isBubble rs.eToF1.output = false → rs.eToF1.output.Sent _ := fun hlive =>
    hrs.sent _ (Register.output_mem_held hlive)
  have hpredicts : Payload.isBubble rs.f2ToF1.output = false → rs.f2ToF1.output.Predicts _ :=
    fun hlive => hrs.predicted _ (Register.output_mem_held hlive)
  have hwrites := (hs.evaluate cycle (o := rs.outputs) hsent).2
  let mid := (e.stage.issuing e.redirect).ahead k (besideExecute s rs h k e.retired)
  let v₂ := besideLineFetch s rs k e.redirect mid
  let v₃ := besideSlicer rs k l v₂
  -- execute has the front of the lane, the line fetch its end, and the slicer its midst
  have hexecute : Lane.Steps k v mid := by
    rw [show v = _ from laneOf_eq_ahead s rs h k cycle]
    exact Execute.lane_evaluate hs.execute hn ht hfresh cycle rs.dToE.output _
  have hbefore : mid = s.lineFetch.before k rs.eToF1.output rs.f2ToF1.output v₂ :=
    ahead_eq_before s rs h k (e.stage.issuing e.redirect) e.retired
  have hfetch : Lane.SupplySteps k mid (Cutting.between
      ⟨s.slicer.waiting ++ present [rs.f1ToF2.output], s.slicer.followed rs.eToF1.output, [], none⟩
      k v₃) := by
    rw [hbefore, ← below_eq_between hs.slicer hsent ht rfl rfl l]
    exact LineFetch.lane_evaluate hs.lineFetch hn hsent hpredicts cycle f.stage.input.hasRoom v₂
  have hslicer := Slicer.lane_evaluate (k := k) hs.slicer ht hs.predicts hfresh rs.f1ToF2.output
    hsent d.stage.input.hasRoom v₃
  have hlast : Cutting.between ⟨f.stage.waiting, f.stage.expected,
      f.bundle.toList.flatMap Bundle.tagged, f.prediction⟩ k v₃ = w :=
    between_eq_laneOf (h := h) (k := k) hrs hwrites
  refine ⟨mid.issued, mid.exec, mid.ops, mid.redirects, hexecute, ?_, ?_, ?_⟩
  · rw [← hlast]
    exact hfetch.trans hslicer
  · exact (congrArg Lane.ops hlast).symm
  · exact (congrArg Lane.redirects hbefore).trans (congrArg _ (congrArg Lane.redirects hlast))

/-- **The work of the stages in a cycle is a sequence of steps for each lane.** -/
theorem laneOf_evaluate {c : Config} {m : Image} {cycles : Nat} {s : Stages} {rs : Registers}
    (hs : s.Sound c m cycles) (hrs : rs.Sound c.host.threads.toNat) {t : UInt32}
    (ht : t.toNat < c.host.threads.toNat) {fresh : UInt64 → Prop}
    (hfresh : ∀ x, ordinal x ≤ cycles → fresh (x + 1)) (cycle : Nat) (h : History) :
    Lane.Steps (c.track m fresh t) (laneOf s rs h t)
      (laneOf (s.evaluate cycle rs.outputs).stages
        (rs.write (s.evaluate cycle rs.outputs).writes).advance
        { h with
          retired := h.retired ++ (s.evaluate cycle rs.outputs).retired
          overtaken := h.overtaken ++ overtakenBy rs.eToF1.output rs.f2ToF1.output } t) := by
  obtain ⟨_, _, _, _, hexecute, hsupply, -⟩ := laneOf_supply hs hrs ht hfresh cycle h
  exact hexecute.trans hsupply.steps

namespace Pipeline

variable {c : Config} {m : Image} {p : Pipeline Stages} {t : UInt32} {fresh : UInt64 → Prop}

/-- What a pipeline and its history hold of thread `t`. -/
def lane (p : Pipeline Stages) (h : History) (t : UInt32) : Lane := laneOf p.stages p.registers h t

/-- The prediction that is lost in the next cycle, if one is. -/
def overtaken (p : Pipeline Stages) : List Redirect :=
  overtakenBy p.registers.eToF1.output p.registers.f2ToF1.output

/-- **In a cycle each lane goes through steps.** -/
theorem lane_evaluate (hp : p.Sound c m) (ht : t.toNat < c.host.threads.toNat)
    (hfresh : ∀ x, ordinal x ≤ p.stats.cycles → fresh (x + 1)) (now : Nat) (h : History) :
    Lane.Steps (c.track m fresh t) (p.lane h t)
      ((p.evaluate now).pipeline.lane { h with
        retired := h.retired ++ (p.evaluate now).retired
        overtaken := h.overtaken ++ p.overtaken } t) := by
  obtain ⟨hholds, hretired⟩ := evaluate_holds hp.waiting hp.unitMode now
  rw [lane, lane, hholds.stages, hholds.registers, hretired]
  exact laneOf_evaluate (hp.polled now) hp.registers ht hfresh (p.stats.cycles + 1) h

/-! ## Calls of the host -/

theorem Sound.wakeFetch (hp : p.Sound c m) (t : UInt32) : (p.wakeFetch t).1.Sound c m :=
  ⟨{ hp.stages with lineFetch := hp.stages.lineFetch.wake t }, hp.registers, hp.waiting,
    hp.unitMode⟩

theorem Sound.wakeAll (ts : List UInt32) : ∀ {p : Pipeline Stages}, p.Sound c m →
    (p.wakeAll ts).1.Sound c m :=
  wakeAll_induction (fun _ t hp => hp.wakeFetch t) ts

theorem Sound.drain (hp : p.Sound c m) : p.drain.1.Sound c m := by
  have hstages : (StageSet.drain p.stages).Sound c m p.stats.cycles :=
    { hp.stages with execute := hp.stages.execute.mark true true }
  unfold Pipeline.drain
  simp only
  split <;> exact ⟨hstages, hp.registers, hp.waiting, hp.unitMode⟩

theorem Sound.resume (hp : p.Sound c m) (n : Nat) : (p.resume n).1.Sound c m := by
  have hwoken := Sound.wakeAll (threadNumbers n) hp
  exact ⟨{ hwoken.stages with execute := hwoken.stages.execute.mark false false }, hwoken.registers,
    hwoken.waiting, hwoken.unitMode⟩

/-- The thread of a lane, as the line fetch has it. -/
theorem Sound.thread? (hp : p.Sound c m) (ht : t.toNat < c.host.threads.toNat) (h : History) :
    p.stages.lineFetch.thread? t = some (p.lane h t).fetch := by
  have hth := List.getElem?_eq_getElem (hp.stages.lineFetch.length.symm ▸ ht)
  rw [lane, laneOf, show p.stages.lineFetch.thread? t = _ from hth]
  rfl

/-- The thread of a lane, as execute has it. -/
theorem Sound.exec? (hp : p.Sound c m) (ht : t.toNat < c.host.threads.toNat) (h : History) :
    p.stages.execute.threads[t.toNat]? = some (p.lane h t).exec := by
  have hth := List.getElem?_eq_getElem (hp.stages.execute.length.symm ▸ ht)
  rw [lane, laneOf, hth]
  rfl

/-- The numbers that are expected of a lane, as the slicer has them. -/
theorem Sound.expected? (hp : p.Sound c m) (ht : t.toNat < c.host.threads.toNat) (h : History) :
    p.stages.slicer.expected[t.toNat]? = some (p.lane h t).expected := by
  have hth := List.getElem?_eq_getElem (hp.stages.slicer.length.symm ▸ ht)
  rw [lane, laneOf, hth]
  rfl

/-- A thread that is woken fetches, and is otherwise as it was. -/
theorem lane_wakeFetch_self (hp : p.Sound c m) (ht : t.toNat < c.host.threads.toNat) (h : History) :
    (p.wakeFetch t).1.lane { h with woken := h.woken ++ [t] } t = (p.lane h t).woken := by
  have hpending : linesOf t (p.stages.slicer.waiting ++ p.registers.f1ToF2.held) ++
      LineFetch.pendingOf t (p.stages.lineFetch.wake t).1.pending = (p.lane h t).lines := by
    rw [LineFetch.pending_wake]
    rfl
  have hfetch : ((p.stages.lineFetch.wake t).1.thread? t).getD
      ⟨.halted, 0, firstSeq, firstSeq⟩ = { (p.lane h t).fetch with state := .running } := by
    rw [LineFetch.thread?_wake_self (hp.thread? ht h)]
    rfl
  have hwakes : (h.woken ++ [t]).count t = h.woken.count t + 1 := by simp
  exact Lane.ext rfl rfl rfl rfl hpending hfetch rfl rfl rfl hwakes

/-- To wake a thread does not touch the lanes of the others. -/
theorem lane_wakeFetch_eq (hp : p.Sound c m) (ht : t.toNat < c.host.threads.toNat) (t' : UInt32)
    (h : History) : (p.wakeFetch t').1.lane { h with woken := h.woken ++ [t'] } t =
      if t' = t then (p.lane h t).woken else p.lane h t := by
  by_cases heq : t' = t
  · subst heq
    rw [if_pos rfl, lane_wakeFetch_self hp ht h]
  · have hpending : linesOf t (p.stages.slicer.waiting ++ p.registers.f1ToF2.held) ++
        LineFetch.pendingOf t (p.stages.lineFetch.wake t').1.pending = (p.lane h t).lines := by
      rw [LineFetch.pending_wake]
      rfl
    have hfetch : ((p.stages.lineFetch.wake t').1.thread? t).getD
        ⟨.halted, 0, firstSeq, firstSeq⟩ = (p.lane h t).fetch := by
      rw [LineFetch.thread?_wake_of_ne heq]
      rfl
    have hwakes : (h.woken ++ [t']).count t = h.woken.count t := by
      rw [List.count_append, List.count_cons_of_ne heq]
      rfl
    rw [if_neg heq]
    exact Lane.ext rfl rfl rfl rfl hpending hfetch rfl rfl rfl hwakes

/-- **To wake threads wakes the thread of a lane as often as it is among them.** -/
theorem lane_wakeAll_eq (ht : t.toNat < c.host.threads.toNat) (ts : List UInt32) :
    ∀ {p : Pipeline Stages} (h : History), p.Sound c m →
      (p.wakeAll ts).1.lane { h with woken := h.woken ++ ts } t =
        Lane.woken^[ts.count t] (p.lane h t) := by
  induction ts with
  | nil =>
    intro p h hp
    rw [List.append_nil]
    rfl
  | cons t' ts ih =>
    intro p h hp
    have hrest := ih { h with woken := h.woken ++ [t'] } (hp.wakeFetch t')
    rw [List.append_assoc, lane_wakeFetch_eq hp ht t' h] at hrest
    refine hrest.trans ?_
    by_cases heq : t' = t
    · subst heq
      rw [if_pos rfl, List.count_cons_self, Function.iterate_succ_apply]
    · rw [if_neg heq, List.count_cons_of_ne heq]

theorem lane_wakeAll {k : Track} (ht : t.toNat < c.host.threads.toNat) (ts : List UInt32)
    {p : Pipeline Stages} (h : History) (hp : p.Sound c m) :
    Lane.Steps k (p.lane h t) ((p.wakeAll ts).1.lane { h with woken := h.woken ++ ts } t) := by
  rw [lane_wakeAll_eq ht ts h hp]
  exact Lane.steps_woken _ _

/-- To wake a thread is a step of its lane, and does not touch the others. -/
theorem lane_wakeFetch {k : Track} (hp : p.Sound c m) (ht : t.toNat < c.host.threads.toNat)
    (t' : UInt32) (h : History) :
    Lane.Steps k (p.lane h t) ((p.wakeFetch t').1.lane { h with woken := h.woken ++ [t'] } t) :=
  lane_wakeAll ht [t'] h hp

/-- A drain asks every thread for a halt. -/
theorem lane_drain (hp : p.Sound c m) (ht : t.toNat < c.host.threads.toNat) (h : History) :
    p.drain.1.lane h t = (p.lane h t).pend true := by
  have hexec := Execute.getElem?_mark hp.stages.execute ht true ⟨firstSeq, 0, false⟩
  unfold drain
  simp only
  split <;> exact Lane.ext rfl hexec rfl rfl rfl rfl rfl rfl rfl rfl

/-- A resumption wakes threads, and asks for no halts. -/
theorem lane_resume_eq (hp : p.Sound c m) (ht : t.toNat < c.host.threads.toNat) (n : Nat)
    (h : History) :
    (p.resume n).1.lane h t = ((p.wakeAll (threadNumbers n)).1.lane h t).pend false := by
  have hwoken := Sound.wakeAll (threadNumbers n) hp
  have hexec := Execute.getElem?_mark hwoken.stages.execute ht false ⟨firstSeq, 0, false⟩
  exact Lane.ext rfl hexec rfl rfl rfl rfl rfl rfl rfl rfl

/-- A resumption wakes the thread of a lane, and asks for no halts. -/
theorem lane_resume {k : Track} (hp : p.Sound c m) (ht : t.toNat < c.host.threads.toNat) (n : Nat)
    (h : History) :
    ∃ v, Lane.Steps k (p.lane h t) v ∧
      (p.resume n).1.lane { h with woken := h.woken ++ threadNumbers n } t = v.pend false :=
  ⟨_, lane_wakeAll ht (threadNumbers n) h hp, lane_resume_eq hp ht n _⟩

/-- A thread that is woken runs, and goes on running while others are woken. -/
theorem running_wakeAll (ht : t.toNat < c.host.threads.toNat) (h : History) (ts : List UInt32) :
    ∀ {p : Pipeline Stages}, p.Sound c m → t ∈ ts ∨ (p.lane h t).fetch.state = .running →
      ((p.wakeAll ts).1.lane h t).fetch.state = .running := by
  induction ts with
  | nil => exact fun _ hruns => hruns.resolve_left (by simp)
  | cons t' ts ih =>
    intro p hp hruns
    refine ih (hp.wakeFetch t') ?_
    have hself := hp.thread? ht h
    have hwoken := (hp.wakeFetch t').thread? ht h
    by_cases heq : t' = t
    · subst heq
      refine .inr ?_
      have hwake : (p.wakeFetch t').1.stages.lineFetch.thread? t' = some _ :=
        LineFetch.thread?_wake_self hself
      show ((p.wakeFetch t').1.lane h t').fetch.state = .running
      rw [← Option.some.inj (hwake.symm.trans hwoken)]
    · rcases hruns with hmem | hruns
      · exact .inl ((List.mem_cons.mp hmem).resolve_left (Ne.symm heq))
      · refine .inr ?_
        have hwake : (p.wakeFetch t').1.stages.lineFetch.thread? t = _ :=
          LineFetch.thread?_wake_of_ne heq p.stages.lineFetch
        show ((p.wakeFetch t').1.lane h t).fetch.state = .running
        rw [← Option.some.inj ((hwake.trans hself).symm.trans hwoken)]
        exact hruns

end Pipeline

end InOrder
