import InOrder.Proofs.Machine.Rest
import InOrder.Proofs.Machine.Solo

/-!
# Machines with one thread make progress

A machine that is never stopped, and whose one thread is on its course up to the word that suspends
it, does not wait forever for its next instruction. Suppose that from some cycle on nothing is
issued (`Machine.Stuck`). Then nothing is sent to the line fetch; what waits for issue is stale, or
it would be issued; so nothing is cut, for it would come to execute and not be stale; and the queues
and registers clear. If the thread still fetched, its next line would come to the slicer, and would
be cut (`Machine.Stuck.stopped`). So it does not fetch, and the machine comes to rest.

* `Machine.Solo.eventually_idle`: from some cycle on the machine does not work.
-/

namespace InOrder

open Filter

/-- What only grows, and not past a bound, stays the same from some point on. -/
theorem eventually_const {f : Nat → Nat} {b : Nat} (hmono : ∀ k, f k ≤ f (k + 1))
    (hle : ∀ k, f k ≤ b) : ∃ n, ∀ᶠ k in atTop, f k = n := by
  classical
  -- the greatest value that is taken stays
  obtain ⟨a, ha⟩ : ∃ k, f k = Nat.findGreatest (fun n => ∃ k, f k = n) b :=
    Nat.findGreatest_spec (P := fun n => ∃ k, f k = n) (hle 0) ⟨0, rfl⟩
  refine ⟨_, eventually_atTop.mpr ⟨a, fun k hk => Nat.le_antisymm ?_ (ha.symm.trans_le ?_)⟩⟩
  · exact Nat.le_findGreatest (hle k) ⟨k, rfl⟩
  · exact monotone_nat_of_le_succ hmono hk

namespace Machine

variable {c : Config} {m : Image} {d e n : Nat} {x : Machine}

/-- The thread of the machine is on its course at all times, and gets no further. -/
def Stuck (c : Config) (m : Image) (e d n : Nat) (x : Machine) : Prop :=
  ∀ k, (x.after k).Solo c m e d ∧ ((x.after k).lane 0).issued.length = n

/-- **The thread gets no further from some cycle on**, since it gets to instruction `e` at most. -/
theorem Solo.eventually_stuck (h : ∀ k, (x.after k).Solo c m e d) :
    ∃ n a, (x.after a).Stuck c m e d n := by
  have hmono : ∀ k, ((x.after k).lane 0).issued.length ≤
      ((x.after (k + 1)).lane 0).issued.length := by
    intro k
    have hsteps := lane_next_of_fresh (h k).sound (h k).lt
    rw [after_succ]
    exact hsteps.issued_prefix.length_le
  obtain ⟨n, hn⟩ := eventually_const hmono fun k => (h k).course.upTo.issued_le
  obtain ⟨a, ha⟩ := eventually_atTop.mp hn
  refine ⟨n, a, fun k => ?_⟩
  rw [after_after]
  exact ⟨h (a + k), ha (a + k) (Nat.le_add_right a k)⟩

namespace Stuck

theorem later (h : x.Stuck c m e d n) (a : Nat) : (x.after a).Stuck c m e d n := by
  intro k
  rw [after_after]
  exact h (a + k)

theorem sized (h : x.Stuck c m e d n) : x.stages.Sized := (h 0).1.sized

/-! ## Execute -/

/-- Nothing is issued. -/
theorem kept (h : x.Stuck c m e d n) (k : Nat) :
    (x.after k).executed.stage.units = (x.after k).polled.kept ((x.after k).cycles + 1) := by
  refine (h k).1.kept_of_issued ?_
  rw [← after_succ, (h (k + 1)).2, (h k).2]

/-- Execute stays as it is, but for its queue and its units. -/
theorem threads (h : x.Stuck c m e d n) (k : Nat) :
    (x.after k).stages.execute.threads = x.stages.execute.threads := by
  induction k with
  | zero => rfl
  | succ k ih =>
    rw [after_succ, ((h k).1.of_kept (h.kept k)).1, ih]

theorem eventually_redirects (h : x.Stuck c m e d n) :
    ∀ᶠ k in atTop, (x.after k).registers.eToF1.held = [] :=
  x.runs_eToF1.eventually_held (h 0).1.sound.registers.redirects
    (.of_forall fun k => ((h k).1.of_kept (h.kept k)).2)

/-- **From some cycle on all that waits for issue is stale**, and is squashed at once. -/
theorem eventually_stale (h : x.Stuck c m e d n) :
    ∀ᶠ k in atTop, (x.after k).executed.stage.input.entries = [] ∧
      ∀ y ∈ (x.after k).polled.waiting ++ (x.after k).registers.dToE.output.tagged,
        Stale x.stages.execute.threads y := by
  have hunits : ∀ᶠ k in atTop, (x.after k).stages.execute.units = [] := by
    refine eventually_units (n := x.cycles) (a := 0) fun k _ => ?_
    rw [after_succ, ← cycles_after]
    exact h.kept k
  filter_upwards [hunits] with k hnone
  have hempty : (x.after k).polled.kept ((x.after k).cycles + 1) = [] := by
    show (x.after k).stages.execute.units.dropWhile _ = []
    rw [hnone]
    rfl
  have hroom : ((x.after k).polled.kept ((x.after k).cycles + 1)).length <
      (x.after k).polled.unitCount := by
    rw [hempty]
    exact (h k).1.sized.units
  obtain ⟨hqueued, hstale⟩ := Execute.stale_of_kept (h k).1.sound.polled.indexed (h.kept k)
    (h k).1.free hroom
  rw [← h.threads k]
  exact ⟨hqueued, hstale⟩

/-! ## The slicer -/

/-- A micro-op that is cut while no redirect is on its way is of the stream of execute. -/
theorem current_of_bundle (h : x.Stuck c m e d n) {k : Nat}
    (hnone : (x.after (k + 1)).registers.eToF1.held = []) {b : Bundle}
    (hb : (x.after k).sliced.bundle = some b) :
    ∃ y ∈ b.tagged, ¬ Stale x.stages.execute.threads y := by
  obtain ⟨hne, hstream⟩ := Slicer.stream_of_bundle (h k).1.sound.stages.slicer.entered
    (h k).1.sound.stages.slicer.width hb
  obtain ⟨y, hy⟩ := List.exists_mem_of_ne_nil _ hne
  obtain ⟨ex, hex, hseq⟩ := hstream y hy
  refine ⟨y, hy, fun hstale => ?_⟩
  have hexpected : (x.after (k + 1)).stages.slicer.expected[y.1.toNat]? = some ex := by
    rw [after_succ]
    exact hex
  rw [(h (k + 1)).1.expected_eq] at hexpected
  obtain ⟨hzero, rfl⟩ := List.getElem?_eq_some_iff.mp hexpected
  have hthread : y.1.toNat = 0 := Nat.lt_one_iff.mp hzero
  have hlane := (h (k + 1)).1.course.numbered
  have hredirects : ((x.after (k + 1)).lane 0).redirects = [] := by
    show redirectsOf 0 _ = []
    rw [hnone, redirectsOf_nil]
  refine hstale ((x.after (k + 1)).lane 0).exec ?_ ?_
  · rw [← h.threads (k + 1), (h (k + 1)).1.exec_eq, hthread]
    rfl
  · rw [hseq]
    simp only [hthread, List.getElem_cons_zero]
    exact hlane.stream.trans (hlane.stream_eq hredirects)

/-- **From some cycle on nothing is cut**, for it would come to execute and not be stale. -/
theorem eventually_uncut (h : x.Stuck c m e d n) :
    ∀ᶠ k in atTop, (x.after k).sliced.bundle = none := by
  obtain ⟨a, ha⟩ := eventually_atTop.mp h.eventually_stale
  obtain ⟨a', ha'⟩ := eventually_atTop.mp h.eventually_redirects
  refine eventually_atTop.mpr ⟨max a a', fun k hk => ?_⟩
  cases hb : (x.after k).sliced.bundle with
  | none => rfl
  | some b =>
    obtain ⟨y, hy, hcurrent⟩ := h.current_of_bundle (ha' (k + 1) (by omega)) hb
    have hlive : Payload.isBubble b = false := by
      cases hbubble : Payload.isBubble b with
      | false => rfl
      | true =>
        rw [Bundle.tagged_of_bubble hbubble] at hy
        exact absurd hy (by simp)
    -- the bundle comes to decode, is passed on in its turn, and comes to execute
    have hdecode := x.runs_f2ToD.arrives hb
    have hserves := serves_decode h.sized fun k hk => (ha k hk).1
    obtain ⟨j, hj, hserved⟩ := hserves.serves (b := b)
      (i := (x.after (k + (x.after 0).registers.f2ToD.row.length)).stages.decode.input.entries.length)
      (k := k + (x.after 0).registers.f2ToD.row.length) (by omega) (by
        rw [hdecode, present_singleton hlive, List.getElem?_concat_length])
    have hpassed : (x.after j).decoded.bundle = some b :=
      (decoded_of_queued (h j).1.sized (ha j (by omega)).1).1.trans hserved
    have hexecute := x.runs_dToE.arrives hpassed
    have hstale := (ha (j + (x.after 0).registers.dToE.row.length) (by omega)).2 y (by
      rw [hexecute]
      exact List.mem_append_right _ hy)
    exact absurd hstale hcurrent

/-- **From some cycle on all cycles are calm.** -/
theorem eventually_calm (h : x.Stuck c m e d n) : ∀ᶠ k in atTop, (x.after k).Calm := by
  filter_upwards [h.eventually_stale, h.eventually_uncut] with k hstale hnone
  have hslicer := (h k).1.sound.stages.slicer
  obtain ⟨hprediction, -⟩ := Slicer.quiet_of_none hslicer.entered hslicer.width hnone
  refine ⟨((h k).1.of_kept (h.kept k)).2, hstale.1, h.kept k, hnone, hprediction, fun hroom => ?_⟩
  unfold Machine.sliced at hnone ⊢
  rw [hroom] at hnone ⊢
  exact (Slicer.discarded_of_none hslicer.entered hslicer.width (h k).1.sized.width hnone).1

/-! ## The line fetch -/

/-- In a cleared machine the lane has no redirects and no micro-ops. -/
theorem of_cleared (h : x.Cleared) : (x.lane 0).redirects = [] ∧ (x.lane 0).ops = [] := by
  have hwaiting : x.stages.execute.waiting = [] := by
    rw [Execute.waiting, h.queued]
    rfl
  constructor
  · show redirectsOf 0 x.registers.eToF1.held = []
    rw [h.redirects, redirectsOf_nil]
  · show share 0 (_ ++ List.flatMap Bundle.tagged (_ ++ _ ++ _)) = []
    rw [hwaiting, h.decoded, h.bundles, h.cut]
    rfl

/-- What the thread asks for is at a word, since the course is. -/
theorem aligned (h : x.Stuck c m e d n) (hcleared : x.Cleared)
    (hruns : (x.lane 0).fetch.state = .running) : (x.lane 0).fetch.pc.toNat % 4 = 0 := by
  have hsolo := (h 0).1
  obtain ⟨hredirects, hops⟩ := of_cleared hcleared
  have hahead := hsolo.course.route.follows hredirects
  rw [Lane.currentOps, show (Machine.lane (x.after 0) 0).ops = [] from hops,
    List.filter_nil] at hahead
  have hchain := hahead.1 (hsolo.owed_eq_zero hcleared.predictions)
  have hle := hsolo.course.upTo.le_of_running hruns hredirects
  exact hchain.aligned hsolo.whole (hsolo.suspends.alignedFrom hle _ (.refl m _))
    fun l hl => hsolo.course.route.lines l (List.mem_filter.mp hl).1

/-- As long as only lines are on their way, the thread asks for lines of the same numbers. -/
theorem stamp_after (h : x.Stuck c m e d n) (hcleared : ∀ k, (x.after k).Cleared) {j k : Nat}
    (hjk : j ≤ k) : ((x.after k).lane 0).fetch.stamp = ((x.after j).lane 0).fetch.stamp := by
  induction k, hjk using Nat.le_induction with
  | base => rfl
  | succ k hjk ih =>
    have hbefore := (h k).1.sound.thread? (h k).1.lt
    have hafter := (h (k + 1)).1.sound.thread? (h (k + 1)).1.lt
    have hmap : ((x.after (k + 1)).stages.lineFetch.thread? 0).map FetchThread.stamp =
        ((x.after k).stages.lineFetch.thread? 0).map FetchThread.stamp := by
      rw [after_succ]
      show ((x.after k).fetched.stage.thread? 0).map FetchThread.stamp = _
      rw [fetched, LineFetch.stage_evaluate, LineFetch.map_requestNext (fun _ _ => rfl),
        LineFetch.thread?_deliver, LineFetch.redirect_of_bubbles
          (isBubble_output (hcleared k).redirects) (isBubble_output (hcleared k).predictions)]
    rw [hbefore, hafter] at hmap
    exact (Option.some.inj hmap).trans ih

/-- **If the thread fetches, it asks for a line** when the one in flight has gone out. -/
theorem asks (h : x.Stuck c m e d n) (hcleared : ∀ k, (x.after k).Cleared)
    (hruns : ∀ k, ((x.after k).lane 0).fetch.state = .running) :
    ∃ j p, (x.after (j + 1)).stages.lineFetch.pending = some p ∧
      p.line = ((x.after j).lane 0).fetch.line (c.track m (· ≠ firstSeq) 0) := by
  obtain ⟨p, hp⟩ : ∃ p, (x.after 1).stages.lineFetch.pending = some p := by
    refine Option.ne_none_iff_exists'.mp fun hnone => ?_
    exact LineFetch.stopped_of_pending hnone ((h 1).1.sound.thread? (h 1).1.lt) (hruns 1)
  obtain ⟨j, hj, hpending, hdue⟩ := eventually_due (a := 0) (fun k _ => hcleared k)
    (Nat.zero_le 1) hp
  have hstage := (LineFetch.evaluate_of_due (isBubble_output (hcleared j).redirects)
    (isBubble_output (hcleared j).predictions) hpending hdue).1
  rw [← (hcleared j).room] at hstage
  have hthread : (x.after j).stages.lineFetch.threads[0]? = some ((x.after j).lane 0).fetch :=
    (h j).1.sound.thread? (h j).1.lt
  obtain ⟨t, th, hth, hrequest⟩ := LineFetch.requestNext_of_none
    (s := { (x.after j).stages.lineFetch with
      pending := none, port := (x.after j).stages.lineFetch.port.respond })
    rfl hthread (hruns j) ((x.after j).cycles + 1)
  have hth' : (x.after j).stages.lineFetch.threads[t]? = some th := hth
  rw [(h j).1.fetch_eq] at hth'
  obtain ⟨hzero, rfl⟩ := List.getElem?_eq_some_iff.mp hth'
  obtain rfl : t = 0 := Nat.lt_one_iff.mp hzero
  have hsound := (h j).1.sound.stages.lineFetch
  have hpending' : (x.after (j + 1)).stages.lineFetch.pending =
      some ⟨(x.after j).cycles + 1 + (x.after j).stages.lineFetch.latency,
        ((x.after j).lane 0).fetch.line (c.track m (· ≠ firstSeq) 0)⟩ := by
    rw [after_succ]
    show (x.after j).fetched.stage.pending = _
    rw [fetched, hstage, hrequest]
    exact LineFetch.pending_request (k := c.track m (· ≠ firstSeq) 0) hsound.image hsound.lineBytes
      rfl _ _
  exact ⟨j, _, hpending', rfl⟩

/-- What is in flight comes to the slicer. -/
theorem comes (hcleared : ∀ k, (x.after k).Cleared) {j : Nat} {p : PendingLine}
    (hp : (x.after j).stages.lineFetch.pending = some p) :
    ∃ k ≥ j, (x.after k).registers.f1ToF2.output = p.line := by
  obtain ⟨i, hi, hpending, hdue⟩ := eventually_due (a := 0) (fun k _ => hcleared k)
    (Nat.zero_le j) hp
  have hline := (LineFetch.evaluate_of_due (isBubble_output (hcleared i).redirects)
    (isBubble_output (hcleared i).predictions) hpending hdue).2
  rw [← (hcleared i).room] at hline
  exact ⟨_, Nat.le_add_right_of_le hi, x.runs_f1ToF2.arrives hline⟩

/-- **A thread that gets no further does not fetch.** If it did, its next line would be cut. -/
theorem stopped (h : x.Stuck c m e d n) (hcleared : ∀ k, (x.after k).Cleared)
    (huncut : ∀ k, (x.after k).sliced.bundle = none) :
    (x.lane 0).fetch.state ≠ .running := by
  intro hstart
  have hle := (h 0).1.course.upTo.le_of_running hstart (of_cleared (hcleared 0)).1
  have hruns : ∀ k, ((x.after k).lane 0).fetch.state = .running := by
    intro k
    rw [← Lane.UpTo.settled_eq (of_cleared (hcleared k)).1]
    refine (h k).1.course.upTo.goes ?_
    rw [(h k).2, ← (h 0).2]
    exact hle
  obtain ⟨j, p, hp, hline⟩ := h.asks hcleared hruns
  obtain ⟨k, hk, houtput⟩ := comes hcleared hp
  have hslicer := (h k).1.sound.stages.slicer
  have hroom : (x.after k).decoded.stage.input.hasRoom = true := by
    have hbundles := (hcleared (k + 1)).bundles
    rw [after_succ] at hbundles
    exact Queue.hasRoom_of_nil hbundles (sized_next (h k).1.sized).bundles
  have hnone := huncut k
  unfold Machine.sliced at hnone
  rw [hroom] at hnone
  have hbarren := (Slicer.discarded_of_none hslicer.entered hslicer.width (h k).1.sized.width
    hnone).2 p.line (by
      rw [houtput]
      refine List.mem_append_right _ (mem_present.mpr ⟨List.mem_singleton_self _, ?_⟩)
      rw [hline]
      exact Flag.isSet_clear)
  rw [followed_of_redirects (hcleared k).redirects, (h k).1.expected_eq, hline] at hbarren
  rcases hbarren _ rfl with hrefused | hempty
  · have hexpected := (h k).1.course.numbered.expected_eq
      ((h k).1.owed_eq_zero (hcleared k).predictions)
    rw [hexpected, h.stamp_after hcleared (show j ≤ k by omega)] at hrefused
    exact hrefused ⟨rfl, rfl⟩
  · exact Line.wordAt?_request (h 0).1.whole ((h.later j).aligned (hcleared j) (hruns j)) hempty

/-- **A machine whose thread gets no further comes to rest.** -/
theorem eventually_resting (h : x.Stuck c m e d n) : ∃ a, (x.after a).Resting := by
  obtain ⟨a, ha⟩ := eventually_atTop.mp
    ((eventually_cleared (h 0).1.sound h.sized h.eventually_calm).and h.eventually_uncut)
  refine ⟨a, resting_of_still (h a).1.sound fun t ht => ?_⟩
  rw [(h a).1.one, Nat.lt_one_iff] at ht
  obtain rfl : t = 0 := UInt32.toNat_inj.mp ht
  refine ⟨(h a).1.course.numbered, (h a).1.course.upTo.pending, ?_, ?_⟩
  · exact (of_cleared (ha a (Nat.le_refl a)).1).1
  · refine (h.later a).stopped (fun k => ?_) fun k => ?_
    · rw [after_after]
      exact (ha (a + k) (Nat.le_add_right a k)).1
    · rw [after_after]
      exact (ha (a + k) (Nat.le_add_right a k)).2

end Stuck

/-! ## Idleness -/

/-- **From some cycle on a machine with one thread does not work**, if it is never stopped. -/
theorem Solo.eventually_idle (h : ∀ k, (x.after k).Solo c m e d) :
    ∃ a, ∀ k ≥ a, (x.after k).busy = false := by
  obtain ⟨n, a, hstuck⟩ := Solo.eventually_stuck h
  obtain ⟨a', hrests⟩ := hstuck.eventually_resting
  rw [after_after] at hrests
  obtain ⟨a'', hidle⟩ := eventually_atTop.mp
    (hrests.eventually_idle (h (a + a')).sound (h (a + a')).sized)
  refine ⟨a + a' + a'', fun k hk => ?_⟩
  obtain ⟨j, rfl⟩ := Nat.exists_eq_add_of_le (show a + a' ≤ k by omega)
  rw [← after_after]
  exact hidle j (by omega)

/-- **A machine with one thread that has not worked in a cycle has come to the end of the course.**
All that was issued has retired, and the thread is suspended after the word that suspends it. -/
theorem Solo.ends (h : x.next.Solo c m e d) (hidle : x.busy = false) :
    x.next.stages.execute.units = [] ∧ (x.next.lane 0).issued.length = e + 1 ∧
      (x.next.lane 0).fetch.state = .suspended ∧
      (x.next.lane 0).fetch.pc = Isa.nextWord (m.pcAt e) := by
  obtain ⟨hexecuted, -, -, hfetched⟩ := (busy_eq_false_iff x).mp hidle
  obtain ⟨-, -, -, -, hunits⟩ := (Execute.busy_eq_false_iff ..).mp hexecuted
  obtain ⟨-, hpending⟩ := (LineFetch.busy_eq_false_iff ..).mp hfetched
  have hupTo := h.course.upTo
  have hstopped : (x.next.lane 0).fetch.state ≠ .running :=
    LineFetch.stopped_of_pending hpending (h.sound.thread? h.lt)
  have hredirects : (x.next.lane 0).redirects = [] := by
    cases hr : (x.next.lane 0).redirects with
    | nil => rfl
    | cons r rest => exact absurd (hupTo.runs (by rw [hr]; exact List.cons_ne_nil r rest)) hstopped
  have hsettled := Lane.UpTo.settled_eq hredirects
  have hend : (x.next.lane 0).issued.length = e + 1 := by
    refine Nat.le_antisymm hupTo.issued_le (Nat.lt_of_not_le fun hle => hstopped ?_)
    exact hsettled.symm.trans (hupTo.goes hle)
  have hroute := h.course.route
  have hpc : (x.next.lane 0).fetch.pc = m.pcAt (x.next.lane 0).issued.length :=
    (hroute.resumes h.course.numbered hredirects hstopped).1.trans hroute.nextPc
  rw [hend, h.suspends.pcAt_succ] at hpc
  exact ⟨hunits, hend, hsettled.symm.trans (hupTo.ends hend), hpc⟩

end Machine

end InOrder
