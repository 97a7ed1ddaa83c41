import InOrder.Proofs.Stage.LineFetch
import InOrder.Stage.Decode

/-!
# What the first and the third stage pass on

The line fetch asks for a line whenever none is in flight and a thread runs, and for none if no
thread runs (`LineFetch.pending_of_running`, `LineFetch.requestNext_of_stopped`). Decode passes on
its oldest bundle in each cycle in which it has room (`Decode.evaluate_room`).
-/

namespace InOrder

namespace LineFetch

variable {n : Nat} {m : Image} {bytes : UInt64} {s : LineFetch} {k : Track} {cycle : Nat}
  {branch prediction : Redirect}

/-! ## Which thread is picked -/

theorem pick_eq_none (h : ∀ th ∈ s.threads, th.state ≠ .running) : s.pick = none := by
  refine List.find?_eq_none.mpr fun t _ hrun => ?_
  obtain ⟨th, hth, hstate⟩ := isRunning_iff.mp hrun
  exact h th (List.mem_of_getElem? hth) hstate

/-- All threads have their turn. -/
theorem mem_turns {turn n t : Nat} (ht : t < n) :
    t ∈ (List.range n).map fun i => (turn + i) % n := by
  have hlt : turn % n < n := Nat.mod_lt _ (Nat.zero_lt_of_lt ht)
  refine List.mem_map.mpr ⟨(t + (n - turn % n)) % n,
    List.mem_range.mpr (Nat.mod_lt _ (Nat.zero_lt_of_lt ht)), ?_⟩
  rw [Nat.add_mod_mod, ← Nat.mod_add_mod,
    show turn % n + (t + (n - turn % n)) = t + n by omega, Nat.add_mod_right, Nat.mod_eq_of_lt ht]

theorem pick_isSome {t : Nat} (h : s.isRunning t = true) : s.pick.isSome = true := by
  obtain ⟨th, hth, -⟩ := isRunning_iff.mp h
  exact List.find?_isSome.mpr ⟨t, mem_turns (List.getElem?_eq_some_iff.mp hth).1, h⟩

theorem lt_of_pick {t : Nat} (h : s.pick = some t) : t < s.threads.length := by
  obtain ⟨i, hi, rfl⟩ := List.mem_map.mp (List.mem_of_find?_eq_some h)
  exact Nat.mod_lt _ (Nat.zero_lt_of_lt (List.mem_range.mp hi))

/-! ## What is asked for -/

theorem requestNext_of_pending {p : PendingLine} (h : s.pending = some p) (cycle : Nat) :
    (s.requestNext cycle).1 = s := by
  rw [requestNext, h]

/-- **Where no thread runs no line is asked for.** -/
theorem requestNext_of_stopped (h : ∀ th ∈ s.threads, th.state ≠ .running) (cycle : Nat) :
    (s.requestNext cycle).1 = s := by
  unfold requestNext
  split
  · rfl
  · rw [pick_eq_none h]

/-- With no line in flight the next one is asked for, for the thread that is picked. -/
theorem requestNext_of_pick (hnone : s.pending = none) {t : Nat} (hpick : s.pick = some t)
    (cycle : Nat) : ∃ th, s.threads[t]? = some th ∧ th.state = .running ∧
      s.requestNext cycle = (s.request t th cycle, [th.pc]) := by
  have hth := List.getElem?_eq_getElem (lt_of_pick hpick)
  refine ⟨_, hth, running_of_pick hpick hth, ?_⟩
  simp only [requestNext, hnone, hpick, hth]

/-- The line that is asked for is that of a thread that runs. -/
theorem requestNext_of_none (hnone : s.pending = none) {t : Nat} {th : FetchThread}
    (hth : s.threads[t]? = some th) (hrun : th.state = .running) (cycle : Nat) :
    ∃ t' th', s.threads[t']? = some th' ∧
      (s.requestNext cycle).1 = s.request t' th' cycle := by
  have hruns : s.isRunning t = true := isRunning_iff.mpr ⟨th, hth, hrun⟩
  obtain ⟨t', hpick⟩ := Option.isSome_iff_exists.mp (pick_isSome hruns)
  obtain ⟨th', hth', -, hrequest⟩ := requestNext_of_pick hnone hpick cycle
  exact ⟨t', th', hth', congrArg Prod.fst hrequest⟩

/-- **After a cycle a line is in flight if a thread runs.** -/
theorem pending_of_running {t : Nat} {th : FetchThread} (hth : s.threads[t]? = some th)
    (hrun : th.state = .running) (cycle : Nat) : (s.requestNext cycle).1.pending ≠ none := by
  cases hpending : s.pending with
  | some p =>
    rw [requestNext_of_pending hpending, hpending]
    exact Option.some_ne_none p
  | none =>
    obtain ⟨t', th', -, hrequest⟩ := requestNext_of_none hpending hth hrun cycle
    rw [hrequest]
    exact Option.some_ne_none _

theorem pending_request (himage : s.image = k.image) (hbytes : s.lineBytes = k.lineBytes) {t : Nat}
    (ht : UInt32.ofNat t = k.thread) (th : FetchThread) (cycle : Nat) :
    (s.request t th cycle).pending = some ⟨cycle + s.latency, th.line k⟩ := by
  rw [request, FetchThread.line, FetchThread.lineBase, ht, himage, hbytes]

/-- To ask for a line changes where a thread goes on, and nothing else of it. -/
theorem map_requestNext {β : Type} {f : FetchThread → β} (hf : ∀ th pc, f { th with pc } = f th)
    (s : LineFetch) (cycle : Nat) (t : UInt32) :
    ((s.requestNext cycle).1.thread? t).map f = (s.thread? t).map f := by
  unfold requestNext
  split
  · rfl
  split
  · rfl
  rename_i t' hpick
  split
  · rfl
  rename_i th hth
  show ((s.threads.set t' _)[t.toNat]?).map f = (s.threads[t.toNat]?).map f
  by_cases heq : t' = t.toNat
  · subst heq
    rw [List.getElem?_set_self (List.getElem?_eq_some_iff.mp hth).1, hth, Option.map_some, hf,
      Option.map_some]
  · rw [List.getElem?_set_ne heq]

/-- **If no line is in flight after a cycle, no thread runs.** -/
theorem stopped_of_pending {room : Bool}
    (h : (s.evaluate cycle branch prediction room).stage.pending = none) {t : UInt32}
    {th : FetchThread}
    (hth : (s.evaluate cycle branch prediction room).stage.thread? t = some th) :
    th.state ≠ .running := by
  intro hrun
  rw [stage_evaluate] at h hth
  have hstate := map_requestNext (f := (·.state)) (fun _ _ => rfl)
    ((s.redirect branch prediction).1.deliver cycle room).1 cycle t
  rw [hth, Option.map_some, hrun] at hstate
  obtain ⟨th', hth', hrun'⟩ := Option.map_eq_some_iff.mp hstate.symm
  exact pending_of_running hth' hrun' cycle h

/-- The line fetch does not work in a cycle if it sends no line and none is in flight. -/
theorem busy_eq_false_iff (s : LineFetch) (cycle : Nat) (branch prediction : Redirect)
    (room : Bool) :
    (s.evaluate cycle branch prediction room).busy = false ↔
      (s.evaluate cycle branch prediction room).line = none ∧
        (s.evaluate cycle branch prediction room).stage.pending = none := by
  have hbusy : (s.evaluate cycle branch prediction room).busy =
      ((s.evaluate cycle branch prediction room).line.isSome ||
        (s.evaluate cycle branch prediction room).stage.pending.isSome) := rfl
  rw [hbusy]
  simp only [Bool.or_eq_false_iff, Option.isSome_eq_false_iff, Option.isNone_iff_eq_none]

/-! ## A cycle in which nothing arrives -/

/-- Without redirect and prediction a line that is not due, or not wanted, stays in flight. -/
theorem evaluate_of_waiting {room : Bool} (hb : Payload.isBubble branch = true)
    (hp : Payload.isBubble prediction = true) {p : PendingLine} (hpending : s.pending = some p)
    (hwait : ¬ (p.readyAt ≤ cycle ∧ room = true)) :
    (s.evaluate cycle branch prediction room).stage = s ∧
      (s.evaluate cycle branch prediction room).line = none := by
  have hdeliver : s.deliver cycle room = (s, none) := by
    rw [deliver, hpending]
    exact if_neg hwait
  rw [stage_evaluate, line_evaluate, redirect_of_bubbles hb hp, hdeliver]
  exact ⟨requestNext_of_pending hpending cycle, rfl⟩

/-- A line that is due and wanted goes out, and the next one is asked for. -/
theorem evaluate_of_due (hb : Payload.isBubble branch = true)
    (hp : Payload.isBubble prediction = true) {p : PendingLine} (hpending : s.pending = some p)
    (hdue : p.readyAt ≤ cycle) :
    (s.evaluate cycle branch prediction true).stage =
        (({ s with pending := none, port := s.port.respond } : LineFetch).requestNext cycle).1 ∧
      (s.evaluate cycle branch prediction true).line = some p.line := by
  have hdeliver : s.deliver cycle true =
      ({ s with pending := none, port := s.port.respond }, some p.line) := by
    rw [deliver, hpending]
    exact if_pos ⟨hdue, rfl⟩
  rw [stage_evaluate, line_evaluate, redirect_of_bubbles hb hp, hdeliver]
  exact ⟨rfl, rfl⟩

/-- A prediction for a thread that does not run is without effect. -/
theorem redirect_of_stopped (hb : Payload.isBubble branch = true)
    (h : ∀ th ∈ s.threads, th.state ≠ .running) (prediction : Redirect) :
    (s.redirect branch prediction).1 = s := by
  rw [redirect, Redirect.not_isLive hb, if_neg Bool.false_ne_true]
  split
  · unfold applyPrediction
    split
    · rfl
    · rename_i th hth
      exact if_neg fun hruns => h th (List.mem_of_getElem? hth) hruns.1
  · rfl

/-- **If no thread runs and no redirect arrives, the line in flight goes out when it is due**, and
nothing else happens. -/
theorem evaluate_of_stopped (hb : Payload.isBubble branch = true)
    (h : ∀ th ∈ s.threads, th.state ≠ .running) (cycle : Nat) (prediction : Redirect)
    (room : Bool) :
    (s.evaluate cycle branch prediction room).stage = (s.deliver cycle room).1 ∧
      (s.evaluate cycle branch prediction room).line = (s.deliver cycle room).2 := by
  rw [stage_evaluate, line_evaluate, redirect_of_stopped hb h prediction]
  exact ⟨requestNext_of_stopped ((s.threads_deliver cycle room).symm ▸ h) cycle, rfl⟩

end LineFetch

namespace Decode

/-- **With room decode passes on its oldest bundle.** -/
theorem evaluate_room (s : Decode) (b : Bundle) :
    (s.evaluate b true).bundle = (s.input.entries ++ present [b]).head? ∧
      (s.evaluate b true).stage.input.entries = (s.input.entries ++ present [b]).tail := by
  rw [← Queue.entries_push]
  simp only [evaluate, Queue.pop, if_true]
  cases hentries : (s.input.push b).entries with
  | nil => exact ⟨rfl, by rw [hentries]; rfl⟩
  | cons b' rest => exact ⟨rfl, rfl⟩

/-- Decode does not work in a cycle if it passes no bundle on and keeps none. -/
theorem busy_eq_false_iff (s : Decode) (b : Bundle) (room : Bool) :
    (s.evaluate b room).busy = false ↔
      (s.evaluate b room).bundle = none ∧ (s.evaluate b room).stage.input.entries = [] := by
  have hbusy : (s.evaluate b room).busy = ((s.evaluate b room).bundle.isSome ||
      !(s.evaluate b room).stage.input.isEmpty) := rfl
  rw [hbusy]
  simp only [Queue.isEmpty, Bool.or_eq_false_iff, Option.isSome_eq_false_iff,
    Option.isNone_iff_eq_none, Bool.not_eq_eq_eq_not, Bool.not_false, List.isEmpty_iff]

/-- A cycle does not touch the size of the queue. -/
theorem capacity_evaluate (s : Decode) (b : Bundle) (room : Bool) :
    (s.evaluate b room).stage.input.capacity = s.input.capacity := by
  have hpush : (s.input.push b).capacity = s.input.capacity := by
    unfold Queue.push
    split <;> rfl
  cases room with
  | false => exact hpush
  | true =>
    simp only [evaluate, Queue.pop, if_true]
    split <;> exact hpush

end Decode

end InOrder
