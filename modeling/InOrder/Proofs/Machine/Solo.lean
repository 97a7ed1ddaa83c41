import InOrder.Proofs.Lane.UpTo
import InOrder.Proofs.Machine.Clearing
import InOrder.Proofs.Machine.Counted

/-!
# Machines with one thread

With one thread nothing is lost to the redirect of another, and what the stages hold of threads is
what the lane of the one thread says. `Machine.Solo` is a machine whose thread is on its course up
to the word that suspends it. While its numbers do not come round a cycle keeps it so
(`Machine.Solo.next`), and issues something or leaves everything in the units as it was
(`Machine.Solo.kept_of_issued`).
-/

namespace InOrder

open Filter

namespace Machine

variable {c : Config} {m : Image} {b d e : Nat} {x : Machine}

/-- **While its numbers do not come round, a lane goes through steps that give none out twice.** -/
theorem lane_next_of_fresh (h : x.Sound c m (UInt64.size - 2)) {t : UInt32}
    (ht : t.toNat < c.host.threads.toNat) :
    Lane.Steps (c.track m (· ≠ firstSeq) t) (x.lane t) (x.next.lane t) :=
  lane_next h ht fun _ hy => add_one_ne_firstSeq hy (by decide)

/-- The one thread of the machine is on its course up to instruction `e`, where it is suspended.
Before, `d` halts were asked for. -/
structure Solo (c : Config) (m : Image) (e d : Nat) (x : Machine) : Prop where
  one : c.host.threads.toNat = 1
  suspends : m.SuspendsAt e
  whole : (c.track m (· ≠ firstSeq) 0).Whole
  sound : x.Sound c m (UInt64.size - 2)
  counted : x.Counted d
  few : d + (e + 1) ≤ UInt64.size - 2
  sized : x.stages.Sized
  free : x.stages.execute.draining = false
  overtaken : (x.lane 0).overtaken = []
  course : (x.lane 0).OnCourse (c.track m (· ≠ firstSeq) 0) e

/-- With one thread no prediction is passed over for a redirect of another. -/
theorem overtaken_next (h : x.Sound c m b) (hone : c.host.threads.toNat = 1) :
    (x.next.lane 0).overtaken = (x.lane 0).overtaken := by
  have hnone : redirectsOf 0 (overtakenBy x.registers.eToF1.output x.registers.f2ToF1.output) =
      [] := by
    cases hlive : Payload.isBubble x.registers.eToF1.output with
    | true => rw [overtakenBy, Redirect.not_isLive hlive, if_neg (by simp), redirectsOf_nil]
    | false =>
      have hthread := (h.sent hlive).thread
      rw [hone] at hthread
      refine redirectsOf_overtakenBy_eq_nil (.inl (UInt32.toNat_inj.mp ?_))
      exact Nat.lt_one_iff.mp hthread
  show (redirectsOf 0 (x.history.overtaken ++ _)).map _ = _
  rw [redirectsOf_append, hnone, List.append_nil]
  rfl

namespace Solo

theorem lt (h : x.Solo c m e d) : (0 : UInt32).toNat < c.host.threads.toNat :=
  zero_lt_of_one h.one

theorem unwrapped (h : x.Solo c m e d) : x.Unwrapped := h.sound.stages.slicer.bound

theorem course_next (h : x.Solo c m e d) :
    (x.next.lane 0).OnCourse (c.track m (· ≠ firstSeq) 0) e :=
  h.course.steps (fun _ hx => hx) h.whole h.suspends (lane_next_of_fresh h.sound h.lt) rfl

theorem counted_next (h : x.Solo c m e d) : x.next.Counted d := h.counted.next h.sound h.one

/-- **A cycle leaves the thread on its course**, if the numbers of predictions do not come round. -/
theorem next (h : x.Solo c m e d) (hx : x.next.Unwrapped) : x.next.Solo c m e d where
  one := h.one
  suspends := h.suspends
  whole := h.whole
  sound := h.sound.next.of_unwrapped h.one h.counted_next hx
    (Nat.le_trans (Nat.add_le_add_left h.course_next.upTo.issued_le d) h.few)
  counted := h.counted_next
  few := h.few
  sized := sized_next h.sized
  free := (x.polled.settings_evaluate (x.cycles + 1) x.registers.dToE.output).1.trans h.free
  overtaken := (overtaken_next h.sound h.one).trans h.overtaken
  course := h.course_next

/-- They do not where there is room for few bundles. -/
theorem unwrapped_next (h : x.Solo c m e d)
    (hroom : e + 1 + x.stages.room x.registers + x.registers.eToF1.row.length ≤ UInt64.size - 2) :
    x.next.Unwrapped := by
  refine h.counted_next.unwrapped h.sound.next h.one ?_
  have hissued := h.course_next.upTo.issued_le
  rw [room_next, length_row_next]
  omega

/-! ## The one thread in the stages -/

theorem exec_eq (h : x.Solo c m e d) : x.stages.execute.threads = [(x.lane 0).exec] :=
  h.sound.exec_eq h.one

theorem fetch_eq (h : x.Solo c m e d) : x.stages.lineFetch.threads = [(x.lane 0).fetch] :=
  eq_singleton (h.sound.stages.lineFetch.length.trans h.one) (h.sound.thread? h.lt)

theorem expected_eq (h : x.Solo c m e d) : x.stages.slicer.expected = [(x.lane 0).expected] :=
  h.sound.expected_eq h.one

/-- Without predictions on their way none is owed, and the slicer expects what is asked for. -/
theorem owed_eq_zero (h : x.Solo c m e d) (hnone : x.registers.f2ToF1.held = []) :
    (x.lane 0).owed = 0 := by
  have hpredictions : (x.lane 0).predictions = [] := by
    show redirectsOf 0 x.registers.f2ToF1.held = []
    rw [hnone, redirectsOf_nil]
  rw [Lane.owed, hpredictions, h.overtaken, List.countP_nil, List.count_nil]

/-- There is no other thread than the one. -/
theorem eq_zero (h : x.Solo c m e d) {t : UInt32} (ht : t.toNat < c.host.threads.toNat) : t = 0 := by
  rw [h.one] at ht
  exact UInt32.toNat_inj.mp (Nat.lt_one_iff.mp ht)

/-- **A cycle in which the thread gets no further issues nothing.** -/
theorem kept_of_issued (h : x.Solo c m e d)
    (hsame : (x.next.lane 0).issued.length = (x.lane 0).issued.length) :
    x.executed.stage.units = x.polled.kept (x.cycles + 1) := by
  obtain ⟨started, hstarted⟩ := x.polled.kept_prefix (x.cycles + 1) x.registers.dToE.output
  have hran := ran_next (x := x) hstarted.symm
  have hunits : ∀ f ∈ started, f.thread.toNat < c.host.threads.toNat := by
    intro f hf
    refine h.sound.next.stages.execute.units f ?_
    show f ∈ (x.polled.evaluate (x.cycles + 1) x.registers.dToE.output).stage.units
    rw [← hstarted]
    exact List.mem_append_right _ hf
  have hone : ∀ r ∈ started.map InFlight.retired, r.thread = 0 := by
    intro r hr
    obtain ⟨f, hf, rfl⟩ := List.mem_map.mp hr
    exact h.eq_zero (hunits f hf)
  rw [issued_lane, issued_lane, hran, trail_append, List.length_append, trail_eq_map hone,
    List.length_map, List.length_map] at hsame
  have hnone : started = [] := List.length_eq_zero_iff.mp (by omega)
  rw [executed, ← hstarted, hnone, List.append_nil]

/-- If nothing is issued, execute is as it was, and sends nothing. -/
theorem of_kept (h : x.Solo c m e d)
    (hkept : x.executed.stage.units = x.polled.kept (x.cycles + 1)) :
    x.next.stages.execute.threads = x.stages.execute.threads ∧ x.executed.redirect = none := by
  obtain ⟨hthreads, hredirect⟩ := Execute.of_kept hkept
  have hnone : x.polled.haltNext = (x.polled, none) := by
    refine Execute.haltNext_of_none fun th hth => ?_
    have hmem : th ∈ x.stages.execute.threads := hth
    rw [h.exec_eq, List.mem_singleton] at hmem
    rw [hmem]
    exact h.course.upTo.pending
  rw [hnone] at hthreads hredirect
  exact ⟨hthreads, hredirect⟩

end Solo

end Machine

end InOrder
