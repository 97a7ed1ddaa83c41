import InOrder.Proofs.Session

/-!
# What retires

The pipeline retires what an interpreter of one instruction at a time executes. Every thread retires
a first part of its course: no instruction is lost, repeated or taken from a wrong path, whatever
the delays, widths and sizes, with or without predictions, and whatever the host calls in between.
The counter and the signature are those of what retired.

* `Session.Reached.retires_course` says so of every session that calls lead to.
-/

namespace InOrder

variable {c : Config} {m : Image} {s : Session}

/-- What a lane issued is what its thread retired, and what is still in the units. -/
theorem Session.issued_lane (s : Session) (t : UInt32) :
    (s.lane t).issued = trail t s.history.retired ++
      trail t (s.pipeline.stages.execute.units.map InFlight.retired) := trail_append t _ _

/-- **Every thread retires a first part of its course.** A thread that was woken at most once
retires nothing after the word that suspends it. The counter and the signature are those of all that
retired, in order. The count of evaluations fits in a word, so no number of a stream has come
round. -/
theorem Session.Reached.retires_course (hc : c.FaultFree) (hm : m.WordAligned)
    (h : Session.Reached c m s) (hcycles : s.pipeline.stats.cycles < UInt64.size) :
    (∀ t : UInt32, t.toNat < c.host.threads.toNat →
      (∃ n, trail t s.history.retired = m.course n) ∧
      (s.history.woken.count t ≤ 1 → Lane.SuspendsLast (trail t s.history.retired))) ∧
    (∀ r ∈ s.history.retired, r.thread.toNat < c.host.threads.toNat) ∧
    s.pipeline.retired = s.history.retired.length ∧
    s.pipeline.signature = Signature.ofList s.history.retired := by
  have hsound := h.sound hc
  refine ⟨fun t ht => ⟨?_, fun hwoken => ?_⟩, hsound.thread, hsound.count, hsound.signature⟩
  · have hissued := (h.onRoute hc hm hcycles ht).issued
    rw [s.issued_lane] at hissued
    exact ⟨_, Image.eq_course_of_append hissued⟩
  · have hlast := (h.once hc hcycles ht).last hwoken
    rw [s.issued_lane] at hlast
    exact hlast.of_append

/-- A thread that was woken once retires the jump again and again. -/
theorem retires_course_spin : ∃ s, Session.Reached {} .spin s ∧
    trail 0 s.history.retired = [(0x80000000, 0x6f), (0x80000000, 0x6f)] ∧
    (∀ t : UInt32, t.toNat < 1 →
      (∃ n, trail t s.history.retired = Image.spin.course n) ∧
      (s.history.woken.count t ≤ 1 → Lane.SuspendsLast (trail t s.history.retired))) ∧
    (∀ r ∈ s.history.retired, r.thread.toNat < 1) ∧
    s.pipeline.retired = s.history.retired.length ∧
    s.pipeline.signature = Signature.ofList s.history.retired := by
  obtain ⟨s, hreached, hcycles, htrail⟩ : ∃ s, Session.Reached {} .spin s ∧
      s.pipeline.stats.cycles = 12 ∧
      trail 0 s.history.retired = [(0x80000000, 0x6f), (0x80000000, 0x6f)] :=
    ⟨_, ⟨_, .wakeAll :: List.replicate 12 .step, rfl, rfl⟩, by decide +kernel, by decide +kernel⟩
  exact ⟨s, hreached, htrail, hreached.retires_course (by decide) Image.wordAligned_spin
    (by rw [hcycles]; decide)⟩

end InOrder
