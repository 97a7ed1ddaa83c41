import InOrder.Proofs.Resumption

/-!
# Redirects on their way

Execute gives its thread a new stream number in two places, when it issues a micro-op after which
fetch is wrong and when it sends a halt. Each of these numbers goes to the line fetch and to the
slicer in a redirect, and the redirects of a thread reach them in order.

* `Session.Reached.redirects_climb`: the redirects of a thread on their way lead, without a gap,
  from the stream that the line fetch and the slicer are in to that of execute. Nothing is asked of
  the clock, since it holds whatever numbers are given out.
-/

namespace InOrder

variable {c : Config} {m : Image} {s : Session} {t : UInt32}

/-- The live redirects of a thread, slot by slot, are those that its lane has on their way. -/
theorem Registers.Sound.live_slots {n : Nat} {rs : Registers} (h : rs.Sound n) (t : UInt32) :
    rs.eToF1.line.slots.filter (fun r => r.isLive ∧ r.thread = t) =
      redirectsOf t rs.eToF1.held := by
  have hslots : rs.eToF1.line.slots = rs.eToF1.row ++ [rs.eToF1.input] := rfl
  -- a redirect in the register is live unless it is a bubble
  have hlive : ∀ r ∈ rs.eToF1.row, r.isLive = !Payload.isBubble r := by
    intro r hr
    cases hbubble : Payload.isBubble r with
    | true => exact Redirect.not_isLive hbubble
    | false => exact (h.sent r (Register.mem_held.mpr ⟨List.mem_cons.mp hr, hbubble⟩)).isLive
  rw [hslots, List.filter_append, List.filter_cons_of_neg, List.filter_nil, List.append_nil,
    Register.held_eq, redirectsOf, present, List.filter_filter]
  · refine List.filter_congr fun r hr => ?_
    simp [hlive r hr, and_comm]
  · simp [Redirect.not_isLive h.redirects.input]

/-- **No redirect is lost, duplicated or reordered.** The line fetch and the slicer are in one
stream; the redirects on their way go on from it without a gap; and the last of them has the stream
of execute. -/
theorem Session.Reached.redirects_climb (hc : c.FaultFree) (h : Session.Reached c m s)
    (ht : t.toNat < c.host.threads.toNat) :
    ∃ fetch exec expected,
      s.pipeline.stages.lineFetch.thread? t = some fetch ∧
      s.pipeline.stages.execute.threads[t.toNat]? = some exec ∧
      s.pipeline.stages.slicer.expected[t.toNat]? = some expected ∧
      expected.streamSeq = fetch.streamSeq ∧
      Climbs fetch.streamSeq
        ((s.pipeline.registers.eToF1.line.slots.filter fun r => r.isLive ∧ r.thread = t).map
          (·.newStreamSeq))
        exec.streamSeq := by
  have hp := (h.sound hc).pipeline
  have hstream : (s.lane t).InStream := by
    obtain ⟨s₀, calls, hnew, rfl⟩ := h
    obtain ⟨hsound, hlane, -⟩ := Session.of_new_eq_ok hc hnew
    exact Session.after_lane (fun _ => True) hsound ht calls (fun _ _ => trivial)
      (fun _ _ hv hw => hv.steps hw) (fun _ hv => hv.pend false) (fun _ _ hv => hv.pend true)
      (hlane ht ▸ .start m.entry)
  refine ⟨_, _, _, hp.thread? ht s.history, hp.exec? ht s.history, hp.expected? ht s.history,
    hstream.stream, ?_⟩
  rw [hp.registers.live_slots t]
  exact hstream.climbs

/-- A drain finds the redirect of a jump on its way, and sends its halt after it. -/
theorem redirects_climb_halt : ∃ s, Session.Reached
      { pipeline := { delays := { PerEdge.all 1 with eToF1 := 3 } } } .spin s ∧
    (s.pipeline.registers.eToF1.line.slots.filter fun r => r.isLive ∧ r.thread = 0).map
      (fun r => (r.reason, r.newStreamSeq)) = [(.unpredicted, 2), (.halt, 3)] ∧
    ∃ fetch exec expected,
      s.pipeline.stages.lineFetch.thread? 0 = some fetch ∧
      s.pipeline.stages.execute.threads[(0 : UInt32).toNat]? = some exec ∧
      s.pipeline.stages.slicer.expected[(0 : UInt32).toNat]? = some expected ∧
      expected.streamSeq = fetch.streamSeq ∧
      Climbs fetch.streamSeq
        ((s.pipeline.registers.eToF1.line.slots.filter fun r => r.isLive ∧ r.thread = 0).map
          (·.newStreamSeq))
        exec.streamSeq := by
  obtain ⟨s, hreached, hslots⟩ : ∃ s, Session.Reached
        { pipeline := { delays := { PerEdge.all 1 with eToF1 := 3 } } } .spin s ∧
      (s.pipeline.registers.eToF1.line.slots.filter fun r => r.isLive ∧ r.thread = 0).map
        (fun r => (r.reason, r.newStreamSeq)) = [(.unpredicted, 2), (.halt, 3)] :=
    ⟨_, ⟨_, .wakeAll :: (List.replicate 6 .step ++ [.drain, .step]), rfl, rfl⟩, by decide +kernel⟩
  exact ⟨s, hreached, hslots, hreached.redirects_climb (by decide) (by decide)⟩

end InOrder
