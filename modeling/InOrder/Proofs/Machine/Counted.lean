import InOrder.Proofs.Lane.Counted
import InOrder.Proofs.Lane.Halt
import InOrder.Proofs.Machine.Basic
import InOrder.Proofs.Stage.Room

/-!
# Numbers that do not come round

The numbers of streams and predictions are words of 64 bits. With one thread it can be told how far
they come (`Machine.Counted`). A stream is left when a micro-op is issued or a halt is sent. A
prediction is made when a jump is cut, and that was issued already, or waits in a bundle, for which
there is only so much room (`Stages.room`), or was cut while a redirect was on its way; and that
takes no more cycles than its register has slots.

* `Machine.Counted.next`: a cycle keeps the count, whatever the numbers are.
* `Machine.Sound.of_unwrapped`: so the streams of a thread that issues few instructions do not come
  round.
* `Machine.Counted.unwrapped`: nor do its predictions where there is room for few bundles.
-/

namespace InOrder

theorem eq_singleton {α : Type} {as : List α} {a : α} (hlength : as.length = 1)
    (ha : as[0]? = some a) : as = [a] := by
  obtain ⟨b, rfl⟩ := List.length_eq_one_iff.mp hlength
  rw [Option.some.inj ha]

/-- Where there is one thread it has number zero. -/
theorem zero_lt_of_one {n : Nat} (hone : n = 1) : (0 : UInt32).toNat < n := by
  rw [hone]
  exact Nat.zero_lt_one

namespace Machine

variable {c : Config} {m : Image} {b d : Nat} {x : Machine}

/-! ## Room for bundles -/

/-- The bundles between the slicer and issue. -/
def bundles (x : Machine) : List Bundle :=
  x.stages.execute.input.entries ++
    (x.registers.dToE.held ++ x.stages.decode.input.entries ++ x.registers.f2ToD.held)

/-- The queues behind the slicer hold what there is room for, and each bundle has a predicted jump
at most. -/
structure Contained (x : Machine) : Prop where
  decode : x.stages.decode.input.Holds x.registers.f2ToD
  execute : x.stages.execute.input.Holds x.registers.dToE
  single : ∀ b ∈ x.bundles, predicted b.insts ≤ 1

/-- A cycle moves bundles on, and cuts one at most. -/
theorem mem_bundles_next (hs : x.Sound c m b) {y : Bundle} (hy : y ∈ x.next.bundles) :
    y ∈ x.bundles ∨ x.sliced.bundle = some y := by
  have hheld : ∀ {r : Register Bundle} {w : Option Bundle}, r.Clean →
      y ∈ (r.write? w).advance.held → y ∈ r.held ∨ w = some y := by
    intro r w hr hy
    rw [Register.held_cycle hr] at hy
    rcases List.mem_append.mp hy with hy | hy
    · exact .inl (List.mem_append_right _ hy)
    · exact .inr (Option.mem_toList.mp (mem_present.mp hy).1)
  have harrives : ∀ {r : Register Bundle} {ys : List Bundle}, y ∈ ys ++ present [r.output] →
      y ∈ ys ∨ y ∈ r.held := fun hy =>
    (List.mem_append.mp hy).imp_right fun hy => List.mem_append_left _ hy
  have hexecute : y ∈ x.registers.dToE.held → y ∈ x.bundles := fun hy =>
    List.mem_append_right _ (List.mem_append_left _ (List.mem_append_left _ hy))
  have hdecode : y ∈ x.stages.decode.input.entries → y ∈ x.bundles := fun hy =>
    List.mem_append_right _ (List.mem_append_left _ (List.mem_append_right _ hy))
  have hcut : y ∈ x.registers.f2ToD.held → y ∈ x.bundles := fun hy =>
    List.mem_append_right _ (List.mem_append_right _ hy)
  rcases List.mem_append.mp hy with hy | hy
  · have hsuffix := x.polled.evaluate_suffix (x.cycles + 1) x.registers.dToE.output
    exact .inl ((harrives (hsuffix.subset hy)).elim (List.mem_append_left _) hexecute)
  rcases List.mem_append.mp hy with hy | hy
  · rcases List.mem_append.mp hy with hy | hy
    · rcases hheld hs.registers.decoded hy with hy | hy
      · exact .inl (hexecute hy)
      · exact .inl ((harrives (Decode.mem_of_bundle hy)).elim hdecode hcut)
    · have hsuffix := x.stages.decode.evaluate_suffix x.registers.f2ToD.output
        x.executed.stage.input.hasRoom
      exact .inl ((harrives (hsuffix.subset hy)).elim hdecode hcut)
  · exact (hheld hs.registers.cut hy).imp_left hcut

theorem Contained.next (hx : x.Contained) (hs : x.Sound c m b) : x.next.Contained where
  decode := hx.decode.cycle hs.registers.cut
    (List.length_append ▸ (x.stages.decode.evaluate_suffix _ _).length_le)
    (x.stages.decode.capacity_evaluate _ _) fun _ => Slicer.room_of_bundle
  execute := hx.execute.cycle hs.registers.decoded
    (List.length_append ▸ (x.polled.evaluate_suffix _ _).length_le)
    (x.polled.settings_evaluate _ _).2.2 fun _ => Decode.room_of_bundle
  single y hy := by
    rcases mem_bundles_next hs hy with hy | hy
    · exact hx.single y hy
    · exact Slicer.predicted_of_bundle hs.stages.slicer.entered hs.stages.slicer.width hy

/-- A cycle makes no more room. -/
theorem room_next (x : Machine) :
    x.next.stages.room x.next.registers = x.stages.room x.registers := by
  have hqueued : x.next.stages.execute.input.capacity = x.stages.execute.input.capacity :=
    (x.polled.settings_evaluate (x.cycles + 1) x.registers.dToE.output).2.2
  have hbundles : x.next.stages.decode.input.capacity = x.stages.decode.input.capacity :=
    x.stages.decode.capacity_evaluate _ _
  have hdecoded : x.next.registers.dToE.row.length = x.registers.dToE.row.length :=
    Register.length_row_cycle x.registers.dToE x.decoded.bundle
  have hcut : x.next.registers.f2ToD.row.length = x.registers.f2ToD.row.length :=
    Register.length_row_cycle x.registers.f2ToD x.sliced.bundle
  rw [Stages.room, Stages.room, hqueued, hbundles, hdecoded, hcut]

theorem length_row_next (x : Machine) :
    x.next.registers.eToF1.row.length = x.registers.eToF1.row.length :=
  Register.length_row_cycle x.registers.eToF1 x.executed.redirect

theorem Contained.length_bundles_le (hx : x.Contained) :
    x.bundles.length ≤ x.stages.room x.registers := by
  have hdecode := hx.decode
  have hexecute := hx.execute
  unfold Queue.Holds at hdecode hexecute
  rw [bundles, List.length_append, List.length_append, List.length_append]
  unfold Stages.room
  omega

/-- There is room for the predicted jumps that wait. -/
theorem Contained.predicted_currentOps_le (hx : x.Contained) (t : UInt32) :
    predicted (x.lane t).currentOps ≤ x.stages.room x.registers := by
  obtain ⟨queued, hqueued⟩ : ∃ bs, bs = x.registers.dToE.held ++ x.stages.decode.input.entries ++
      x.registers.f2ToD.held := ⟨_, rfl⟩
  have hops : (x.lane t).ops =
      share t (x.stages.execute.waiting ++ queued.flatMap Bundle.tagged) := by
    rw [hqueued]
    rfl
  have hbegun : (x.stages.execute.waiting ++ queued.flatMap Bundle.tagged).Sublist
      (x.bundles.flatMap Bundle.tagged) := by
    rw [bundles, ← hqueued, List.flatMap_append]
    exact (waitingOps_sublist _ _).append (List.Sublist.refl _)
  calc predicted (x.lane t).currentOps
      ≤ predicted (x.lane t).ops := predicted_le_of_sublist List.filter_sublist
    _ ≤ predicted ((x.stages.execute.waiting ++ queued.flatMap Bundle.tagged).map Prod.snd) :=
        hops ▸ predicted_share_le t _
    _ ≤ predicted ((x.bundles.flatMap Bundle.tagged).map Prod.snd) :=
        predicted_le_of_sublist (hbegun.map _)
    _ ≤ x.bundles.length := predicted_flatMap_le hx.single
    _ ≤ x.stages.room x.registers := hx.length_bundles_le

/-! ## One thread -/

/-- With one thread all redirects are of that thread. -/
theorem Sound.redirects_eq (hs : x.Sound c m b) (hone : c.host.threads.toNat = 1) :
    (x.lane 0).redirects = x.registers.eToF1.held := by
  refine List.filter_eq_self.mpr fun r hr => ?_
  have hlt := (hs.registers.sent r hr).thread
  rw [hone, Nat.lt_one_iff] at hlt
  exact decide_eq_true (UInt32.toNat_inj.mp hlt)

theorem Sound.exec_eq (hs : x.Sound c m b) (hone : c.host.threads.toNat = 1) :
    x.stages.execute.threads = [(x.lane 0).exec] :=
  eq_singleton (hs.stages.execute.length.trans hone) (hs.exec? (zero_lt_of_one hone))

theorem Sound.expected_eq (hs : x.Sound c m b) (hone : c.host.threads.toNat = 1) :
    x.stages.slicer.expected = [(x.lane 0).expected] :=
  eq_singleton (hs.stages.slicer.length.trans hone) (hs.expected? (zero_lt_of_one hone))

/-- How far the numbers of a machine with one thread have come, when `d` halts were asked for. -/
structure Counted (d : Nat) (x : Machine) : Prop where
  lane : (x.lane 0).Counted d
  streams : (x.lane 0).InStream
  contained : x.Contained
  /-- While a redirect is on its way, a prediction is made in each cycle at most. -/
  late : x.registers.eToF1.held ≠ [] →
    ordinal (x.lane 0).expected.predictionSeq + x.registers.eToF1.lead ≤
      (x.lane 0).issued.length + x.stages.room x.registers + x.registers.eToF1.row.length

namespace Counted

/-- No more predictions were made in a stream than there are micro-ops issued, bundles to wait, and
cycles for a redirect to arrive. -/
theorem predictions_le (hx : x.Counted d) (hs : x.Sound c m b) (hone : c.host.threads.toNat = 1) :
    ordinal (x.lane 0).expected.predictionSeq ≤
      (x.lane 0).issued.length + x.stages.room x.registers + x.registers.eToF1.row.length := by
  by_cases hnone : x.registers.eToF1.held = []
  · have hle := hx.lane.predictions ((hs.redirects_eq hone).trans hnone)
    have hroom := hx.contained.predicted_currentOps_le 0
    omega
  · have hle := hx.late hnone
    omega

/-- In a cycle in which a redirect arrives the numbers of predictions start again. -/
theorem predictions_of_redirect (hs : x.Sound c m b) (hone : c.host.threads.toNat = 1)
    (hlive : Payload.isBubble x.registers.eToF1.output = false) :
    ordinal (x.next.lane 0).expected.predictionSeq ≤ 1 := by
  have hsent := hs.sent hlive
  have hslicer := hs.stages.slicer
  have hthread : x.registers.eToF1.output.thread.toNat = 0 := by
    have hlt := hsent.thread
    rwa [hone, Nat.lt_one_iff] at hlt
  have hlength : x.stages.slicer.expected.length = 1 := hslicer.length.trans hone
  have hfollowed : ∀ e ∈ x.stages.slicer.followed x.registers.eToF1.output,
      ordinal e.predictionSeq ≤ 0 := by
    intro e he
    rw [Slicer.followed, Slicer.follow, if_pos ⟨hsent.isLive, hsent.changes⟩, hthread] at he
    obtain ⟨e', he'⟩ := List.length_eq_one_iff.mp hlength
    rw [he', List.set_cons_zero, List.mem_singleton] at he
    rw [he, hsent.resets, ordinal_firstSeq]
  have hnext := hs.next.expected? (zero_lt_of_one hone)
  exact Slicer.bound_evaluate hslicer.entered hslicer.width hfollowed _ (List.mem_of_getElem? hnext)

/-- In any cycle one prediction is made at most. -/
theorem predictions_next (hs : x.Sound c m b) (hone : c.host.threads.toNat = 1)
    (hbubble : Payload.isBubble x.registers.eToF1.output = true) :
    ordinal (x.next.lane 0).expected.predictionSeq ≤
      ordinal (x.lane 0).expected.predictionSeq + 1 := by
  have hslicer := hs.stages.slicer
  have hfollowed : ∀ e ∈ x.stages.slicer.followed x.registers.eToF1.output,
      ordinal e.predictionSeq ≤ ordinal (x.lane 0).expected.predictionSeq := by
    intro e he
    rw [Slicer.followed_of_bubble (Redirect.not_isLive hbubble), hs.expected_eq hone,
      List.mem_singleton] at he
    rw [he]
  exact Slicer.bound_evaluate hslicer.entered hslicer.width hfollowed _
    (List.mem_of_getElem? (hs.next.expected? (zero_lt_of_one hone)))

/-- What concerns only the line fetch and the halts leaves what is counted. -/
theorem keep {y : Machine} {d' : Nat} (hx : x.Counted d) (hlane : (y.lane 0).Counted d')
    (hstreams : (y.lane 0).InStream) (hissued : (y.lane 0).issued = (x.lane 0).issued)
    (hexpected : (y.lane 0).expected = (x.lane 0).expected)
    (hexecute : y.stages.execute.input = x.stages.execute.input)
    (hdecode : y.stages.decode.input = x.stages.decode.input)
    (hregisters : y.registers = x.registers) : y.Counted d' := by
  have hcontained := hx.contained
  refine ⟨hlane, hstreams, ⟨?_, ?_, ?_⟩, ?_⟩
  · rw [hdecode, hregisters]
    exact hcontained.decode
  · rw [hexecute, hregisters]
    exact hcontained.execute
  · rw [bundles, hexecute, hdecode, hregisters]
    exact hcontained.single
  · rw [hissued, hexpected, hregisters, Stages.room, hexecute, hdecode]
    exact hx.late

/-- Nothing is counted before the start. -/
theorem start {entry : UInt64} (hlane : x.lane 0 = .start entry) (hbundles : x.bundles = [])
    (hredirects : x.registers.eToF1.held = []) : x.Counted 0 := by
  obtain ⟨hexecute, hrest⟩ := List.append_eq_nil_iff.mp hbundles
  obtain ⟨hdecode, hcut⟩ := List.append_eq_nil_iff.mp hrest
  obtain ⟨hdecoded, hdecode⟩ := List.append_eq_nil_iff.mp hdecode
  refine ⟨hlane ▸ .start entry, hlane ▸ .start entry, ⟨?_, ?_, ?_⟩, fun hne => ?_⟩
  · rw [Queue.Holds, hdecode, hcut]
    exact Nat.add_pos_right _ (Nat.succ_pos _)
  · rw [Queue.Holds, hexecute, hdecoded]
    exact Nat.add_pos_right _ (Nat.succ_pos _)
  · rw [hbundles]
    exact fun b hb => absurd hb List.not_mem_nil
  · exact absurd hredirects hne

/-- **A cycle keeps the count.** -/
theorem next (hx : x.Counted d) (hs : x.Sound c m b) (hone : c.host.threads.toNat = 1) :
    x.next.Counted d := by
  have hsteps : Lane.Steps (c.track m (fun _ => True) 0) (x.lane 0) (x.next.lane 0) :=
    lane_next hs (zero_lt_of_one hone) fun _ _ => trivial
  have hissued := hsteps.issued_prefix.length_le
  refine ⟨hx.lane.steps hx.streams hsteps, hx.streams.steps hsteps, hx.contained.next hs,
    fun hnext => ?_⟩
  have hlead := Register.lead_lt hnext
  rw [length_row_next] at hlead
  rw [room_next, length_row_next]
  cases hout : Payload.isBubble x.registers.eToF1.output with
  | false =>
    have hle := predictions_of_redirect hs hone hout
    omega
  | true =>
    have hle := predictions_next hs hone hout
    by_cases hbehind : x.registers.eToF1.behind = []
    · -- no redirect is on its way before the one that is sent now
      have hnone : (x.lane 0).redirects = [] := by
        rw [hs.redirects_eq hone, Register.held, hbehind, present_bubble hout]
        rfl
      have hcut := hx.lane.predictions hnone
      have hroom := hx.contained.predicted_currentOps_le 0
      omega
    · have hcloser : x.next.registers.eToF1.lead + 1 = x.registers.eToF1.lead :=
        Register.lead_cycle hout hbehind x.executed.redirect
      have hheld : x.registers.eToF1.held ≠ [] := by
        rw [Register.held, present_bubble hout]
        exact hbehind
      have hlate := hx.late hheld
      omega

end Counted

/-! ## Numbers that have one after them -/

/-- Numbers that are known to have come less far. -/
theorem Sound.of_le {b' : Nat} (hs : x.Sound c m b)
    (hstreams : ∀ th ∈ x.stages.execute.threads, ordinal th.streamSeq ≤ b')
    (hpredictions : ∀ e ∈ x.stages.slicer.expected, ordinal e.predictionSeq ≤ b') :
    x.Sound c m b' :=
  ⟨{ hs.stages with
      slicer := { hs.stages.slicer with bound := hpredictions }
      execute := { hs.stages.execute with bound := hstreams } }, hs.registers⟩

/-- No prediction has the last number, after which numbers come round. -/
def Unwrapped (x : Machine) : Prop :=
  ∀ e ∈ x.stages.slicer.expected, ordinal e.predictionSeq ≤ UInt64.size - 2

/-- **Of a thread that issues few instructions only the predictions can come round.** -/
theorem Sound.of_unwrapped (hs : x.Sound c m b) (hone : c.host.threads.toNat = 1)
    (hx : x.Counted d) (hpredictions : x.Unwrapped)
    (hfew : d + (x.lane 0).issued.length ≤ UInt64.size - 2) :
    x.Sound c m (UInt64.size - 2) := by
  refine hs.of_le (fun th hth => ?_) hpredictions
  rw [hs.exec_eq hone, List.mem_singleton] at hth
  have hle := hx.lane.stream
  rw [hth]
  omega

/-- **Predictions cannot come round where there is room for few bundles.** -/
theorem Counted.unwrapped (hx : x.Counted d) (hs : x.Sound c m b) (hone : c.host.threads.toNat = 1)
    (hroom : (x.lane 0).issued.length + x.stages.room x.registers +
      x.registers.eToF1.row.length ≤ UInt64.size - 2) :
    x.Unwrapped := by
  intro e he
  rw [hs.expected_eq hone, List.mem_singleton] at he
  rw [he]
  exact Nat.le_trans (hx.predictions_le hs hone) hroom

end Machine

end InOrder
