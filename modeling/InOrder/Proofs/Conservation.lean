import InOrder.Proofs.Pipeline.Faults
import InOrder.Proofs.Session
import InOrder.Proofs.Stage.Conserved

/-!
# Micro-ops are conserved

A micro-op that the slicer has numbered is on its way until it is retired or squashed, and what is
on its way stays in the order of the numbers. `Pipeline.underway` lists it from the oldest on:
through the units and the queue of execute, the register before it, the queue of decode and the
register before that.

A cycle only appends what is cut and takes away what is retired or squashed; each of the two is
counted (`Pipeline.Accounted.evaluate`). Flips in the units do not touch the numbers.

* `Session.Reached.conserves`: as many micro-ops are numbered as are retired, squashed or on their
  way, and those on their way are in the order of their numbers.
-/

namespace InOrder

/-- Numbers that climb and stay below `bound`, cut down to words. -/
def Climbing (bound : Nat) (xs : List UInt64) : Prop :=
  ∃ ns : List Nat, ns.Pairwise (· < ·) ∧ (∀ n ∈ ns, n < bound) ∧ xs = ns.map UInt64.ofNat

namespace Climbing

variable {bound : Nat} {xs ys : List UInt64}

theorem nil (bound : Nat) : Climbing bound [] := ⟨[], .nil, by simp, rfl⟩

/-- Some numbers may be left out. -/
theorem sublist (h : Climbing bound xs) (hs : ys.Sublist xs) : Climbing bound ys := by
  obtain ⟨ns, hclimbs, hbound, rfl⟩ := h
  obtain ⟨ns', hsub, rfl⟩ := List.sublist_map_iff.mp hs
  exact ⟨ns', hclimbs.sublist hsub, fun n hn => hbound n (hsub.subset hn), rfl⟩

/-- The next numbers may follow. -/
theorem append_range' (h : Climbing bound xs) (count : Nat) :
    Climbing (bound + count) (xs ++ (List.range' bound count).map UInt64.ofNat) := by
  obtain ⟨ns, hclimbs, hbound, rfl⟩ := h
  refine ⟨ns ++ List.range' bound count, ?_, fun n hn => ?_, (List.map_append ..).symm⟩
  · refine List.pairwise_append.mpr ⟨hclimbs, List.pairwise_lt_range', fun n hn k hk => ?_⟩
    exact Nat.lt_of_lt_of_le (hbound n hn) (List.mem_range'_1.mp hk).1
  · rcases List.mem_append.mp hn with hn | hn
    · exact Nat.lt_add_right count (hbound n hn)
    · exact (List.mem_range'_1.mp hn).2

/-- As long as all numbers fit in a word, the words climb as they do. -/
theorem pairwise (h : Climbing bound xs) (hbound : bound ≤ UInt64.size) : xs.Pairwise (· < ·) := by
  obtain ⟨ns, hclimbs, hbelow, rfl⟩ := h
  refine List.pairwise_map.mpr (hclimbs.imp_of_mem fun {n k} hn hk hlt => ?_)
  have hword : ∀ n ∈ ns, (UInt64.ofNat n).toNat = n := fun n hn =>
    UInt64.toNat_ofNat_of_lt' (Nat.lt_of_lt_of_le (hbelow n hn) hbound)
  rw [UInt64.lt_iff_toNat_lt, hword n hn, hword k hk]
  exact hlt

end Climbing

namespace Pipeline

/-- The micro-ops on their way from the slicer, from the oldest on. -/
def underway (p : Pipeline Stages) : List MicroOp :=
  p.stages.execute.units.map (·.op) ++ p.stages.execute.waiting.map Prod.snd ++
    p.registers.dToE.line.slots.flatMap Bundle.insts ++
    p.stages.decode.input.entries.flatMap Bundle.insts ++
    p.registers.f2ToD.line.slots.flatMap Bundle.insts

/-- Every micro-op that was numbered is accounted for. -/
structure Accounted (p : Pipeline Stages) : Prop where
  waiting : p.faults.waiting = []
  indexed : p.stages.execute.Indexed
  entered : p.stages.slicer.Entered
  width : p.stages.slicer.width < 256
  decoded : p.registers.dToE.Clean
  cut : p.registers.f2ToD.Clean
  count : p.stages.slicer.nextSeq =
    p.retired + p.stages.execute.squashed + p.underway.length + 1
  order : Climbing p.stages.slicer.nextSeq (p.underway.map MicroOp.seqNum)

/-- What a register holds has the micro-ops of all its slots. -/
theorem flatMap_insts_slots {r : Register Bundle} (h : r.Clean) :
    r.line.slots.flatMap Bundle.insts = (r.held.flatMap Bundle.tagged).map Prod.snd := by
  have hslots : r.line.slots = r.row ++ [r.input] := rfl
  rw [← Bundle.map_snd_flatMap_tagged, hslots, List.flatMap_append, List.flatMap_singleton,
    Bundle.tagged_of_bubble h.input, List.append_nil, Register.held_eq,
    Bundle.flatMap_tagged_present]

/-- What is on its way, as execute and the registers hold it. -/
theorem underway_eq {p : Pipeline Stages} (hdecoded : p.registers.dToE.Clean)
    (hcut : p.registers.f2ToD.Clean) :
    p.underway = p.stages.execute.ops ++ ((p.registers.dToE.held ++ p.stages.decode.input.entries ++
      p.registers.f2ToD.held).flatMap Bundle.tagged).map Prod.snd := by
  rw [underway, flatMap_insts_slots hdecoded, flatMap_insts_slots hcut,
    ← Bundle.map_snd_flatMap_tagged, Execute.ops]
  simp only [List.flatMap_append, List.map_append, List.append_assoc]

/-- What waits behind the output of the register before execute. -/
def behindExecute (p : Pipeline Stages) : List MicroOp :=
  ((p.registers.dToE.behind ++ p.stages.decode.input.entries ++
    p.registers.f2ToD.held).flatMap Bundle.tagged).map Prod.snd

/-- A cycle begins with what is at the output of the register before execute. -/
theorem underway_eq_behind {p : Pipeline Stages} (hdecoded : p.registers.dToE.Clean)
    (hcut : p.registers.f2ToD.Clean) :
    p.underway = p.stages.execute.ops ++ p.registers.dToE.output.insts ++ p.behindExecute := by
  rw [underway_eq hdecoded hcut, Register.held, behindExecute]
  simp only [List.flatMap_append, Bundle.flatMap_tagged_present, List.flatMap_singleton,
    List.map_append, Bundle.map_snd_tagged, List.append_assoc]

/-- What is on its way after a cycle: what execute keeps, what was behind it, and what was cut. -/
theorem underway_evaluate {p : Pipeline Stages} (hwaiting : p.faults.waiting = [])
    (hdecoded : p.registers.dToE.Clean) (hcut : p.registers.f2ToD.Clean) (now : Nat) :
    (p.evaluate now).pipeline.underway =
      (p.struckWork now).stages.execute.ops ++ p.behindExecute ++
        (p.struckWork now).writes.f2ToD.toList.flatMap Bundle.insts := by
  obtain ⟨hregisters, -⟩ := registers_struck now hwaiting
  obtain ⟨units, hstages, -⟩ := p.stages_struck now
  obtain ⟨hstages', hregisters', -, -⟩ := p.evaluate_struck now
  rw [hregisters] at hregisters'
  have hclean : (p.evaluate now).pipeline.registers.dToE.Clean ∧
      (p.evaluate now).pipeline.registers.f2ToD.Clean := by
    rw [hregisters']
    exact ⟨Register.clean_cycle hdecoded _, Register.clean_cycle hcut _⟩
  have hdecode : (p.struckWork now).stages.decode =
      (p.stages.decode.evaluate p.registers.f2ToD.output
        (p.struckWork now).stages.execute.input.hasRoom).stage ∧
      (p.struckWork now).writes.dToE =
        (p.stages.decode.evaluate p.registers.f2ToD.output
          (p.struckWork now).stages.execute.input.hasRoom).bundle := by
    rw [struckWork, hstages, hregisters]
    exact ⟨rfl, rfl⟩
  have hops := congrArg (List.map Prod.snd) (ops_cycle hdecoded hcut p.stages.decode
    ((p.struckWork now).stages.execute.input.hasRoom) (p.struckWork now).writes.f2ToD)
  rw [← hdecode.1, ← hdecode.2, List.map_append,
    Bundle.map_snd_flatMap_tagged (Option.toList _)] at hops
  rw [underway_eq hclean.1 hclean.2, hregisters', hstages']
  exact (congrArg ((p.struckWork now).stages.execute.ops ++ ·) hops).trans
    (List.append_assoc ..).symm

/-- A flip in a unit changes no number. -/
theorem map_seqNum_ops {s : Execute} {us : List InFlight}
    (h : List.Forall₂ InFlight.Alike s.units us) :
    ({ s with units := us } : Execute).ops.map MicroOp.seqNum = s.ops.map MicroOp.seqNum := by
  have hunits : (us.map (·.op)).map MicroOp.seqNum = (s.units.map (·.op)).map MicroOp.seqNum := by
    rw [List.map_map, List.map_map]
    exact InFlight.Alike.map_eq (fun _ _ => rfl) h
  have hwaiting : ({ s with units := us } : Execute).waiting = s.waiting := rfl
  rw [Execute.ops, Execute.ops, List.map_append, List.map_append, hunits, hwaiting]

namespace Accounted

variable {p : Pipeline Stages}

/-- What a cycle makes of the micro-ops on their way. Of those that execute has and gets some stay,
in their order, and the others are counted; those that are cut come last, with the next numbers. -/
theorem exists_cycle (h : p.Accounted) (now : Nat) : ∃ kept cut : List MicroOp,
    (p.evaluate now).pipeline.underway = kept ++ p.behindExecute ++ cut ∧
      (kept.map MicroOp.seqNum).Sublist
        ((p.stages.execute.ops ++ p.registers.dToE.output.insts).map MicroOp.seqNum) ∧
      (p.evaluate now).pipeline.retired + (p.evaluate now).pipeline.stages.execute.squashed +
          kept.length =
        p.retired + p.stages.execute.squashed +
          (p.stages.execute.ops ++ p.registers.dToE.output.insts).length ∧
      (p.evaluate now).pipeline.stages.slicer.nextSeq = p.stages.slicer.nextSeq + cut.length ∧
      cut.map MicroOp.seqNum =
        (List.range' p.stages.slicer.nextSeq cut.length).map UInt64.ofNat := by
  obtain ⟨units, hstages, halike⟩ := p.stages_struck now
  obtain ⟨hregisters, -⟩ := registers_struck now h.waiting
  obtain ⟨hstages', -⟩ := p.evaluate_struck now
  have hafter := underway_evaluate h.waiting h.decoded h.cut now
  rw [struckWork, hstages, hregisters] at hafter hstages'
  -- execute as the faults leave it
  let e : Execute := { (p.polled now).execute with units }
  have hindexed : e.Indexed := h.indexed
  have hseq : e.ops.map MicroOp.seqNum = p.stages.execute.ops.map MicroOp.seqNum :=
    map_seqNum_ops (s := (p.polled now).execute) halike
  have hlength : e.ops.length = p.stages.execute.ops.length := by
    simpa using congrArg List.length hseq
  obtain ⟨hsublist, hcount⟩ :=
    Execute.ops_evaluate hindexed (p.stats.cycles + 1) p.registers.dToE.output
  let room := (p.stages.decode.evaluate p.registers.f2ToD.output
    (e.evaluate (p.stats.cycles + 1) p.registers.dToE.output).stage.input.hasRoom).stage.input.hasRoom
  obtain ⟨cut, hcut, hnext, hnumbers⟩ := Slicer.numbers_evaluate h.entered h.width
    p.registers.f1ToF2.output p.registers.eToF1.output room
  refine ⟨_, cut, hafter.trans (congrArg (_ ++ _ ++ ·) hcut), ?_, ?_, ?_, hnumbers⟩
  · rw [List.map_append, ← hseq, ← List.map_append]
    exact hsublist.map _
  · have hretired : (p.evaluate now).pipeline.retired =
        (e.evaluate (p.stats.cycles + 1) p.registers.dToE.output).stage.retired :=
      congrArg (fun s => s.execute.retired) hstages'
    have hsquashed : (p.evaluate now).pipeline.stages.execute.squashed =
        (e.evaluate (p.stats.cycles + 1) p.registers.dToE.output).stage.squashed :=
      congrArg (fun s => s.execute.squashed) hstages'
    rw [hretired, hsquashed, List.length_append, ← hlength, ← Nat.add_assoc]
    exact hcount
  · rw [hstages']
    exact hnext

/-- **A cycle keeps account of every micro-op.** -/
theorem evaluate (h : p.Accounted) (now : Nat) : (p.evaluate now).pipeline.Accounted := by
  obtain ⟨units, hstages, -⟩ := p.stages_struck now
  obtain ⟨hregisters, hfaults⟩ := registers_struck now h.waiting
  obtain ⟨hstages', hregisters', -, hfaults'⟩ := p.evaluate_struck now
  obtain ⟨kept, cut, hunderway, hkept, hcount, hnext, hnumbers⟩ := h.exists_cycle now
  have hbefore := underway_eq_behind h.decoded h.cut
  rw [hregisters] at hregisters'
  rw [struckWork, hstages, hregisters] at hstages' hregisters'
  have hindexed : ({ (p.polled now).execute with units } : Execute).Indexed := h.indexed
  refine ⟨hfaults'.trans hfaults ▸ h.waiting, ?_, ?_, ?_, ?_, ?_, ?_, ?_⟩
  · rw [hstages']
    exact Execute.indexed_evaluate hindexed _ _
  · rw [hstages']
    exact (Slicer.evaluate_steps h.entered h.width ..).2
  · rw [hstages']
    exact Nat.lt_of_le_of_lt (Nat.le_of_eq (Slicer.width_evaluate ..).1) h.width
  · rw [hregisters']
    exact Register.clean_cycle h.decoded _
  · rw [hregisters']
    exact Register.clean_cycle h.cut _
  · have hcounted := h.count
    rw [hbefore] at hcounted
    rw [hnext, hunderway]
    simp only [List.length_append] at hcounted hcount ⊢
    omega
  · have hclimbs := h.order
    rw [hbefore, List.map_append] at hclimbs
    rw [hnext, hunderway, List.map_append, hnumbers, List.map_append]
    exact (hclimbs.sublist (hkept.append_right _)).append_range' _

/-- What a call of the host leaves as it is, it keeps account of. -/
theorem wakeFetch (h : p.Accounted) (t : UInt32) : (p.wakeFetch t).1.Accounted :=
  { h with }

theorem wakeAll (ts : List UInt32) : ∀ {p : Pipeline Stages}, p.Accounted →
    (p.wakeAll ts).1.Accounted :=
  wakeAll_induction (fun _ t h => h.wakeFetch t) ts

theorem drain (h : p.Accounted) : p.drain.1.Accounted := by
  unfold Pipeline.drain
  simp only
  split <;> exact { h with }

theorem resume (h : p.Accounted) (n : Nat) : (p.resume n).1.Accounted :=
  { wakeAll (threadNumbers n) h with }

end Accounted

/-- A new pipeline has numbered nothing. -/
theorem accounted_of_new {c : Config} {m : Image} {p : Pipeline Stages} {events : List Event}
    (hc : c.faults.register = "")
    (h : Pipeline.new c (Stages.new owner c m) = .ok (p, events)) : p.Accounted := by
  obtain ⟨blank, hadmitted, hblank, hp⟩ := of_new_of_none hc h
  obtain ⟨hsound, hempty, -⟩ := Registers.of_new_eq_ok hblank c.host.threads.toNat
  obtain ⟨hstages, hregisters, hwaiting⟩ :
      p.stages = Stages.new owner c m ∧ p.registers = blank ∧ p.faults.waiting = [] := by
    rw [hp]
    exact ⟨rfl, rfl, rfl⟩
  have hdecoded : p.registers.dToE.Clean := hregisters ▸ hsound.decoded
  have hcut : p.registers.f2ToD.Clean := hregisters ▸ hsound.cut
  have hnone : p.underway = [] := by
    rw [underway_eq hdecoded hcut, hregisters, hempty.decoded, hempty.cut, hstages]
    rfl
  refine ⟨hwaiting, ?_, ?_, ?_, hdecoded, hcut, ?_, ?_⟩
  · rw [hstages]
    exact fun _ => rfl
  · rw [hstages]
    exact fun _ => rfl
  · rw [hstages]
    exact Nat.lt_succ_of_le hadmitted.width_le
  · rw [hnone, retired, hstages]
    rfl
  · rw [hnone]
    exact .nil _

end Pipeline

namespace Session

variable {c : Config} {m : Image} {s : Session}

/-- **Micro-ops are conserved and stay in order.** As many are numbered as are retired, squashed or
on their way, and those on their way climb, from the oldest on, in the numbers that they were given.
The numbers are words, so they climb as words until they come round. -/
theorem Reached.conserves (hc : c.faults.register = "") (h : Reached c m s) :
    s.pipeline.stages.slicer.nextSeq =
        s.pipeline.retired + s.pipeline.stages.execute.squashed + s.pipeline.underway.length + 1 ∧
      Climbing s.pipeline.stages.slicer.nextSeq (s.pipeline.underway.map MicroOp.seqNum) ∧
      (s.pipeline.stages.slicer.nextSeq ≤ UInt64.size →
        (s.pipeline.underway.map MicroOp.seqNum).Pairwise (· < ·)) := by
  have hkept : s.pipeline.Accounted :=
    h.pipeline_induction (fun hnew => Pipeline.accounted_of_new hc hnew)
      (fun _ now h => h.evaluate now) (fun _ t h => h.wakeFetch t) (fun _ h => h.drain)
      (fun _ n h => h.resume n)
  exact ⟨hkept.count, hkept.order, hkept.order.pairwise⟩

end Session

/-- Three units that are slow and corrupted in every cycle. -/
def Config.worn : Config :=
  { pipeline := { predictJumps := true, width := 3, units := 3, executeLatency := 3 }
    faults := { unit := true, unitMode := .repeating } }

/-- A jump over one word, a run of plain words, and a word that suspends. -/
def Image.detour : Image :=
  .ofWords 0x80000000 [19, 0x0080006f, 19, 19, 19, 19, 19, 19, 19, 115]

/-- Fifteen steps after it was woken, a thread has micro-ops in three places, and some were
squashed before them. -/
theorem conserves_worn : ∃ s, Session.Reached .worn .detour s ∧
    s.pipeline.underway.map MicroOp.seqNum = [9, 13, 14, 15, 16, 17, 18] ∧
    (s.pipeline.stages.slicer.nextSeq =
        s.pipeline.retired + s.pipeline.stages.execute.squashed + s.pipeline.underway.length + 1 ∧
      Climbing s.pipeline.stages.slicer.nextSeq (s.pipeline.underway.map MicroOp.seqNum) ∧
      (s.pipeline.stages.slicer.nextSeq ≤ UInt64.size →
        (s.pipeline.underway.map MicroOp.seqNum).Pairwise (· < ·))) := by
  obtain ⟨s, hreached, hunderway⟩ : ∃ s, Session.Reached .worn .detour s ∧
      s.pipeline.underway.map MicroOp.seqNum = [9, 13, 14, 15, 16, 17, 18] :=
    ⟨_, ⟨_, .wake 0 :: List.replicate 15 .step, rfl, rfl⟩, by decide +kernel⟩
  exact ⟨s, hreached, hunderway, hreached.conserves rfl⟩

end InOrder
