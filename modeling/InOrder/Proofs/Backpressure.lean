import InOrder.Proofs.Pipeline.Faults
import InOrder.Proofs.Pipeline.Fitted
import InOrder.Proofs.Session
import InOrder.Proofs.Stage.Room

/-!
# Backpressure

A queue takes in whatever arrives, full or not. What bounds it is its producer, which looks at the
room in the queue, after the consumer has worked in the same cycle, and writes only if there is
some. A register of delay `d` can then have `d - 1` payloads on their way when the last place is
filled, and these still arrive.

So the bound is on the queue and its register together (`Link`). A cycle in which nothing is written
does not raise their sum, and one in which something is written leaves a free place in the queue
(`Queue.Holds.cycle`). Flips in the units do not touch this; a flip in a register could turn a
bubble into a payload, so there are none here.

* `Session.Reached.backpressure`: in every state of a run each of the three queues, with its
  register, has `size + delay - 1` payloads at most. Where the delay is one, what arrives never
  finds the queue full.
-/

namespace InOrder

variable {α : Type} [Payload α]

/-- A queue of `size` places is fed by a register of delay `delay`, and its producer has heeded the
room in it. -/
structure Link (q : Queue α) (r : Register α) (size delay : Nat) : Prop where
  capacity : q.capacity = size
  length : r.row.length = delay
  clean : r.Clean
  holds : q.Holds r

namespace Link

variable {q q' : Queue α} {r : Register α} {size delay : Nat}

/-- A queue with nothing in it, before a register that is blank. -/
theorem new {name : String} {edge : Edge} {blank : α} {flip : Option Flip}
    (hblank : Payload.isBubble blank = true) (hdelay : 0 < delay) :
    Link (.empty size) ⟨name, edge, .new delay blank, flip⟩ size delay := by
  refine ⟨rfl, Register.length_row_new hdelay, Register.clean_new hblank, ?_⟩
  rw [Queue.Holds, Register.held_blank hblank, Register.length_row_new hdelay]
  exact Nat.add_pos_right _ hdelay

/-- **A cycle keeps the bound**, if the consumer takes in no more than what arrives and the producer
writes only where there is room. -/
theorem cycle (h : Link q r size delay) {w : Option α}
    (hentries : q'.entries <:+ q.entries ++ present [r.output])
    (hcapacity : q'.capacity = q.capacity) (hroom : ∀ a, w = some a → q'.hasRoom = true) :
    Link q' (r.write? w).advance size delay where
  capacity := hcapacity.trans h.capacity
  length := (Register.length_row_cycle r w).trans h.length
  clean := Register.clean_cycle h.clean w
  holds := h.holds.cycle h.clean (List.length_append ▸ hentries.length_le) hcapacity hroom

/-- Nothing but what stands behind the input is on its way. -/
theorem present_slots (h : Link q r size delay) : present r.line.slots = r.held := by
  have hslots : r.line.slots = r.row ++ [r.input] := rfl
  rw [hslots, present_append, present_bubble h.clean.input, List.append_nil, Register.held_eq]

theorem length_le (h : Link q r size delay) :
    q.entries.length + (present r.line.slots).length ≤ size + delay - 1 := by
  have hholds := h.holds
  rw [Queue.Holds, h.capacity, h.length] at hholds
  rw [h.present_slots]
  omega

/-- What arrives is among what is on its way. -/
theorem length_push_le (h : Link q r size delay) :
    (q.push r.output).entries.length ≤ size + delay - 1 := by
  have hle := h.length_le
  rw [h.present_slots, Register.held, List.length_append] at hle
  rw [Queue.entries_push, List.length_append]
  omega

end Link

namespace Pipeline

/-- The producers of all three queues have heeded the room in them. -/
structure Heeded (c : PipelineConfig) (p : Pipeline Stages) : Prop where
  waiting : p.faults.waiting = []
  lines : Link p.stages.slicer.input p.registers.f1ToF2 c.lineQueue.toNat c.delays.f1ToF2.toNat
  cut : Link p.stages.decode.input p.registers.f2ToD c.decodeQueue.toNat c.delays.f2ToD.toNat
  decoded : Link p.stages.execute.input p.registers.dToE c.executeQueue.toNat c.delays.dToE.toNat

namespace Heeded

variable {c : PipelineConfig} {p : Pipeline Stages}

/-- **In a cycle each producer heeds the room that its consumer has left.** -/
theorem evaluate (h : p.Heeded c) (now : Nat) : (p.evaluate now).pipeline.Heeded c := by
  obtain ⟨units, hstages, -⟩ := p.stages_struck now
  obtain ⟨hregisters, hfaults⟩ := registers_struck now h.waiting
  obtain ⟨hstages', hregisters', -, hfaults'⟩ := p.evaluate_struck now
  rw [hregisters] at hregisters'
  rw [struckWork, hstages, hregisters] at hstages' hregisters'
  -- execute as the faults leave it, with the queue that it had
  let e : Execute := { (p.polled now).execute with units }
  refine ⟨hfaults'.trans hfaults ▸ h.waiting, ?_, ?_, ?_⟩
  · rw [hstages', hregisters']
    exact h.lines.cycle (p.stages.slicer.evaluate_suffix _ _ _)
      (p.stages.slicer.capacity_evaluate _ _ _) fun _ => LineFetch.room_of_line
  · rw [hstages', hregisters']
    exact h.cut.cycle (p.stages.decode.evaluate_suffix _ _) (p.stages.decode.capacity_evaluate _ _)
      fun _ => Slicer.room_of_bundle
  · rw [hstages', hregisters']
    exact h.decoded.cycle (e.evaluate_suffix _ _) (e.settings_evaluate _ _).2.2
      fun _ => Decode.room_of_bundle

theorem wakeFetch (h : p.Heeded c) (t : UInt32) : (p.wakeFetch t).1.Heeded c := { h with }

theorem drain (h : p.Heeded c) : p.drain.1.Heeded c := by
  unfold Pipeline.drain
  simp only
  split <;> exact { h with }

theorem resume (h : p.Heeded c) (n : Nat) : (p.resume n).1.Heeded c :=
  { wakeAll_induction (fun _ t h => h.wakeFetch t) (threadNumbers n) h with }

end Heeded

/-- In a new pipeline nothing is queued or on its way. -/
theorem heeded_of_new {c : Config} {m : Image} {p : Pipeline Stages} {events : List Event}
    (hc : c.faults.register = "") (h : Pipeline.new c (.new owner c m) = .ok (p, events)) :
    p.Heeded c.pipeline := by
  obtain ⟨blank, hadmitted, hblank, rfl⟩ := of_new_of_none hc h
  obtain rfl := Registers.eq_of_new hblank
  exact ⟨rfl, .new Flag.isSet_set (hadmitted.delays .f1ToF2), .new rfl (hadmitted.delays .f2ToD),
    .new rfl (hadmitted.delays .dToE)⟩

end Pipeline

/-- A queue of `size` places behind a register of delay `delay` has no more than fits, with all that
is on its way. Where nothing is on its way but what stands at the output, not even the queue that
has just taken that in has more than its places. -/
structure Queue.Backed (q : Queue α) (r : Register α) (size delay : Nat) : Prop where
  bound : q.entries.length + (present r.line.slots).length ≤ size + delay - 1
  direct : delay = 1 → (q.push r.output).entries.length ≤ size

theorem Link.backed {q : Queue α} {r : Register α} {size delay : Nat}
    (h : Link q r size delay) : q.Backed r size delay := by
  refine ⟨h.length_le, ?_⟩
  rintro rfl
  exact h.length_push_le

/-- **Backpressure bounds every queue.** In every state of a run in which no register is corrupted,
the entries of a queue and what is on its way to it are no more than the places of the queue and the
delay of its register allow, less one. -/
theorem Session.Reached.backpressure {c : Config} {m : Image} {s : Session}
    (hc : c.faults.register = "") (h : Reached c m s) :
    s.pipeline.stages.slicer.input.Backed s.pipeline.registers.f1ToF2
        c.pipeline.lineQueue.toNat c.pipeline.delays.f1ToF2.toNat ∧
      s.pipeline.stages.decode.input.Backed s.pipeline.registers.f2ToD
        c.pipeline.decodeQueue.toNat c.pipeline.delays.f2ToD.toNat ∧
      s.pipeline.stages.execute.input.Backed s.pipeline.registers.dToE
        c.pipeline.executeQueue.toNat c.pipeline.delays.dToE.toNat := by
  have hheeded : s.pipeline.Heeded c.pipeline :=
    h.pipeline_induction (fun hnew => Pipeline.heeded_of_new hc hnew)
      (fun _ now h => h.evaluate now) (fun _ t h => h.wakeFetch t) (fun _ h => h.drain)
      (fun _ n h => h.resume n)
  exact ⟨hheeded.lines.backed, hheeded.cut.backed, hheeded.decoded.backed⟩

/-- Queues of one place, before a unit that is slow. -/
def Config.jammed : Config :=
  { pipeline := { width := 1, lineBytes := 8, lineQueue := 1, decodeQueue := 1, executeQueue := 1,
                  fetchLatency := 0, units := 1, executeLatency := 15,
                  delays := ⟨1, 2, 1, 1, 1⟩ } }

/-- Eight plain words. -/
def Image.plain : Image := .ofWords 0x80000000 (List.replicate 8 19)

/-- Nine steps after the thread was woken every bound is met: the queues before the slicer and
execute are full, and that before decode has a bundle more than it has places. -/
theorem backpressure_jammed : ∃ s, Session.Reached .jammed .plain s ∧
    (s.pipeline.stages.slicer.input.entries.length = 1 ∧
      s.pipeline.stages.decode.input.entries.length = 2 ∧
      s.pipeline.stages.execute.input.entries.length = 1) ∧
    (s.pipeline.stages.slicer.input.Backed s.pipeline.registers.f1ToF2 1 1 ∧
      s.pipeline.stages.decode.input.Backed s.pipeline.registers.f2ToD 1 2 ∧
      s.pipeline.stages.execute.input.Backed s.pipeline.registers.dToE 1 1) := by
  obtain ⟨s, hreached, hfull⟩ : ∃ s, Session.Reached .jammed .plain s ∧
      (s.pipeline.stages.slicer.input.entries.length = 1 ∧
        s.pipeline.stages.decode.input.entries.length = 2 ∧
        s.pipeline.stages.execute.input.entries.length = 1) :=
    ⟨_, ⟨_, .wake 0 :: List.replicate 9 .step, rfl, rfl⟩, by decide +kernel⟩
  exact ⟨s, hreached, hfull, hreached.backpressure rfl⟩

end InOrder
