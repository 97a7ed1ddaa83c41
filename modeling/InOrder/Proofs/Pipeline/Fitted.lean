import InOrder.Proofs.Pipeline.Lifecycle
import InOrder.Proofs.Stage.Discard
import InOrder.Proofs.Stage.Squash
import InOrder.Proofs.Stage.Supply

/-!
# The settings in a pipeline

A pipeline takes its sizes from its configuration when it is made, and nothing changes them
afterwards: neither a cycle nor a call of the host (`Pipeline.Fitted`).
-/

namespace InOrder

/-- Queues have places, bundles have slots, and there are units. -/
structure Stages.Sized (s : Stages) : Prop where
  lines : 0 < s.slicer.input.capacity
  bundles : 0 < s.decode.input.capacity
  queued : 0 < s.execute.input.capacity
  width : 0 < s.slicer.width
  units : 0 < s.execute.unitCount

theorem Stages.Sized.evaluate {s : Stages} (h : s.Sized) (cycle : Nat) (o : Outputs) :
    (s.evaluate cycle o).stages.Sized := by
  obtain ⟨-, hunits, hqueued⟩ := s.execute.settings_evaluate cycle o.dToE
  dsimp only [Stages.evaluate]
  refine ⟨?_, ?_, hqueued.symm ▸ h.queued, ?_, hunits.symm ▸ h.units⟩
  · rw [Slicer.capacity_evaluate]
    exact h.lines
  · rw [Decode.capacity_evaluate]
    exact h.bundles
  · rw [(s.slicer.width_evaluate o.f1ToF2 o.eToF1 _).1]
    exact h.width

/-- The bundles that there is room for behind the slicer, in queues and registers. -/
def Stages.room (s : Stages) (rs : Registers) : Nat :=
  s.execute.input.capacity + rs.dToE.row.length + (s.decode.input.capacity + rs.f2ToD.row.length)

theorem Stages.room_evaluate (s : Stages) (cycle : Nat) (o : Outputs) {rs rs' : Registers}
    (hdecoded : rs'.dToE.row.length = rs.dToE.row.length)
    (hcut : rs'.f2ToD.row.length = rs.f2ToD.row.length) :
    (s.evaluate cycle o).stages.room rs' = s.room rs := by
  obtain ⟨-, -, hqueued⟩ := s.execute.settings_evaluate cycle o.dToE
  dsimp only [Stages.evaluate, room]
  rw [hqueued, Decode.capacity_evaluate, hdecoded, hcut]

/-- The bundles that a configuration gives room for. -/
def PipelineConfig.room (c : PipelineConfig) : Nat :=
  c.executeQueue.toNat + c.delays.dToE.toNat + (c.decodeQueue.toNat + c.delays.f2ToD.toNat)

namespace Pipeline

/-- The sizes of a pipeline are those of its configuration. -/
structure Fitted (c : Config) (p : Pipeline Stages) : Prop where
  sized : p.stages.Sized
  room : p.stages.room p.registers = c.pipeline.room
  row : p.registers.eToF1.row.length = c.pipeline.delays.eToF1.toNat
  idling : p.allowIdling = c.pipeline.idling
  activity : p.activity.Tallied c.pipeline.longestForwardDelay

variable {c : Config} {p : Pipeline Stages}

theorem Fitted.worked (h : p.Fitted c) (now : Nat) : (p.worked now).Fitted c where
  sized := Stages.Sized.evaluate (s := p.polled now)
    ⟨h.sized.lines, h.sized.bundles, h.sized.queued, h.sized.width, h.sized.units⟩ _ _
  room := (Stages.room_evaluate (p.polled now) _ _ (Register.length_row_cycle _ _)
    (Register.length_row_cycle _ _)).trans h.room
  row := (Register.length_row_cycle _ _).trans h.row
  idling := h.idling
  activity := (h.activity.advance (p.work now).busy).1

theorem Fitted.idle (h : p.Fitted c) : p.idle.1.Fitted c := by
  unfold Pipeline.idle
  split
  · exact ⟨h.sized, h.room, h.row, h.idling, h.activity.unmarkAll.1⟩
  · exact h

theorem Fitted.settle (h : p.Fitted c) : p.settle.1.Fitted c := by
  unfold Pipeline.settle
  split
  · split
    · exact ⟨h.sized, h.room, h.row, h.idling, h.activity⟩
    · exact h
  · exact h

/-- **A cycle keeps the sizes of a pipeline.** -/
theorem Fitted.evaluate (h : p.Fitted c) (hwaiting : p.faults.waiting = [])
    (hunits : p.unitMode = none) (now : Nat) : (p.evaluate now).pipeline.Fitted c := by
  rw [(evaluate_eq_worked hwaiting hunits now).1]
  exact (h.worked now).idle.settle

theorem Fitted.wakeFetch (h : p.Fitted c) (t : UInt32) : (p.wakeFetch t).1.Fitted c :=
  ⟨⟨h.sized.lines, h.sized.bundles, h.sized.queued, h.sized.width, h.sized.units⟩, h.room,
    h.row, h.idling, h.activity.mark .fetch1⟩

theorem Fitted.wakeAll (ts : List UInt32) : ∀ {p : Pipeline Stages}, p.Fitted c →
    (p.wakeAll ts).1.Fitted c :=
  wakeAll_induction (fun _ t h => h.wakeFetch t) ts

theorem Fitted.drain (h : p.Fitted c) : p.drain.1.Fitted c := by
  have hsized : (StageSet.drain p.stages).Sized :=
    ⟨h.sized.lines, h.sized.bundles, h.sized.queued, h.sized.width, h.sized.units⟩
  unfold Pipeline.drain
  simp only
  split <;> exact ⟨hsized, h.room, h.row, h.idling, h.activity⟩

theorem Fitted.resume (h : p.Fitted c) (n : Nat) : (p.resume n).1.Fitted c := by
  have hwoken := Fitted.wakeAll (threadNumbers n) h
  exact ⟨⟨hwoken.sized.lines, hwoken.sized.bundles, hwoken.sized.queued, hwoken.sized.width,
    hwoken.sized.units⟩, hwoken.room, hwoken.row, hwoken.idling, hwoken.activity⟩

end Pipeline

end InOrder
