import InOrder.Proofs.Pipeline.Faults
import InOrder.Proofs.Pipeline.Lanes
import InOrder.Proofs.Stage.Discard

/-!
# Pipelines with sound registers

`Pipeline.Steady` is what holds of a pipeline between cycles when no register is corrupted, whether
functional units are or not. A flip in a unit changes an instruction that is issued already, so it
does not touch the numbers of a lane (`Pipeline.Steady.numbered`), which grow with every cycle.

Nothing but what a stage sends is written to a register, so its empty slots are blank
(`Register.Tidy`), and an empty register stays as it is when nothing comes
(`Register.Tidy.line_idle`).
-/

namespace InOrder

/-! ## Empty slots -/

namespace DelayLine

variable {α : Type}

/-- A line with nothing but blank slots is a new one. -/
theorem eq_new {l : DelayLine α} (h : ∀ a ∈ l.slots, a = l.blank) : l = .new l.depth l.blank := by
  obtain ⟨blank, output, middle, input⟩ := l
  have houtput : output = blank := h output List.mem_cons_self
  have hinput : input = blank :=
    h input (List.mem_cons_of_mem _ (List.mem_append_right _ List.mem_cons_self))
  have hmiddle : middle = List.replicate middle.length blank :=
    List.eq_replicate_iff.mpr ⟨rfl, fun a ha =>
      h a (List.mem_cons_of_mem _ (List.mem_append_left _ ha))⟩
  rw [houtput, hinput, new, depth, Nat.add_sub_cancel, ← hmiddle]

/-- A cycle does not change a blank line. -/
theorem advance_new (depth : Nat) (blank : α) : (new depth blank).advance = new depth blank := by
  unfold advance new
  cases depth - 1 with
  | zero => rfl
  | succ n =>
    simp only [List.replicate_succ]
    rw [← List.replicate_succ', List.replicate_succ]

end DelayLine

namespace Register

variable {α : Type} [Payload α] {r : Register α} {w : Option α}

/-- What is no payload is blank. -/
def Tidy (r : Register α) : Prop := ∀ a ∈ r.line.slots, Payload.isBubble a = true → a = r.line.blank

theorem tidy_new (name : String) (edge : Edge) (depth : Nat) (blank : α) (flip : Option Flip) :
    (⟨name, edge, .new depth blank, flip⟩ : Register α).Tidy := by
  intro a ha _
  rcases List.mem_cons.mp ha with rfl | ha
  · rfl
  · rcases List.mem_append.mp ha with ha | ha
    · exact List.eq_of_mem_replicate ha
    · exact List.mem_singleton.mp ha

/-- A cycle does not change what stands in an empty slot. -/
theorem blank_cycle {α : Type} (r : Register α) (w : Option α) :
    (r.write? w).advance.line.blank = r.line.blank := by
  rw [← blank_write? r w]
  unfold advance DelayLine.advance
  split <;> rfl

/-- A cycle in which a payload is written, or nothing, keeps a register tidy. -/
theorem Tidy.cycle (h : r.Tidy) (hw : ∀ a, w = some a → Payload.isBubble a = false) :
    (r.write? w).advance.Tidy := by
  have hblank := r.blank_cycle w
  have hwritten : ∀ a ∈ (r.write? w).line.slots, Payload.isBubble a = true →
      a = r.line.blank := by
    cases w with
    | none => exact h
    | some b =>
      intro a ha hbubble
      have hslots : (r.write? (some b)).line.slots = _ := DelayLine.slots_write r.line b
      rw [hslots] at ha
      rcases List.mem_append.mp ha with ha | ha
      · exact h a (List.dropLast_subset _ ha) hbubble
      · rw [List.mem_singleton.mp ha, hw b rfl] at hbubble
        exact Bool.noConfusion hbubble
  intro a ha hbubble
  have hslots : (r.write? w).advance.line.slots = _ := DelayLine.slots_advance _
  rw [hslots] at ha
  rw [hblank]
  rcases List.mem_append.mp ha with ha | ha
  · exact hwritten a (List.mem_of_mem_tail ha) hbubble
  · rw [List.mem_singleton.mp ha]
    exact blank_write? r w

/-- **An empty register to which nothing is written stays as it is.** -/
theorem Tidy.line_idle (h : r.Tidy) (hempty : r.isEmpty = true) :
    (r.write? none).advance.line = r.line := by
  have hnew : r.line = .new r.line.depth r.line.blank :=
    DelayLine.eq_new fun a ha => h a ha (List.all_eq_true.mp hempty a ha)
  show r.line.advance = r.line
  rw [hnew, DelayLine.advance_new]

end Register

/-- What a stage sends is no bubble. -/
structure Writes.Live (w : Writes) : Prop where
  line : ∀ l, w.f1ToF2 = some l → Payload.isBubble l = false
  cut : ∀ b, w.f2ToD = some b → Payload.isBubble b = false
  decoded : ∀ b, w.dToE = some b → Payload.isBubble b = false
  redirect : ∀ r, w.eToF1 = some r → Payload.isBubble r = false

/-- The registers forward are tidy, and so is that of the redirects. -/
structure Registers.Tidy (rs : Registers) : Prop where
  lines : rs.f1ToF2.Tidy
  cut : rs.f2ToD.Tidy
  decoded : rs.dToE.Tidy
  redirects : rs.eToF1.Tidy

theorem Registers.Tidy.cycle {rs : Registers} (h : rs.Tidy) {w : Writes} (hw : w.Live) :
    (rs.write w).advance.Tidy :=
  ⟨h.lines.cycle hw.line, h.cut.cycle hw.cut, h.decoded.cycle hw.decoded,
    h.redirects.cycle hw.redirect⟩

/-! ## What decode sends -/

/-- No bubble is queued. -/
def Queue.Live {α : Type} [Payload α] (q : Queue α) : Prop :=
  ∀ a ∈ q.entries, Payload.isBubble a = false

/-- Decode sends and keeps what it had and what came. -/
theorem Decode.live_evaluate {s : Decode} (h : s.input.Live) (b : Bundle) (room : Bool) :
    (s.evaluate b room).stage.input.Live ∧
      ∀ b', (s.evaluate b room).bundle = some b' → Payload.isBubble b' = false := by
  have hpush : (s.input.push b).Live := by
    intro a ha
    rw [Queue.entries_push] at ha
    rcases List.mem_append.mp ha with ha | ha
    · exact h a ha
    · exact (mem_present.mp ha).2
  unfold evaluate
  cases room with
  | false => exact ⟨hpush, fun _ hnone => nomatch hnone⟩
  | true =>
    unfold Queue.pop
    simp only [if_true]
    cases hentries : (s.input.push b).entries with
    | nil => exact ⟨hpush, fun _ hnone => nomatch hnone⟩
    | cons b₀ rest =>
      refine ⟨fun a ha => hpush a (hentries ▸ List.mem_cons_of_mem b₀ ha), fun b' hb' => ?_⟩
      rw [← Option.some.inj hb']
      exact hpush b₀ (hentries ▸ List.mem_cons_self)

/-- **What sound stages write is no bubble.** -/
theorem Stages.live_evaluate {c : Config} {m : Image} {cycles : Nat} {s : Stages}
    (h : s.Sound c m cycles) (hqueue : s.decode.input.Live) (cycle : Nat) {o : Outputs}
    (hb : Payload.isBubble o.eToF1 = false → o.eToF1.Sent c.host.threads.toNat) :
    (s.evaluate cycle o).writes.Live ∧ (s.evaluate cycle o).stages.decode.input.Live := by
  have hwrites := (h.evaluate cycle hb).2
  obtain ⟨hkept, hsent⟩ := Decode.live_evaluate hqueue o.f2ToD
    (s.execute.evaluate cycle o.dToE).stage.input.hasRoom
  refine ⟨⟨fun l hl => ?_, fun b hcut => ?_, hsent, fun r hr => (hwrites.redirect r hr).live⟩, hkept⟩
  · have hmem : l ∈ present (s.evaluate cycle o).writes.f1ToF2.toList := by
      rw [hwrites.line, hl]
      exact List.mem_singleton_self l
    exact (mem_present.mp hmem).2
  · have hmade := (Slicer.stream_of_bundle h.slicer.entered h.slicer.width hcut).1
    exact Bool.eq_false_iff.mpr fun hbubble => hmade (Bundle.tagged_of_bubble hbubble)

/-! ## Numbers that grow -/

namespace Lane

variable {k : Track} {v w : Lane}

/-- What was issued has no number. -/
theorem Numbered.reissued (h : v.Numbered) (issued : List (UInt64 × UInt32)) :
    ({ v with issued } : Lane).Numbered := { h with }

/-- **The line fetch goes on to later streams only.** -/
theorem Numbered.stream_le (hk : ∀ x, k.fresh x → x ≠ firstSeq) (h : v.Numbered)
    (hs : Steps k v w) : ordinal v.fetch.streamSeq ≤ ordinal w.fetch.streamSeq := by
  induction hs with
  | refl => exact Nat.le_refl _
  | tail hpre hlast ih =>
    refine Nat.le_trans ih ?_
    have hn := h.steps hk hpre
    cases hlast with
    | follow r rest ps hredirects hps => exact (hn.arrive hredirects (Nat.le_refl _)).1
    | squash | issue | raise | halt | drop | cut | cutJump | overtake | heed | ignore | forget
      | request | wake => exact Nat.le_refl _

end Lane

namespace Pipeline

/-! ## What a cycle keeps -/

/-- What holds of a pipeline between cycles when no register is corrupted. -/
structure Steady (c : Config) (m : Image) (p : Pipeline Stages) : Prop where
  stages : p.stages.Sound c m p.stats.cycles
  registers : p.registers.Sound c.host.threads.toNat
  waiting : p.faults.waiting = []
  tidy : p.registers.Tidy
  queued : p.stages.decode.input.Live

variable {c : Config} {m : Image} {p : Pipeline Stages} {t : UInt32}

/-- A new pipeline is steady. -/
theorem steady_unused (hc : c.Admitted) {blank : Registers}
    (hblank : Registers.new owner c.pipeline = .ok blank) (m : Image) :
    (unused c (.new owner c m) blank {}).Steady c m := by
  obtain ⟨hsound, -⟩ := Registers.of_new_eq_ok hblank c.host.threads.toNat
  have htidy : blank.Tidy := by
    obtain rfl := Registers.eq_of_new hblank
    constructor <;> exact Register.tidy_new _ _ _ _ _
  exact ⟨Stages.sound_new hc.width_le m, hsound, rfl, htidy, fun b hb => absurd hb List.not_mem_nil⟩

/-- Flips in the units leave the stages sound. -/
theorem Steady.struck (h : p.Steady c m) (now : Nat) :
    (p.struck now).stages.Sound c m p.stats.cycles ∧
      (p.struck now).stages.decode = p.stages.decode := by
  obtain ⟨units, hstages, halike⟩ := p.stages_struck now
  have hthreads : units.map InFlight.thread = p.stages.execute.units.map InFlight.thread :=
    InFlight.Alike.map_eq (fun _ _ => rfl) halike
  have hunits : ∀ f ∈ units, f.thread.toNat < c.host.threads.toNat := by
    intro f hf
    obtain ⟨f', hf', heq⟩ := List.mem_map.mp (hthreads ▸ List.mem_map_of_mem hf)
    exact heq ▸ h.stages.execute.units f' hf'
  rw [hstages]
  exact ⟨⟨h.stages.lineFetch, h.stages.slicer, h.stages.predicts, h.stages.execute.indexed,
    h.stages.execute.length, hunits, h.stages.execute.bound⟩, rfl⟩

/-- The redirect that arrives is one that was sent. -/
theorem Steady.sent (h : p.Steady c m) (hlive : Payload.isBubble p.registers.eToF1.output = false) :
    p.registers.eToF1.output.Sent c.host.threads.toNat :=
  h.registers.sent _ (Register.output_mem_held hlive)

/-- **A cycle keeps a pipeline steady.** -/
theorem Steady.evaluate (h : p.Steady c m) (now : Nat) : (p.evaluate now).pipeline.Steady c m := by
  obtain ⟨hregisters, hfaults⟩ := registers_struck now h.waiting
  obtain ⟨hstages', hregisters', hcycles, hfaults'⟩ := p.evaluate_struck now
  obtain ⟨hsound, hdecode⟩ := h.struck now
  rw [hregisters] at hregisters'
  have hwork : p.struckWork now =
      (p.struck now).stages.evaluate (p.stats.cycles + 1) p.registers.outputs := by
    rw [struckWork, hregisters]
  have hsent : Payload.isBubble p.registers.outputs.eToF1 = false → _ := h.sent
  obtain ⟨hsound', hwrites⟩ := hsound.evaluate (p.stats.cycles + 1) hsent
  obtain ⟨hlive, hqueued⟩ := Stages.live_evaluate hsound (hdecode.symm ▸ h.queued)
    (p.stats.cycles + 1) hsent
  rw [hwork] at hstages' hregisters'
  refine ⟨?_, ?_, ?_, ?_, ?_⟩
  · rw [hstages', hcycles]
    exact hsound'
  · rw [hregisters']
    exact h.registers.cycle hwrites
  · rw [hfaults', hfaults, h.waiting]
  · rw [hregisters']
    exact h.tidy.cycle hlive
  · rw [hstages']
    exact hqueued

theorem Steady.wakeFetch (h : p.Steady c m) (t : UInt32) : (p.wakeFetch t).1.Steady c m :=
  { h with stages := { h.stages with lineFetch := h.stages.lineFetch.wake t } }

/-- **Flips in the units do not touch the numbers of a lane**, and its stream only grows. -/
theorem Steady.numbered (h : p.Steady c m) (ht : t.toNat < c.host.threads.toNat)
    (hcycles : p.stats.cycles + 1 < UInt64.size) (now : Nat) {history : History}
    (hn : (p.lane history t).Numbered) :
    let lane' := (p.evaluate now).pipeline.lane { history with
      retired := history.retired ++ (p.evaluate now).retired
      overtaken := history.overtaken ++ p.overtaken } t
    lane'.Numbered ∧
      ordinal (p.lane history t).fetch.streamSeq ≤ ordinal lane'.fetch.streamSeq := by
  obtain ⟨hregisters, -⟩ := registers_struck now h.waiting
  obtain ⟨hstages', hregisters', -, -⟩ := p.evaluate_struck now
  have hretired := (p.evaluate_eq_finished now).2
  have hfresh : ∀ x, ordinal x ≤ p.stats.cycles → x + 1 ≠ firstSeq := fun x hx =>
    add_one_ne_firstSeq hx hcycles
  have hsteps : Lane.Steps (c.track m (· ≠ firstSeq) t)
      (laneOf (p.struck now).stages p.registers history t) _ :=
    laneOf_evaluate (h.struck now).1 h.registers ht hfresh (p.stats.cycles + 1) history
  -- only what was issued is another in the lane that the flips leave
  have hstruck : ∃ issued, laneOf (p.struck now).stages p.registers history t =
      { p.lane history t with issued } := by
    obtain ⟨units, hstages, -⟩ := p.stages_struck now
    rw [hstages]
    exact ⟨_, rfl⟩
  obtain ⟨issued, hstruck⟩ := hstruck
  rw [struckWork, hregisters] at hstages' hregisters' hretired
  rw [hstruck, ← hstages', ← hregisters', ← hretired] at hsteps
  have hreissued := hn.reissued issued
  have hgrows := hreissued.stream_le (fun _ hx => hx) hsteps
  exact ⟨hreissued.steps (fun _ hx => hx) hsteps, hgrows⟩

end Pipeline

end InOrder
