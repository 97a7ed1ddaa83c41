import InOrder.Proofs.Masked
import InOrder.Proofs.Machine.Basic
import InOrder.Proofs.Pipeline.UnitData

/-!
# Faults in the units change data and no control

Two sessions start from configurations that differ only in the faults in the units, and the same is
called. As nothing but retirement looks into a unit, they agree but for the words in the units
(`Session.after_of_masked`). So the same micro-ops are issued in each cycle, and what the faults
make of them is a matter of the units alone (`Session.unitData_after_of_masked`).

* `Session.corrupts_one`: control is the same; and where one session flips one bit and the other has
  no faults, one instruction differs in this bit, and the signatures are apart once it has retired.
-/

namespace InOrder

/-- The configuration with other faults in the units. -/
def Config.withUnitFaults (c : Config) (unit : Bool) (unitMode : UnitMode) (unitBit : UInt64) :
    Config :=
  { c with faults := { c.faults with unit, unitMode, unitBit } }

namespace Session

/-- What corrupted units concern of a session. -/
def unitData (s : Session) : UnitData := s.pipeline.unitData s.history.retired

variable {s s' : Session}

theorem unitData_step (hruns : s.pipeline.running = true) : s.step.unitData =
    (s.pipeline.evaluate (s.simulator.tick + s.simulator.period)).pipeline.unitData
      (s.history.retired ++
        (s.pipeline.evaluate (s.simulator.tick + s.simulator.period)).retired) := by
  obtain ⟨hpipeline, hhistory⟩ := pipeline_step hruns
  rw [unitData, hpipeline, hhistory]

/-- **A step of two sessions that agree but for their units is a cycle of what these concern**, in
which the same micro-ops are issued. -/
theorem unitData_step_of_masked (h : s'.masked = s.masked) (hruns : s.pipeline.running = true) :
    ∃ x, s.step.unitData = s.unitData.cycle x ∧ s'.step.unitData = s'.unitData.cycle x := by
  obtain ⟨htick, hperiod, hrunning⟩ := Simulator.goes_of_masked (eq_of_masked h).1
  have hp := pipeline_of_masked h
  have hcycles : s'.pipeline.stats.cycles = s.pipeline.stats.cycles := by
    obtain ⟨execute, unitMode, unitFlipped, heq, -⟩ := Pipeline.eq_of_masked hp
    rw [heq]
  obtain ⟨execute, unitMode, unitFlipped, heq, hexecute⟩ := Pipeline.eq_of_masked
    (Pipeline.struck_of_masked hp (s.simulator.tick + s.simulator.period))
  obtain ⟨⟨started, hstarted, hstarted'⟩, -⟩ := Execute.evaluate_of_masked hexecute
    (s.pipeline.stats.cycles + 1)
    (s.pipeline.struck (s.simulator.tick + s.simulator.period)).registers.outputs.dToE
  refine ⟨(s.pipeline.stats.cycles + 1, started), ?_, ?_⟩
  · rw [unitData_step hruns]
    exact s.pipeline.unitData_evaluate _ _ hstarted
  · rw [unitData_step (hrunning.trans hruns), htick, hperiod, ← hcycles]
    refine s'.pipeline.unitData_evaluate _ _ ?_
    rw [Pipeline.struckWork, heq, hcycles]
    exact hstarted'

/-- No other call concerns the units. -/
theorem unitData_perform {call : Call} (hstep : call ≠ .step) (hrun : ∀ limit, call ≠ .run limit) :
    (s.perform call).unitData = s.unitData := by
  have hwakeAll : ∀ (ts : List UInt32) (p : Pipeline Stages),
      (p.wakeAll ts).1.unitData s.history.retired = p.unitData s.history.retired := fun ts p =>
    Pipeline.wakeAll_induction (P := fun q => q.unitData s.history.retired =
      p.unitData s.history.retired) (fun _ _ h => h) ts rfl
  cases call with
  | step => exact absurd rfl hstep
  | run limit => exact absurd rfl (hrun limit)
  | wake t => rfl
  | wakeAll => exact hwakeAll _ s.pipeline
  | drain =>
    show s.pipeline.drain.1.unitData s.history.retired = s.pipeline.unitData s.history.retired
    unfold Pipeline.drain
    dsimp only
    split <;> rfl
  | resume => exact hwakeAll _ s.pipeline

/-- Cycles of the units lead from `s` to `t` and from `s'` to `t'`, and the same micro-ops are issued
in them. -/
def Worked (s s' t t' : Session) : Prop :=
  ∃ xs, t.unitData = s.unitData.cycles xs ∧ t'.unitData = s'.unitData.cycles xs

namespace Worked

variable {t t' u u' : Session}

theorem refl (s s' : Session) : Worked s s' s s' := ⟨[], rfl, rfl⟩

theorem trans (h : Worked s s' t t') (h' : Worked t t' u u') : Worked s s' u u' := by
  obtain ⟨xs, hxs, hxs'⟩ := h
  obtain ⟨ys, hys, hys'⟩ := h'
  refine ⟨xs ++ ys, ?_, ?_⟩
  · rw [UnitData.cycles_append, ← hxs, hys]
  · rw [UnitData.cycles_append, ← hxs', hys']

theorem step (h : s'.masked = s.masked) : Worked s s' s.step s'.step := by
  cases hruns : s.pipeline.running with
  | true =>
    obtain ⟨x, hx, hx'⟩ := unitData_step_of_masked h hruns
    exact ⟨[x], hx, hx'⟩
  | false =>
    have hruns' := (Simulator.goes_of_masked (eq_of_masked h).1).2.2.trans hruns
    obtain ⟨hp, hh⟩ := pipeline_step_of_stopped hruns
    obtain ⟨hp', hh'⟩ := pipeline_step_of_stopped hruns'
    exact ⟨[], by rw [unitData, hp, hh]; rfl, by rw [unitData, hp', hh']; rfl⟩

theorem iterate (n : Nat) {s s' : Session} (h : s'.masked = s.masked) :
    Worked s s' (Session.step^[n] s) (Session.step^[n] s') := by
  induction n generalizing s s' with
  | zero => exact .refl s s'
  | succ n ih => exact (step h).trans (ih (step_of_masked h))

theorem perform (h : s'.masked = s.masked) (call : Call) :
    Worked s s' (s.perform call) (s'.perform call) := by
  by_cases hone : call = .step
  · exact hone ▸ step h
  · by_cases hrun : ∃ limit, call = .run limit
    · obtain ⟨limit, rfl⟩ := hrun
      obtain ⟨n, hn, hn'⟩ := run_of_masked limit h
      show Worked s s' (s.run limit) (s'.run limit)
      rw [hn, hn']
      exact iterate n h
    · have hrun' : ∀ limit, call ≠ .run limit := fun limit heq => hrun ⟨limit, heq⟩
      exact ⟨[], unitData_perform hone hrun', unitData_perform hone hrun'⟩

end Worked

/-- **What calls make of the units is a number of cycles**, in which the same micro-ops are issued
whatever is in the units. -/
theorem unitData_after_of_masked (calls : List Call) {s s' : Session} (h : s'.masked = s.masked) :
    Worked s s' (s.after calls) (s'.after calls) := by
  induction calls generalizing s s' with
  | nil => exact .refl s s'
  | cons call calls ih => exact (Worked.perform h call).trans (ih (perform_of_masked h call))

/-! ## The start -/

variable {c : Config} {m : Image} {unit : Bool} {unitMode : UnitMode} {unitBit : UInt64}

/-- A new session has nothing in its units. -/
theorem unitData_of_new (h : new c m = .ok s) : s.unitData =
    { retired := [], units := [], signature := Signature.seed, bit := c.faults.unitBit.toNat
      mode := if c.faults.unit then some c.faults.unitMode else none, flipped := false } := by
  obtain ⟨⟨events, hsimulator⟩, hhistory⟩ := simulator_of_new h
  obtain ⟨⟨told, hpipeline⟩, -⟩ := Simulator.of_new_eq_ok hsimulator
  obtain ⟨blank, registers, faults, scheduled, -, -, -, heq⟩ := Pipeline.of_new_eq_ok hpipeline
  rw [unitData, pipeline, heq, hhistory]
  rfl

/-- The bit that is flipped is one of a word. -/
theorem unitBit_lt_of_new (h : new c m = .ok s) : c.faults.unitBit.toNat < 32 := by
  obtain ⟨⟨events, hsimulator⟩, -⟩ := simulator_of_new h
  obtain ⟨⟨told, hpipeline⟩, -⟩ := Simulator.of_new_eq_ok hsimulator
  obtain ⟨_, hcheck, -⟩ := of_bind_eq_ok hpipeline
  obtain ⟨_, -, hcheck⟩ := of_bind_eq_ok hcheck
  obtain ⟨_, -, hcheck⟩ := of_bind_eq_ok hcheck
  obtain ⟨_, -, hcheck⟩ := of_bind_eq_ok hcheck
  exact of_decide_eq_true (of_requireBound hcheck)

/-- New sessions that differ only in the faults in their units agree but for their units. -/
theorem masked_of_new (hs : new c m = .ok s)
    (hs' : new (c.withUnitFaults unit unitMode unitBit) m = .ok s') : s'.masked = s.masked := by
  obtain ⟨⟨events, hsimulator⟩, hhistory⟩ := simulator_of_new hs
  obtain ⟨⟨events', hsimulator'⟩, hhistory'⟩ := simulator_of_new hs'
  obtain ⟨⟨told, hpipeline⟩, hhost, hperiod⟩ := Simulator.of_new_eq_ok hsimulator
  obtain ⟨⟨told', hpipeline'⟩, hhost', hperiod'⟩ := Simulator.of_new_eq_ok hsimulator'
  obtain ⟨blank, registers, faults, scheduled, -, hblank, hfault, heq⟩ :=
    Pipeline.of_new_eq_ok hpipeline
  obtain ⟨blank', registers', faults', scheduled', -, hblank', hfault', heq'⟩ :=
    Pipeline.of_new_eq_ok hpipeline'
  obtain rfl := Except.ok.inj (hblank.symm.trans hblank')
  obtain ⟨rfl, rfl, rfl⟩ := Except.ok.inj (hfault.symm.trans hfault')
  obtain ⟨⟨host, period, hpos⟩, history⟩ := s
  obtain ⟨⟨host', period', hpos'⟩, history'⟩ := s'
  obtain rfl : host = .ofPipeline c _ := hhost.trans (congrArg (Host.ofPipeline c) heq)
  obtain rfl : host' = .ofPipeline c _ := hhost'.trans (congrArg (Host.ofPipeline c) heq')
  obtain rfl : history = {} := hhistory
  obtain rfl : history' = {} := hhistory'
  obtain rfl : period = c.host.clockPeriod.toNat := hperiod
  obtain rfl : period' = c.host.clockPeriod.toNat := hperiod'
  rfl

/-! ## Two sessions with other faults in their units -/

/-- No call takes back what has retired. -/
theorem retired_le_after (s : Session) (calls : List Call) :
    s.history.retired.length ≤ (s.after calls).history.retired.length := by
  refine after_induction
    (P := fun s' => s.history.retired.length ≤ s'.history.retired.length) (fun s' h => ?_)
    (fun _ _ h => h) (fun _ h => h) (fun _ h => h) calls (fun _ _ h => h) (Nat.le_refl _)
  refine Nat.le_trans h ?_
  show _ ≤ (s'.history.retired ++ s'.simulator.step.retired).length
  rw [List.length_append]
  exact Nat.le_add_right _ _

/-- As much has retired from sessions that agree but for their units. -/
theorem retired_of_masked (h : s'.masked = s.masked) :
    s'.pipeline.retired = s.pipeline.retired := by
  obtain ⟨execute, mode, flipped, heq, hexecute⟩ := Pipeline.eq_of_masked (pipeline_of_masked h)
  have hretired := congrArg Execute.retired (Execute.eq_of_masked hexecute).1
  rw [heq]
  exact hretired

/-- **When a bit was flipped in one of two new sessions, and the other has no faults in its units,
one of the instructions that were issued differs in this bit.** -/
theorem apart_of_flipped {calls : List Call} (hs : new c m = .ok s)
    (hs' : new (c.withUnitFaults true .oneShot unitBit) m = .ok s') (hnone : c.faults.unit = false)
    (hflipped : (s'.after calls).pipeline.unitFlipped = true) :
    ∃ before r r', r.FlippedAt unitBit.toNat r' ∧
      UnitData.Apart before r r' (s.after calls).unitData (s'.after calls).unitData ∧
        (s.after calls).unitData.Signed ∧ (s'.after calls).unitData.Signed := by
  have hstart : UnitData.Together s.unitData s'.unitData := by
    rw [unitData_of_new hs, unitData_of_new hs', hnone]
    exact ⟨rfl, rfl, rfl, rfl, rfl⟩
  have hsigned : s.unitData.Signed := by
    rw [unitData_of_new hs]
    rfl
  have hsigned' : s'.unitData.Signed := by
    rw [unitData_of_new hs']
    rfl
  have hunitBit : s'.unitData.bit % 32 = unitBit.toNat := by
    rw [unitData_of_new hs']
    exact Nat.mod_eq_of_lt (unitBit_lt_of_new hs')
  obtain ⟨xs, hxs, hxs'⟩ := unitData_after_of_masked calls (masked_of_new hs hs')
  rcases hstart.cycles xs with htogether | ⟨before, r, r', hflip, hapart⟩
  · rw [← hxs'] at htogether
    exact absurd (htogether.waits.symm.trans hflipped) (by simp)
  · refine ⟨before, r, r', hunitBit ▸ hflip, ?_, ?_, ?_⟩
    · rw [hxs, hxs']; exact hapart
    · rw [hxs]; exact hsigned.cycles xs
    · rw [hxs']; exact hsigned'.cycles xs

/-- Once a bit was flipped, calls keep what differs, and the signatures tell if it has retired. -/
theorem apart_after {before : List Retired} {r r' : Retired} {bit : Nat}
    (hmasked : s'.masked = s.masked)
    (h : UnitData.Apart before r r' s.unitData s'.unitData) (hsigned : s.unitData.Signed)
    (hsigned' : s'.unitData.Signed) (hflip : r.FlippedAt bit r') (calls : List Call) :
    UnitData.Apart before r r' (s.after calls).unitData (s'.after calls).unitData ∧
      ((s'.after calls).pipeline.signature ≠ (s.after calls).pipeline.signature ↔
        before.length < (s.after calls).history.retired.length) := by
  obtain ⟨xs, hxs, hxs'⟩ := unitData_after_of_masked calls hmasked
  have hretired := (eq_of_masked (after_of_masked calls hmasked).1).2.2.2
  have hlength := congrArg List.length hretired
  rw [List.length_map, List.length_map] at hlength
  have hapart := h.cycles xs
  have hafter := hsigned.cycles xs
  have hafter' := hsigned'.cycles xs
  rw [← hxs, ← hxs'] at hapart
  rw [← hxs] at hafter
  rw [← hxs'] at hafter'
  exact ⟨hapart, hapart.signature_ne_iff hflip hafter hafter' hlength⟩

/-- **Faults in the units change data and no control.** Take two configurations that differ in
nothing but these faults, one image, and the same calls. What comes of them is the same but for the
instruction words in the units and in what has retired, the signature, and the settings of these
faults; as many instructions retire, and each in the same cycle.

If one of the two has no faults in its units, and the other flips one bit, then as soon as it has
done so exactly one of the instructions that were issued differs, in this bit of its word. The
signatures differ once it has retired, whatever is called afterwards. -/
theorem corrupts_one (hs : new c m = .ok s)
    (hs' : new (c.withUnitFaults unit unitMode unitBit) m = .ok s') :
    (∀ calls, (s'.after calls).masked = (s.after calls).masked ∧
      (s'.after calls).pipeline.retired = (s.after calls).pipeline.retired ∧
      s'.timeline calls = s.timeline calls) ∧
    (c.faults.unit = false → unit = true → unitMode = .oneShot →
      ∀ calls, (s'.after calls).pipeline.unitFlipped = true →
        ∃ before r r', r.FlippedAt unitBit.toNat r' ∧ ∀ more,
          let t := s.after (calls ++ more)
          let t' := s'.after (calls ++ more)
          t'.pipeline.unitFlipped = true ∧
            (∃ after, t.machine.ran = before ++ r :: after ∧
              t'.machine.ran = before ++ r' :: after) ∧
            (t'.pipeline.signature ≠ t.pipeline.signature ↔
              before.length < t.history.retired.length) ∧
            (t'.pipeline.signature ≠ t.pipeline.signature → ∀ later,
              (t'.after later).pipeline.signature ≠ (t.after later).pipeline.signature)) := by
  have hmasked := masked_of_new hs hs'
  refine ⟨fun calls => ?_, ?_⟩
  · obtain ⟨hafter, htimeline⟩ := after_of_masked calls hmasked
    exact ⟨hafter, retired_of_masked hafter, htimeline⟩
  · rintro hnone rfl rfl calls hflipped
    obtain ⟨before, r, r', hflip, hapart, hsigned, hsigned'⟩ :=
      apart_of_flipped hs hs' hnone hflipped
    have hmore := fun more =>
      apart_after (after_of_masked calls hmasked).1 hapart hsigned hsigned' hflip more
    refine ⟨before, r, r', hflip, fun more => ?_⟩
    dsimp only
    rw [after_append, after_append]
    obtain ⟨hnow, hiff⟩ := hmore more
    refine ⟨hnow.flipped, hnow.ran, hiff, fun hne later => ?_⟩
    obtain ⟨-, hiff'⟩ := hmore (more ++ later)
    rw [after_append, after_append] at hiff'
    exact hiff'.mpr (Nat.lt_of_lt_of_le (hiff.mp hne) (retired_le_after _ later))

end Session

/-- A jump over a word, and a word that suspends. -/
def Image.skip : Image := .ofWords 0x80000000 [0x0080006f, 19, 115]

/-- A run that is long enough for both instructions. -/
def skipRun : List Call := [.wakeAll, .step, .step, .run 30]

/-- Bit 7 of the jump is flipped in its unit. The jump still goes where it went and both
instructions retire when they did, but the signatures are apart for ever. -/
theorem corrupts_one_skip : ∃ s s', Session.new {} .skip = .ok s ∧
    Session.new (Config.withUnitFaults {} true .oneShot 7) .skip = .ok s' ∧
    (s'.after skipRun).pipeline.unitFlipped = true ∧
    s.timeline skipRun = [(6, 0, 0x80000000), (11, 0, 0x80000008)] ∧
    s'.timeline skipRun = s.timeline skipRun ∧
    ∀ later, ((s'.after skipRun).after later).pipeline.signature ≠
      ((s.after skipRun).after later).pipeline.signature := by
  obtain ⟨s, s', hs, hs', hflipped, htimeline, hsignature⟩ : ∃ s s',
      Session.new {} .skip = .ok s ∧
      Session.new (Config.withUnitFaults {} true .oneShot 7) .skip = .ok s' ∧
      (s'.after skipRun).pipeline.unitFlipped = true ∧
      s.timeline skipRun = [(6, 0, 0x80000000), (11, 0, 0x80000008)] ∧
      (s'.after skipRun).pipeline.signature ≠ (s.after skipRun).pipeline.signature :=
    ⟨_, _, rfl, rfl, by decide +kernel, by decide +kernel, by decide +kernel⟩
  obtain ⟨hsame, hone⟩ := Session.corrupts_one hs hs'
  obtain ⟨before, r, r', -, hmore⟩ := hone rfl rfl rfl skipRun hflipped
  exact ⟨s, s', hs, hs', hflipped, htimeline, (hsame skipRun).2.2, (hmore []).2.2.2 hsignature⟩

end InOrder
