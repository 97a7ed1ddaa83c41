import InOrder.Proofs.Pipeline.Start

/-!
# What is required of a configuration

The bounds of a configuration are looked at in three places: `Config.check` looks at all of them, a
register looks at its delay, and the register to corrupt is resolved again when a pipeline is made.
Here the bounds are listed once, in the documented order, and `Requirement.Checks` says of anything
that can fail that it fails for the first bound in a list that is broken, and for nothing else.

* `Config.checks_agree`: whether a configuration is checked, or a pipeline or a simulator is made of
  it and of stages, the outcome is that of this list; and to make the registers is to check the
  delays. Stages that are built for the simulator come first, and need room.
* `Config.not_checks_agree`: a configuration that is in order can ask for more room than there is.
-/

namespace InOrder

/-- A bound that a configuration has to keep. -/
inductive Requirement where
  | clockPeriod
  | threads
  | delay (e : Edge)
  | width
  /-- A bundle counts its micro-ops in a byte. -/
  | widthByte
  | lineQueue
  | decodeQueue
  | executeQueue
  | units
  | lineBytes
  | register
  | unitBit

namespace Requirement

/-- All bounds, in the documented order. -/
def all : List Requirement :=
  [clockPeriod, threads] ++ (Edge.all.map delay ++
    [width, widthByte, lineQueue, decodeQueue, executeQueue, units, lineBytes]) ++
    [register, unitBit]

theorem mem_all (r : Requirement) : r ∈ all := by
  cases r with
  | delay e => cases e <;> simp [all, Edge.all]
  | _ => simp [all]

/-- The configuration keeps the bound. -/
def Kept (c : Config) : Requirement → Prop
  | clockPeriod => 1 ≤ c.host.clockPeriod.toNat
  | threads => 1 ≤ c.host.threads.toNat
  | delay e => 1 ≤ (c.pipeline.delays.get e).toNat
  | width => 1 ≤ c.pipeline.width.toNat
  | widthByte => c.pipeline.width.toNat ≤ 255
  | lineQueue => 1 ≤ c.pipeline.lineQueue.toNat
  | decodeQueue => 1 ≤ c.pipeline.decodeQueue.toNat
  | executeQueue => 1 ≤ c.pipeline.executeQueue.toNat
  | units => 1 ≤ c.pipeline.units.toNat
  | lineBytes => c.pipeline.lineBytes.toNat ≠ 0 ∧ 4 ∣ c.pipeline.lineBytes.toNat
  | register => c.faults.register = "" ∨ ∃ e : Edge, c.faults.register = e.selector
  | unitBit => c.faults.unitBit.toNat < 32

/-- The error that names the bound, and the value that breaks it. -/
def error (c : Config) : Requirement → SetupError
  | clockPeriod => .badParameter "clockPeriod" .atLeastOne c.host.clockPeriod.toNat
  | threads => .badParameter "numThreads" .atLeastOne c.host.threads.toNat
  | delay e => .badParameter e.delayParameter .atLeastOne (c.pipeline.delays.get e).toNat
  | width => .badParameter "decodeInputWidth" .atLeastOne c.pipeline.width.toNat
  | widthByte => .badParameter "decodeInputWidth" .atMostByte c.pipeline.width.toNat
  | lineQueue => .badParameter "fetch2InputBufferSize" .atLeastOne c.pipeline.lineQueue.toNat
  | decodeQueue => .badParameter "decodeInputBufferSize" .atLeastOne c.pipeline.decodeQueue.toNat
  | executeQueue =>
    .badParameter "executeInputBufferSize" .atLeastOne c.pipeline.executeQueue.toNat
  | units => .badParameter "numFunctionalUnits" .atLeastOne c.pipeline.units.toNat
  | lineBytes => .badParameter "fetch1LineWidth" .multipleOfWord c.pipeline.lineBytes.toNat
  | register => .unknownRegister c.faults.register
  | unitBit => .badParameter "fuInjectLoc" .belowWordBits c.faults.unitBit.toNat

/-- The error is that of the first bound in the list that is broken. -/
def FirstBroken (c : Config) (rs : List Requirement) (e : SetupError) : Prop :=
  ∃ before r after, rs = before ++ r :: after ∧ (∀ r' ∈ before, r'.Kept c) ∧ ¬ r.Kept c ∧
    e = r.error c

/-! ## Going through a list of bounds -/

/-- The outcome is that of looking at the bounds in turn, up to the first that is broken. -/
inductive Checks {α : Type} (c : Config) : List Requirement → Except SetupError α → Prop
  | pass (a : α) : Checks c [] (.ok a)
  | keep {r : Requirement} {rs : List Requirement} {x : Except SetupError α} (hr : r.Kept c)
      (h : Checks c rs x) : Checks c (r :: rs) x
  | fail {r : Requirement} (rs : List Requirement) (hr : ¬ r.Kept c) :
      Checks c (r :: rs) (.error (r.error c))

namespace Checks

variable {α β : Type} {c : Config} {rs rs' : List Requirement} {x : Except SetupError α}

/-- What comes after looking at bounds looks at further ones, if these are kept. -/
theorem bind (h : Checks c rs x) {f : α → Except SetupError β}
    (hf : (∀ r ∈ rs, r.Kept c) → ∀ a, x = .ok a → Checks c rs' (f a)) :
    Checks c (rs ++ rs') (x >>= f) := by
  induction h with
  | pass a => exact hf (fun _ hr => absurd hr List.not_mem_nil) a rfl
  | keep hr h ih => exact .keep hr (ih fun hrs => hf (List.forall_mem_cons.mpr ⟨hr, hrs⟩))
  | fail rs hr => exact .fail (rs ++ rs') hr

/-- What comes after looking at bounds does not fail if these are kept. -/
theorem andThen (h : Checks c rs x) {f : α → Except SetupError β}
    (hf : (∀ r ∈ rs, r.Kept c) → ∀ a, x = .ok a → ∃ b, f a = .ok b) : Checks c rs (x >>= f) := by
  have hpass : (∀ r ∈ rs, r.Kept c) → ∀ a, x = .ok a → Checks c [] (f a) := fun hrs a ha => by
    obtain ⟨b, hb⟩ := hf hrs a ha
    exact hb ▸ .pass b
  have hboth := h.bind hpass
  rwa [List.append_nil] at hboth

theorem exists_ok_iff (h : Checks c rs x) : (∃ a, x = .ok a) ↔ ∀ r ∈ rs, r.Kept c := by
  induction h with
  | pass a => exact ⟨fun _ _ hr => absurd hr List.not_mem_nil, fun _ => ⟨a, rfl⟩⟩
  | keep hr h ih =>
    rw [ih, List.forall_mem_cons]
    exact ⟨fun hrs => ⟨hr, hrs⟩, fun hrs => hrs.2⟩
  | fail rs hr =>
    exact ⟨fun ⟨_, ha⟩ => (nomatch ha), fun hrs => absurd (hrs _ List.mem_cons_self) hr⟩

theorem eq_error_iff (h : Checks c rs x) {e : SetupError} :
    x = .error e ↔ FirstBroken c rs e := by
  induction h with
  | pass a =>
    refine ⟨fun he => (nomatch he), ?_⟩
    rintro ⟨before, r, after, hnil, -⟩
    exact absurd hnil.symm (by simp)
  | @keep r rs x hr h ih =>
    rw [ih]
    constructor
    · rintro ⟨before, r', after, rfl, hbefore, hbroken⟩
      exact ⟨r :: before, r', after, rfl, List.forall_mem_cons.mpr ⟨hr, hbefore⟩, hbroken⟩
    · rintro ⟨before, r', after, hsplit, hbefore, hbroken, he⟩
      cases before with
      | nil =>
        obtain ⟨rfl, -⟩ := List.cons.inj hsplit
        exact absurd hr hbroken
      | cons b before =>
        obtain ⟨rfl, rfl⟩ := List.cons.inj hsplit
        exact ⟨before, r', after, rfl, (List.forall_mem_cons.mp hbefore).2, hbroken, he⟩
  | @fail r rs hr =>
    constructor
    · intro he
      exact ⟨[], r, rs, rfl, fun _ hr => absurd hr List.not_mem_nil, hr, (Except.error.inj he).symm⟩
    · rintro ⟨before, r', after, hsplit, hbefore, -, rfl⟩
      cases before with
      | nil =>
        obtain ⟨rfl, -⟩ := List.cons.inj hsplit
        rfl
      | cons b before =>
        obtain ⟨rfl, -⟩ := List.cons.inj hsplit
        exact absurd (hbefore _ List.mem_cons_self) hr

/-- Two that look at the same bounds have the same outcome, but for what they make. -/
theorem map_eq (h : Checks c rs x) {y : Except SetupError Unit} (h' : Checks c rs y) :
    x.map (fun _ => ()) = y := by
  induction h with
  | pass a =>
    cases h' with
    | pass => rfl
  | keep hr h ih =>
    cases h' with
    | keep _ h' => exact ih h'
    | fail _ hbroken => exact absurd hr hbroken
  | fail rs hbroken =>
    cases h' with
    | keep hr => exact absurd hr hbroken
    | fail => rfl

/-- The first bound that is broken is also the first of a list that goes on. -/
theorem error_of_append {y : Except SetupError β} (h : Checks c rs x)
    (h' : Checks c (rs ++ rs') y) {e : SetupError} (he : x = .error e) : y = .error e := by
  induction h with
  | pass a => nomatch he
  | keep hr h ih =>
    cases h' with
    | keep _ h' => exact ih h' he
    | fail _ hbroken => exact absurd hr hbroken
  | fail rs hbroken =>
    obtain rfl := Except.error.inj he
    cases h' with
    | keep hr => exact absurd hr hbroken
    | fail => rfl

end Checks

/-! ## The checks -/

variable {c : Config}

theorem checks_requireBound {r : Requirement} {ok : Bool} {name : String} {bound : Bound}
    {value : Nat} (hkept : ok = true ↔ r.Kept c)
    (herror : r.error c = .badParameter name bound value) :
    Checks c [r] (requireBound ok name bound value) := by
  unfold requireBound
  split
  · rename_i hok
    exact .keep (hkept.mp hok) (.pass ())
  · rename_i hnot
    exact herror ▸ .fail [] fun hr => hnot (hkept.mpr hr)

theorem checks_requirePositive {r : Requirement} {name : String} {value : Nat}
    (hkept : r.Kept c ↔ 1 ≤ value) (herror : r.error c = .badParameter name .atLeastOne value) :
    Checks c [r] (requirePositive name value) :=
  checks_requireBound (decide_eq_true_iff.trans hkept.symm) herror

theorem checks_host (c : Config) : Checks c [clockPeriod, threads] c.host.check :=
  (checks_requirePositive (r := clockPeriod) Iff.rfl rfl).bind fun _ _ _ =>
    checks_requirePositive (r := threads) Iff.rfl rfl

/-- The bounds of the pipeline section. -/
def ofPipeline : List Requirement :=
  Edge.all.map delay ++ [width, widthByte, lineQueue, decodeQueue, executeQueue, units, lineBytes]

theorem checks_pipeline (c : Config) : Checks c ofPipeline c.pipeline.check := by
  have hdelay : ∀ e, Checks c [delay e] (c.pipeline.checkDelay e) := fun e =>
    checks_requirePositive Iff.rfl rfl
  have hbyte : decide (c.pipeline.width.toNat ≤ 255) = true ↔ widthByte.Kept c := decide_eq_true_iff
  have hwords : (4 ≤ c.pipeline.lineBytes.toNat && c.pipeline.lineBytes.toNat % 4 == 0) = true ↔
      lineBytes.Kept c := by
    simp only [Kept, Bool.and_eq_true, decide_eq_true_eq, beq_iff_eq]
    omega
  refine (hdelay .f1ToF2).bind fun _ _ _ => (hdelay .f2ToD).bind fun _ _ _ =>
    (hdelay .dToE).bind fun _ _ _ => (hdelay .eToF1).bind fun _ _ _ =>
    (hdelay .f2ToF1).bind fun _ _ _ => ?_
  refine (checks_requirePositive (r := width) Iff.rfl rfl).bind fun _ _ _ => ?_
  refine (checks_requireBound (r := widthByte) hbyte rfl).bind fun _ _ _ => ?_
  refine (checks_requirePositive (r := lineQueue) Iff.rfl rfl).bind fun _ _ _ => ?_
  refine (checks_requirePositive (r := decodeQueue) Iff.rfl rfl).bind fun _ _ _ => ?_
  refine (checks_requirePositive (r := executeQueue) Iff.rfl rfl).bind fun _ _ _ => ?_
  refine (checks_requirePositive (r := units) Iff.rfl rfl).bind fun _ _ _ => ?_
  exact checks_requireBound (r := lineBytes) hwords rfl

/-- The names that are resolved are the selectors. -/
theorem ofSelector?_eq_some_iff {name : String} {e : Edge} :
    Edge.ofSelector? name = some e ↔ name = e.selector := by
  constructor
  · intro h
    have hfound := List.find?_some h
    exact (beq_iff_eq.mp hfound).symm
  · rintro rfl
    cases e <;> rfl

theorem checks_target (c : Config) : Checks c [register] c.faults.target := by
  unfold FaultConfig.target
  by_cases hnone : c.faults.register = ""
  · rw [if_pos hnone]
    exact .keep (.inl hnone) (.pass _)
  · rw [if_neg hnone]
    cases he : Edge.ofSelector? c.faults.register with
    | some e => exact .keep (.inr ⟨e, ofSelector?_eq_some_iff.mp he⟩) (.pass _)
    | none =>
      refine .fail [] ?_
      rintro (hempty | ⟨e, hname⟩)
      · exact hnone hempty
      · exact absurd (he.symm.trans (ofSelector?_eq_some_iff.mpr hname)) (by simp)

theorem checks_faults (c : Config) : Checks c [register, unitBit] c.faults.check :=
  have hbit : decide (c.faults.unitBit.toNat < 32) = true ↔ unitBit.Kept c := decide_eq_true_iff
  (checks_target c).bind fun _ _ _ => checks_requireBound (r := unitBit) hbit rfl

theorem checks_check (c : Config) : Checks c all c.check :=
  (checks_host c).bind fun _ _ _ => (checks_pipeline c).bind fun _ _ _ => checks_faults c

/-- To make the registers is to check the delays. -/
theorem checks_registers (c : Config) (owner : String) :
    Checks c (Edge.all.map delay) (Registers.new owner c.pipeline) := by
  have hdelay : ∀ {α : Type} (e : Edge) (name : String) (blank : α),
      Checks c [delay e] (Register.new name e (c.pipeline.delays.get e) blank) := by
    intro α e name blank
    unfold Register.new
    split
    · rename_i hzero
      exact .fail [] (Nat.not_le.mpr hzero)
    · rename_i hpos
      exact .keep (Nat.not_lt.mp hpos) (.pass _)
  refine (hdelay .f1ToF2 _ Line.empty).bind fun _ _ _ => ?_
  refine (hdelay .f2ToD _ (Bundle.empty c.pipeline.width.toNat)).bind fun _ _ _ => ?_
  refine (hdelay .dToE _ (Bundle.empty c.pipeline.width.toNat)).bind fun _ _ _ => ?_
  refine (hdelay .eToF1 _ Redirect.empty).bind fun _ _ _ => ?_
  exact (hdelay .f2ToF1 _ Redirect.empty).andThen fun _ _ _ => ⟨_, rfl⟩

/-- A register that was checked can be corrupted. -/
theorem exists_scheduleFault (h : register.Kept c) (rs : Registers) :
    ∃ r, Pipeline.scheduleFault rs c.faults = .ok r := by
  obtain ⟨target, htarget⟩ := (checks_target c).exists_ok_iff.mpr
    (List.forall_mem_singleton.mpr h)
  rw [Pipeline.scheduleFault, htarget]
  cases target with
  | none => exact ⟨_, rfl⟩
  | some e => cases e <;> exact ⟨_, rfl⟩

section Made

variable {σ : Type} [StageSet σ]

theorem checks_newPipeline (c : Config) (stages : σ) : Checks c all (Pipeline.new c stages) := by
  refine (checks_check c).andThen fun hkept _ _ => ?_
  have hregisters := (checks_registers c Pipeline.owner).exists_ok_iff.mpr fun r _ =>
    hkept r r.mem_all
  refine exists_bind_eq_ok hregisters fun rs => ?_
  exact exists_bind_eq_ok (exists_scheduleFault (hkept register register.mem_all) rs) fun _ =>
    ⟨_, rfl⟩

theorem checks_newSimulator (c : Config) (stages : σ) : Checks c all (Simulator.new c stages) := by
  refine (checks_newPipeline c stages).andThen fun hkept _ _ => ?_
  have hperiod : 0 < c.host.clockPeriod.toNat := hkept clockPeriod clockPeriod.mem_all
  exact ⟨_, dif_pos hperiod⟩

end Made

/-- A simulator whose stages are built first is not made where there cannot be room for them, and is
otherwise made as of stages that are there. -/
theorem build?_eq (sizes : EntrySizes) (c : Config) (m : Image) :
    Simulator.build? sizes c m =
      if c.pipeline.canHold sizes then some (Simulator.new c (.new Pipeline.owner c m))
      else none := by
  unfold Simulator.build? Stages.build?
  split <;> rfl

end Requirement

/-- **Checking a configuration and making something of it agree.** A configuration is in order if
and only if it keeps every bound, and the error is otherwise that of the first one that is broken. A
pipeline and a simulator are made of just the configurations that are in order, and refuse the
others with the same error. The registers cannot be made if and only if a delay is zero, and then
the error is that of checking the pipeline.

All this is said of stages that are there. Where the stages are built together with the simulator,
they are built before anything is checked, and so the host stops if and only if there cannot be room
for their queues, in order or not. -/
theorem Config.checks_agree {σ : Type} [StageSet σ] (c : Config) (stages : σ) (owner : String)
    (sizes : EntrySizes) (m : Image) :
    (c.check = .ok () ↔ ∀ r : Requirement, r.Kept c) ∧
      (∀ e, c.check = .error e ↔ Requirement.FirstBroken c Requirement.all e) ∧
      (Pipeline.new c stages).map (fun _ => ()) = c.check ∧
      (Simulator.new c stages).map (fun _ => ()) = c.check ∧
      ((∃ e, Registers.new owner c.pipeline = .error e) ↔ ∃ e, c.pipeline.delays.get e = 0) ∧
      (∀ e, Registers.new owner c.pipeline = .error e → c.pipeline.check = .error e) ∧
      (Simulator.build? sizes c m = none ↔ c.pipeline.canHold sizes = false) ∧
      ∀ r, Simulator.build? sizes c m = some r → r.map (fun _ => ()) = c.check := by
  have hcheck := Requirement.checks_check c
  have hregisters := Requirement.checks_registers c owner
  refine ⟨?_, fun e => hcheck.eq_error_iff, (Requirement.checks_newPipeline c stages).map_eq hcheck,
    (Requirement.checks_newSimulator c stages).map_eq hcheck, ?_,
    fun e he => hregisters.error_of_append (Requirement.checks_pipeline c) he, ?_, fun r hr => ?_⟩
  · have hok : c.check = .ok () ↔ ∃ u, c.check = .ok u := ⟨fun h => ⟨(), h⟩, fun ⟨_, h⟩ => h⟩
    rw [hok, hcheck.exists_ok_iff]
    exact ⟨fun h r => h r r.mem_all, fun h r _ => h r⟩
  · have hzero : ∀ e, c.pipeline.delays.get e = 0 ↔ ¬ (Requirement.delay e).Kept c := by
      intro e
      rw [← UInt32.toNat_inj]
      show (c.pipeline.delays.get e).toNat = 0 ↔ ¬ 1 ≤ (c.pipeline.delays.get e).toNat
      omega
    simp only [hzero]
    constructor
    · rintro ⟨err, herr⟩
      obtain ⟨before, r, after, hsplit, -, hbroken, -⟩ := hregisters.eq_error_iff.mp herr
      have hmem : r ∈ Edge.all.map Requirement.delay :=
        hsplit ▸ List.mem_append_right _ List.mem_cons_self
      obtain ⟨e, -, rfl⟩ := List.mem_map.mp hmem
      exact ⟨e, hbroken⟩
    · rintro ⟨e, hbroken⟩
      cases hnew : Registers.new owner c.pipeline with
      | error err => exact ⟨err, rfl⟩
      | ok rs =>
        have hkept := hregisters.exists_ok_iff.mp ⟨rs, hnew⟩
        exact absurd (hkept _ (List.mem_map_of_mem e.mem_all)) hbroken
  · rw [Requirement.build?_eq]
    cases c.pipeline.canHold sizes <;> simp
  · rw [Requirement.build?_eq] at hr
    obtain ⟨-, hnew⟩ := Option.ite_none_right_eq_some.mp hr
    obtain rfl := Option.some.inj hnew
    exact (Requirement.checks_newSimulator c _).map_eq hcheck

/-- A queue for more lines than a host can ever hold. -/
def Config.boundless : Config := { pipeline := { lineQueue := 18446744073709551615 } }

/-- **A configuration that is in order does not always make a simulator**: there is none of this
one, whatever the size of a line. -/
theorem Config.not_checks_agree : Config.boundless.check = .ok () ∧
    ∀ (sizes : EntrySizes) (m : Image), Simulator.build? sizes .boundless m = none := by
  refine ⟨rfl, fun sizes m => ?_⟩
  have hlines : Queue.canHold sizes.line Config.boundless.pipeline.lineQueue.toNat = false := by
    have hsize := sizes.line_pos
    refine decide_eq_false (Nat.not_le.mpr ?_)
    show 0x7fffffffffffffff < 18446744073709551615 * sizes.line
    omega
  rw [Requirement.build?_eq, PipelineConfig.canHold, hlines]
  rfl

end InOrder
