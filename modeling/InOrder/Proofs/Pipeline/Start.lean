import InOrder.Proofs.Lane.Route
import InOrder.Proofs.Pipeline.Fitted
import InOrder.Proofs.Pipeline.Lanes
import InOrder.Simulator

/-!
# The start of a run

A configuration without faults that keeps every bound makes a simulator (`Simulator.exists_new`).
Its pipeline is sound, and nothing is on any lane (`Simulator.starts`). The bounds that were checked
are those that stages and lanes need (`Config.of_check`).

A pipeline that is made with faults is otherwise the same (`Pipeline.of_new_eq_ok`).
-/

namespace InOrder

/-- What a sequence of checks that passes has passed. -/
theorem of_bind_eq_ok {ε α β : Type} {x : Except ε α} {f : α → Except ε β} {b : β}
    (h : x >>= f = .ok b) : ∃ a, x = .ok a ∧ f a = .ok b := by
  cases x with
  | error e => nomatch h
  | ok a => exact ⟨a, rfl, h⟩

/-- A sequence of checks that all pass passes. -/
theorem exists_bind_eq_ok {ε α β : Type} {x : Except ε α} {f : α → Except ε β}
    (hx : ∃ a, x = .ok a) (hf : ∀ a, ∃ b, f a = .ok b) : ∃ b, x >>= f = .ok b := by
  obtain ⟨a, rfl⟩ := hx
  exact hf a

theorem of_requireBound {ok : Bool} {name : String} {bound : Bound} {value : Nat} {u : Unit}
    (h : requireBound ok name bound value = .ok u) : ok = true := by
  cases ok with
  | true => rfl
  | false => nomatch h

/-- A parameter that has to be positive is, once its check has passed. -/
theorem of_requirePositive {name : String} {value : Nat} {u : Unit}
    (h : requirePositive name value = .ok u) : 0 < value :=
  of_decide_eq_true (of_requireBound h)

/-- What the checks of a pipeline ask of its sizes. -/
structure PipelineConfig.Admitted (c : PipelineConfig) : Prop where
  delays : ∀ e, 0 < (c.delays.get e).toNat
  width : 0 < c.width.toNat
  width_le : c.width.toNat ≤ 255
  lineQueue : 0 < c.lineQueue.toNat
  decodeQueue : 0 < c.decodeQueue.toNat
  executeQueue : 0 < c.executeQueue.toNat
  units : 0 < c.units.toNat
  lineBytes : 4 ≤ c.lineBytes.toNat
  words : c.lineBytes.toNat % 4 = 0

theorem PipelineConfig.of_check {c : PipelineConfig} {u : Unit} (h : c.check = .ok u) :
    c.Admitted := by
  obtain ⟨_, hf1ToF2, h⟩ := of_bind_eq_ok h
  obtain ⟨_, hf2ToD, h⟩ := of_bind_eq_ok h
  obtain ⟨_, hdToE, h⟩ := of_bind_eq_ok h
  obtain ⟨_, heToF1, h⟩ := of_bind_eq_ok h
  obtain ⟨_, hf2ToF1, h⟩ := of_bind_eq_ok h
  obtain ⟨_, hwidth, h⟩ := of_bind_eq_ok h
  obtain ⟨_, hbyte, h⟩ := of_bind_eq_ok h
  obtain ⟨_, hlines, h⟩ := of_bind_eq_ok h
  obtain ⟨_, hdecode, h⟩ := of_bind_eq_ok h
  obtain ⟨_, hexecute, h⟩ := of_bind_eq_ok h
  obtain ⟨_, hunits, h⟩ := of_bind_eq_ok h
  have hbytes := of_requireBound h
  simp only [Bool.and_eq_true, decide_eq_true_eq, beq_iff_eq] at hbytes
  refine ⟨fun e => ?_, of_requirePositive hwidth, of_decide_eq_true (of_requireBound hbyte),
    of_requirePositive hlines, of_requirePositive hdecode, of_requirePositive hexecute,
    of_requirePositive hunits, hbytes.1, hbytes.2⟩
  cases e with
  | f1ToF2 => exact of_requirePositive hf1ToF2
  | f2ToD => exact of_requirePositive hf2ToD
  | dToE => exact of_requirePositive hdToE
  | eToF1 => exact of_requirePositive heToF1
  | f2ToF1 => exact of_requirePositive hf2ToF1

/-- What the checks of a configuration ask of it. -/
structure Config.Admitted (c : Config) : Prop extends PipelineConfig.Admitted c.pipeline where
  period : 0 < c.host.clockPeriod.toNat
  threads : 0 < c.host.threads.toNat

theorem Config.of_check {c : Config} {u : Unit} (h : c.check = .ok u) : c.Admitted := by
  obtain ⟨_, hhost, h⟩ := of_bind_eq_ok h
  obtain ⟨_, hpipeline, -⟩ := of_bind_eq_ok h
  obtain ⟨_, hperiod, hthreads⟩ := of_bind_eq_ok hhost
  exact ⟨PipelineConfig.of_check hpipeline, of_requirePositive hperiod,
    of_requirePositive hthreads⟩

/-- The lines of a configuration that was checked have whole words. -/
theorem Config.Admitted.whole {c : Config} (h : c.Admitted) (m : Image) (fresh : UInt64 → Prop)
    (t : UInt32) : (c.track m fresh t).Whole := by
  have hbytes : c.pipeline.lineBytes.toUInt64.toNat = c.pipeline.lineBytes.toNat :=
    UInt32.toNat_toUInt64 _
  have hfour := h.lineBytes
  have hpositive : 0 < c.pipeline.lineBytes.toUInt64.toNat := by omega
  exact ⟨hpositive, hbytes ▸ h.words⟩

theorem Register.of_new_eq_ok {α : Type} {name : String} {edge : Edge} {depth : UInt32} {blank : α}
    {r : Register α} (h : Register.new name edge depth blank = .ok r) :
    r = ⟨name, edge, .new depth.toNat blank, none⟩ := by
  unfold Register.new at h
  split at h
  · nomatch h
  · exact (Except.ok.inj h).symm

theorem Register.clean_new {α : Type} [Payload α] {name : String} {edge : Edge} {depth : Nat}
    {blank : α} {flip : Option Flip} (h : Payload.isBubble blank = true) :
    (⟨name, edge, .new depth blank, flip⟩ : Register α).Clean :=
  ⟨h, h⟩

/-- Nothing is on its way. -/
structure Registers.Blank (rs : Registers) : Prop where
  lines : rs.f1ToF2.held = []
  cut : rs.f2ToD.held = []
  decoded : rs.dToE.held = []
  redirects : rs.eToF1.held = []
  predictions : rs.f2ToF1.held = []

/-- The row of a new register is as long as its delay. -/
theorem Register.length_row_new {α : Type} {name : String} {edge : Edge} {depth : Nat} {blank : α}
    {flip : Option Flip} (h : 0 < depth) :
    (⟨name, edge, .new depth blank, flip⟩ : Register α).row.length = depth := by
  show (List.replicate (depth - 1) blank).length + 1 = depth
  rw [List.length_replicate]
  omega

/-- New registers are blank, as deep as configured, and without a flip. -/
theorem Registers.eq_of_new {owner : String} {c : PipelineConfig} {rs : Registers}
    (h : Registers.new owner c = .ok rs) :
    let name (e : Edge) := owner ++ "." ++ e.selector
    rs =
      ⟨⟨name .f1ToF2, .f1ToF2, .new c.delays.f1ToF2.toNat Line.empty, none⟩,
        ⟨name .f2ToD, .f2ToD, .new c.delays.f2ToD.toNat (Bundle.empty c.width.toNat), none⟩,
        ⟨name .dToE, .dToE, .new c.delays.dToE.toNat (Bundle.empty c.width.toNat), none⟩,
        ⟨name .eToF1, .eToF1, .new c.delays.eToF1.toNat Redirect.empty, none⟩,
        ⟨name .f2ToF1, .f2ToF1, .new c.delays.f2ToF1.toNat Redirect.empty, none⟩⟩ := by
  obtain ⟨a, ha, h⟩ := of_bind_eq_ok h
  obtain ⟨b, hb, h⟩ := of_bind_eq_ok h
  obtain ⟨d, hd, h⟩ := of_bind_eq_ok h
  obtain ⟨e, he, h⟩ := of_bind_eq_ok h
  obtain ⟨f, hf, h⟩ := of_bind_eq_ok h
  obtain rfl := Except.ok.inj h
  obtain rfl := Register.of_new_eq_ok ha
  obtain rfl := Register.of_new_eq_ok hb
  obtain rfl := Register.of_new_eq_ok hd
  obtain rfl := Register.of_new_eq_ok he
  obtain rfl := Register.of_new_eq_ok hf
  rfl

theorem Registers.of_new_eq_ok {owner : String} {c : PipelineConfig} {rs : Registers}
    (h : Registers.new owner c = .ok rs) (n : Nat) :
    rs.Sound n ∧ rs.Blank ∧ (c.Admitted → rs.dToE.row.length = c.delays.dToE.toNat ∧
      rs.f2ToD.row.length = c.delays.f2ToD.toNat ∧
      rs.eToF1.row.length = c.delays.eToF1.toNat) := by
  obtain rfl := Registers.eq_of_new h
  have hline : Payload.isBubble Line.empty = true := Flag.isSet_set
  have hbundle : Payload.isBubble (Bundle.empty c.width.toNat) = true := rfl
  have hredirect : Payload.isBubble Redirect.empty = true := Flag.isSet_set
  refine ⟨⟨Register.clean_new hline, Register.clean_new hbundle, Register.clean_new hbundle,
    Register.clean_new hredirect, Register.clean_new hredirect, ?_, ?_⟩,
    ⟨Register.held_blank hline, Register.held_blank hbundle, Register.held_blank hbundle,
      Register.held_blank hredirect, Register.held_blank hredirect⟩, fun hc =>
    ⟨Register.length_row_new (hc.delays .dToE), Register.length_row_new (hc.delays .f2ToD),
      Register.length_row_new (hc.delays .eToF1)⟩⟩
  · intro r hr
    rw [Register.held_blank hredirect] at hr
    exact absurd hr (by simp)
  · intro r hr
    rw [Register.held_blank hredirect] at hr
    exact absurd hr (by simp)

theorem Stages.sized_new {c : Config} (h : c.Admitted) (m : Image) :
    (Stages.new Pipeline.owner c m).Sized :=
  ⟨h.lineQueue, h.decodeQueue, h.executeQueue, h.width, h.units⟩

theorem Stages.sound_new {c : Config} (hwidth : c.pipeline.width.toNat ≤ 255) (m : Image) :
    (Stages.new Pipeline.owner c m).Sound c m 0 := by
  refine ⟨⟨List.length_replicate, rfl, rfl, fun p hp => nomatch hp⟩,
    ⟨fun _ => rfl, Nat.lt_succ_of_le hwidth, List.length_replicate, ?_⟩, rfl,
    ⟨fun _ => rfl, List.length_replicate, fun f hf => absurd hf List.not_mem_nil, ?_⟩⟩
  · intro e he
    rw [List.eq_of_mem_replicate he]
    exact Nat.le_of_eq ordinal_firstSeq
  · intro th hth
    rw [List.eq_of_mem_replicate hth]
    exact Nat.le_of_eq ordinal_firstSeq

/-- Nothing is on a lane of new stages and blank registers. -/
theorem laneOf_new {c : Config} {rs : Registers} (hrs : rs.Blank) (m : Image) {t : UInt32}
    (ht : t.toNat < c.host.threads.toNat) :
    laneOf (Stages.new Pipeline.owner c m) rs {} t = .start m.entry := by
  have hget : ∀ {α : Type} (a b : α),
      (List.replicate c.host.threads.toNat a)[t.toNat]?.getD b = a := by
    intro α a b
    rw [List.getElem?_replicate, if_pos ht, Option.getD_some]
  have hops : share t ((Stages.new Pipeline.owner c m).execute.waiting ++
      (rs.dToE.held ++ [] ++ rs.f2ToD.held).flatMap Bundle.tagged) = [] := by
    rw [hrs.decoded, hrs.cut]
    rfl
  have hlines : linesOf t ((Stages.new Pipeline.owner c m).slicer.waiting ++ rs.f1ToF2.held) ++
      LineFetch.pendingOf t none = [] := by
    rw [hrs.lines]
    rfl
  have hredirects : redirectsOf t rs.eToF1.held = [] := by rw [hrs.redirects]; rfl
  have hpredictions : redirectsOf t rs.f2ToF1.held = [] := by rw [hrs.predictions]; rfl
  exact Lane.ext rfl (hget _ _) hops (hget _ _) hlines (hget _ _) hredirects hpredictions rfl rfl

/-! ## What can be made -/

/-- The faults of a configuration that has none. -/
structure Config.FaultFree (c : Config) : Prop where
  register : c.faults.register = ""
  unit : c.faults.unit = false

instance (c : Config) : Decidable c.FaultFree :=
  decidable_of_iff (c.faults.register = "" ∧ c.faults.unit = false)
    ⟨fun h => ⟨h.1, h.2⟩, fun h => ⟨h.register, h.unit⟩⟩

/-- A register of some depth can be made. -/
theorem Register.exists_new {α : Type} (name : String) (edge : Edge) {depth : UInt32} (blank : α)
    (h : 0 < depth.toNat) : ∃ r, Register.new name edge depth blank = .ok r :=
  ⟨_, if_neg (Nat.not_lt.mpr h)⟩

theorem Registers.exists_new {c : PipelineConfig} (h : ∀ e, 0 < (c.delays.get e).toNat)
    (owner : String) : ∃ rs, Registers.new owner c = .ok rs := by
  refine exists_bind_eq_ok (Register.exists_new _ _ _ (h .f1ToF2)) fun _ => ?_
  refine exists_bind_eq_ok (Register.exists_new _ _ _ (h .f2ToD)) fun _ => ?_
  refine exists_bind_eq_ok (Register.exists_new _ _ _ (h .dToE)) fun _ => ?_
  refine exists_bind_eq_ok (Register.exists_new _ _ _ (h .eToF1)) fun _ => ?_
  exact exists_bind_eq_ok (Register.exists_new _ _ _ (h .f2ToF1)) fun _ => ⟨_, rfl⟩

/-- Where no register is named no flip is scheduled. -/
theorem Pipeline.scheduleFault_of_none {c : FaultConfig} (h : c.register = "") (rs : Registers) :
    Pipeline.scheduleFault rs c = .ok (rs, {}, []) := by
  rw [scheduleFault, FaultConfig.target, if_pos h]
  rfl

theorem Config.FaultFree.scheduleFault {c : Config} (hc : c.FaultFree) (rs : Registers) :
    Pipeline.scheduleFault rs c.faults = .ok (rs, {}, []) :=
  Pipeline.scheduleFault_of_none hc.register rs

/-- A configuration that keeps every bound makes a simulator, if its faults can be scheduled. -/
theorem Simulator.exists_new_of_scheduleFault {c : Config}
    (hfaults : ∀ rs, ∃ r, Pipeline.scheduleFault rs c.faults = .ok r) (h : c.check = .ok ())
    (stages : Stages) : ∃ r, Simulator.new c stages = .ok r := by
  have hadmitted := Config.of_check h
  have hpipeline : ∃ r, Pipeline.new c stages = .ok r := by
    refine exists_bind_eq_ok ⟨(), h⟩ fun _ => ?_
    refine exists_bind_eq_ok (Registers.exists_new hadmitted.delays _) fun rs => ?_
    exact exists_bind_eq_ok (hfaults rs) fun _ => ⟨_, rfl⟩
  exact exists_bind_eq_ok hpipeline fun _ => ⟨_, dif_pos hadmitted.period⟩

/-- **A configuration without faults that keeps every bound makes a simulator.** -/
theorem Simulator.exists_new {c : Config} (hc : c.FaultFree) (h : c.check = .ok ())
    (stages : Stages) : ∃ r, Simulator.new c stages = .ok r :=
  exists_new_of_scheduleFault (fun rs => ⟨_, hc.scheduleFault rs⟩) h stages

/-! ## What is made -/

namespace Pipeline

/-- A stopped pipeline in which nothing has happened. -/
def unused (c : Config) (stages : Stages) (registers : Registers) (faults : FaultLog) :
    Pipeline Stages where
  stages
  registers
  activity := .new (owner ++ ".activity") c.pipeline.longestForwardDelay
  faults
  allowIdling := c.pipeline.idling
  signalDue := false
  drainState := .running
  running := false
  unitMode := if c.faults.unit then some c.faults.unitMode else none
  unitFlipped := false
  stats := {}
  lastSnapshot := 0

/-- A new pipeline has blank registers, in one of which a flip may be scheduled. -/
theorem of_new_eq_ok {c : Config} {stages : Stages} {p : Pipeline Stages} {events : List Event}
    (h : Pipeline.new c stages = .ok (p, events)) :
    ∃ blank registers faults scheduled, c.Admitted ∧
      Registers.new owner c.pipeline = .ok blank ∧
      scheduleFault blank c.faults = .ok (registers, faults, scheduled) ∧
      p = unused c stages registers faults := by
  obtain ⟨_, hcheck, h⟩ := of_bind_eq_ok h
  obtain ⟨blank, hblank, h⟩ := of_bind_eq_ok h
  obtain ⟨⟨registers, faults, scheduled⟩, hfaults, h⟩ := of_bind_eq_ok h
  exact ⟨blank, registers, faults, scheduled, Config.of_check hcheck, hblank, hfaults,
    (congrArg Prod.fst (Except.ok.inj h)).symm⟩

/-- Where no register is to be corrupted, a new pipeline has blank registers. -/
theorem of_new_of_none {c : Config} (hc : c.faults.register = "") {stages : Stages}
    {p : Pipeline Stages} {events : List Event} (h : Pipeline.new c stages = .ok (p, events)) :
    ∃ blank, c.Admitted ∧ Registers.new owner c.pipeline = .ok blank ∧
      p = unused c stages blank {} := by
  obtain ⟨blank, registers, faults, scheduled, hadmitted, hblank, hfaults, rfl⟩ := of_new_eq_ok h
  obtain ⟨rfl, rfl, rfl⟩ := Except.ok.inj ((scheduleFault_of_none hc blank).symm.trans hfaults)
  exact ⟨blank, hadmitted, hblank, rfl⟩

end Pipeline

/-- A new simulator has a new pipeline, at tick zero. -/
theorem Simulator.of_new_eq_ok {c : Config} {stages : Stages} {s : Simulator Stages}
    {events : List Event} (h : Simulator.new c stages = .ok (s, events)) :
    (∃ told, Pipeline.new c stages = .ok (s.pipeline, told)) ∧
      s.host = .ofPipeline c s.pipeline ∧ s.period = c.host.clockPeriod.toNat := by
  obtain ⟨⟨p, told⟩, hp, h⟩ := of_bind_eq_ok h
  simp only at h
  split at h
  · obtain rfl := congrArg Prod.fst (Except.ok.inj h)
    exact ⟨⟨told, hp⟩, rfl, rfl⟩
  · cases h

/-! ## The start -/

/-- What is known of a simulator at the start of a run. -/
structure Simulator.Starts (c : Config) (m : Image) (s : Simulator Stages) : Prop where
  stages : s.pipeline.stages = Stages.new Pipeline.owner c m
  registers : s.pipeline.registers.Blank
  pipeline : s.pipeline.Sound c m
  tick : s.tick = 0
  threads : s.host.threads = c.host.threads.toNat
  cycles : s.pipeline.stats.cycles = 0
  retired : s.pipeline.retired = 0
  signature : s.pipeline.signature = Signature.seed
  lane : ∀ t : UInt32, t.toNat < c.host.threads.toNat → s.pipeline.lane {} t = .start m.entry
  whole : ∀ fresh t, (c.track m fresh t).Whole
  fitted : s.pipeline.Fitted c
  admitted : c.Admitted
  waits : s.pipeline.signalDue = false

/-- **A simulator without faults starts sound, with nothing on any lane.** -/
theorem Simulator.starts {c : Config} (hc : c.FaultFree) {m : Image}
    {s : Simulator Stages} {events : List Event}
    (h : Simulator.new c (Stages.new Pipeline.owner c m) = .ok (s, events)) : s.Starts c m := by
  obtain ⟨⟨told, hp⟩, hhost, -⟩ := Simulator.of_new_eq_ok h
  obtain ⟨rs, hadmitted, hrs, hpipeline⟩ := Pipeline.of_new_of_none hc.register hp
  obtain ⟨host, period, hperiod⟩ := s
  obtain rfl : host = .ofPipeline c _ := hhost.trans (congrArg (Host.ofPipeline c) hpipeline)
  obtain ⟨hsound, hblank, hrows⟩ := Registers.of_new_eq_ok hrs c.host.threads.toNat
  obtain ⟨hdecoded, hcut, hrow⟩ := hrows hadmitted.toAdmitted
  have hunits : (if c.faults.unit = true then some c.faults.unitMode else none) = none := by
    rw [hc.unit, if_neg Bool.false_ne_true]
  have hroom : (Stages.new Pipeline.owner c m).room rs = c.pipeline.room := by
    rw [Stages.room, hdecoded, hcut]
    rfl
  exact
    { stages := rfl
      registers := hblank
      pipeline := ⟨Stages.sound_new hadmitted.width_le m, hsound, rfl, hunits⟩
      tick := rfl
      threads := rfl
      cycles := rfl
      retired := rfl
      signature := rfl
      lane := fun t ht => laneOf_new hblank m ht
      whole := hadmitted.whole m
      fitted := ⟨Stages.sized_new hadmitted m, hroom, hrow, rfl, .new _ _⟩
      admitted := hadmitted
      waits := rfl }

end InOrder
