import InOrder.Proofs.Pipeline.Faults
import InOrder.Proofs.Signature
import InOrder.Proofs.Stage.Squash

/-!
# What corrupted units concern

What has retired, what is in the units and the signature change only in cycles. What a cycle makes
of them is said by the micro-ops that are issued in it (`UnitData.cycle`), so it can be compared
between pipelines that issue the same ones.

* `UnitData.Together.cycles`: of two such sequences, one without faults and one that flips one bit,
  either both are the same or they are apart by one instruction.
* `UnitData.Apart.signature_ne_iff`: the signatures tell as soon as that instruction has retired.
* `Pipeline.unitData_evaluate`: a cycle of a pipeline is such a cycle.
-/

namespace InOrder

/-! ## Instructions and their words -/

/-- The same instruction, with one bit of its word flipped. -/
structure Retired.FlippedAt (bit : Nat) (r r' : Retired) : Prop where
  thread : r'.thread = r.thread
  pc : r'.pc = r.pc
  word : ∀ i, r'.inst.toNat.testBit i = (r.inst.toNat.testBit i ^^ decide (i = bit))

theorem Retired.FlippedAt.inst_ne {bit : Nat} {r r' : Retired} (h : r.FlippedAt bit r') :
    r'.inst ≠ r.inst := by
  intro hsame
  have hbit := h.word bit
  rw [hsame, decide_eq_true rfl, Bool.xor_true] at hbit
  exact Bool.not_ne_self _ hbit.symm

/-- What has retired, what is in the units, the signature, and how the units are corrupted. -/
structure UnitData where
  retired : List Retired
  units : List InFlight
  signature : UInt64
  /-- The bit that is flipped. -/
  bit : Nat
  mode : Option UnitMode
  /-- A bit was flipped. -/
  flipped : Bool

namespace UnitData

/-- What was issued so far. -/
def ran (d : UnitData) : List Retired := d.retired ++ d.units.map InFlight.retired

/-- A flip is due. -/
def due (d : UnitData) : Bool :=
  match d.mode with
  | none => false
  | some .oneShot => !d.flipped
  | some .repeating => true

/-- The micro-op with a bit of its word flipped. -/
def flip (d : UnitData) (f : InFlight) : InFlight :=
  { f with op := { f.op with inst := f.op.inst ^^^ (1 <<< UInt32.ofNat (d.bit % 32)) } }

/-- Flip a bit of the oldest micro-op in a unit, if that is due. -/
def strike (d : UnitData) : UnitData :=
  match d.due, d.units with
  | true, f :: rest => { d with units := d.flip f :: rest, flipped := true }
  | _, _ => d

/-- What a cycle of some number makes of it, in which some micro-ops are issued. -/
def cycle (d : UnitData) (x : Nat × List InFlight) : UnitData :=
  let done := (d.strike.units.takeWhile (Execute.isDone x.1)).map InFlight.retired
  { d.strike with
    retired := d.strike.retired ++ done
    units := d.strike.units.dropWhile (Execute.isDone x.1) ++ x.2
    signature := done.foldl Signature.absorb d.strike.signature }

/-- What some cycles make of it. -/
def cycles (d : UnitData) (xs : List (Nat × List InFlight)) : UnitData := xs.foldl cycle d

theorem cycles_append (d : UnitData) (xs ys : List (Nat × List InFlight)) :
    d.cycles (xs ++ ys) = (d.cycles xs).cycles ys := List.foldl_append

variable {d d' : UnitData}

/-- In a cycle nothing is lost, and what is issued comes behind. -/
theorem ran_cycle (d : UnitData) (x : Nat × List InFlight) :
    (d.cycle x).ran = d.strike.ran ++ x.2.map InFlight.retired := by
  show d.strike.retired ++ _ ++ (d.strike.units.dropWhile _ ++ x.2).map _ = _
  rw [List.map_append, List.append_assoc, ← List.append_assoc (List.map _ _), ← List.map_append,
    List.takeWhile_append_dropWhile, ← List.append_assoc, ran]

theorem strike_of_not_due (h : d.due = false) : d.strike = d := by
  rw [strike, h]

/-- A flip does not touch what has retired. -/
theorem strike_retired (d : UnitData) :
    d.strike.retired = d.retired ∧ d.strike.signature = d.signature ∧ d.strike.bit = d.bit ∧
      d.strike.mode = d.mode := by
  unfold strike
  split <;> exact ⟨rfl, rfl, rfl, rfl⟩

/-- The signature is that of what has retired. -/
def Signed (d : UnitData) : Prop := d.signature = Signature.ofList d.retired

theorem Signed.cycle (h : d.Signed) (x : Nat × List InFlight) : (d.cycle x).Signed := by
  obtain ⟨hretired, hsignature, -⟩ := d.strike_retired
  show List.foldl Signature.absorb d.strike.signature _ = _
  rw [hsignature, h, Signature.ofList, ← List.foldl_append]
  show _ = Signature.ofList (d.strike.retired ++ _)
  rw [hretired, Signature.ofList]

theorem Signed.cycles (h : d.Signed) (xs : List (Nat × List InFlight)) : (d.cycles xs).Signed := by
  induction xs generalizing d with
  | nil => exact h
  | cons x xs ih => exact ih (h.cycle x)

/-! ### One flip -/

theorem flippedAt_flip (d : UnitData) (f : InFlight) :
    f.retired.FlippedAt (d.bit % 32) (d.flip f).retired := by
  have hone : ∀ i < 32, ((1 : UInt32) <<< UInt32.ofNat i).toNat = 2 ^ i := by decide
  refine ⟨rfl, rfl, fun i => ?_⟩
  show (f.op.inst ^^^ (1 <<< UInt32.ofNat (d.bit % 32))).toNat.testBit i = _
  rw [UInt32.toNat_xor, Nat.testBit_xor, hone _ (Nat.mod_lt _ (by decide)), Nat.testBit_two_pow]
  simp only [eq_comm]
  rfl

/-- Nothing was flipped yet: `d` has no faults, and `d'` waits for a micro-op to flip one bit of. -/
structure Together (d d' : UnitData) : Prop where
  retired : d'.retired = d.retired
  units : d'.units = d.units
  quiet : d.mode = none
  once : d'.mode = some .oneShot
  waits : d'.flipped = false

/-- A bit was flipped: of what was issued, `r` is now `r'`, with `before` ahead of it. -/
structure Apart (before : List Retired) (r r' : Retired) (d d' : UnitData) : Prop where
  ran : ∃ after, d.ran = before ++ r :: after ∧ d'.ran = before ++ r' :: after
  quiet : d.mode = none
  once : d'.mode = some .oneShot
  flipped : d'.flipped = true

variable {before : List Retired} {r r' : Retired}

/-- **Nothing else is flipped.** -/
theorem Apart.cycle (h : Apart before r r' d d') (x : Nat × List InFlight) :
    Apart before r r' (d.cycle x) (d'.cycle x) := by
  obtain ⟨after, hran, hran'⟩ := h.ran
  have hstrike : d.strike = d := strike_of_not_due (by rw [due, h.quiet])
  have hstrike' : d'.strike = d' := strike_of_not_due (by rw [due, h.once, h.flipped]; rfl)
  refine ⟨⟨after ++ x.2.map InFlight.retired, ?_, ?_⟩, ?_, ?_, ?_⟩
  · rw [ran_cycle, hstrike, hran, List.append_assoc, List.cons_append]
  · rw [ran_cycle, hstrike', hran', List.append_assoc, List.cons_append]
  · exact (congrArg mode hstrike).trans h.quiet
  · exact (congrArg mode hstrike').trans h.once
  · exact (congrArg UnitData.flipped hstrike').trans h.flipped

theorem Apart.cycles (h : Apart before r r' d d') (xs : List (Nat × List InFlight)) :
    Apart before r r' (d.cycles xs) (d'.cycles xs) := by
  induction xs generalizing d d' with
  | nil => exact h
  | cons x xs ih => exact ih (h.cycle x)

/-- **In a cycle the oldest micro-op in a unit is flipped**, if there is one. -/
theorem Together.cycle (h : Together d d') (x : Nat × List InFlight) :
    Together (d.cycle x) (d'.cycle x) ∨ ∃ before r r', r.FlippedAt (d'.bit % 32) r' ∧
      Apart before r r' (d.cycle x) (d'.cycle x) := by
  have hstrike : d.strike = d := strike_of_not_due (by rw [due, h.quiet])
  have hdue : d'.due = true := by rw [due, h.once, h.waits]; rfl
  cases hunits : d.units with
  | nil =>
    have hstrike' : d'.strike = d' := by rw [strike, hdue, h.units, hunits]
    refine .inl ⟨?_, ?_, ?_, ?_, ?_⟩
    · rw [UnitData.cycle, UnitData.cycle, hstrike, hstrike', h.retired, h.units]
    · rw [UnitData.cycle, UnitData.cycle, hstrike, hstrike', h.units]
    · exact (congrArg mode hstrike).trans h.quiet
    · exact (congrArg mode hstrike').trans h.once
    · exact (congrArg flipped hstrike').trans h.waits
  | cons f rest =>
    have hstrike' : d'.strike = { d' with units := d'.flip f :: rest, flipped := true } := by
      rw [strike, hdue, h.units, hunits]
    refine .inr ⟨d.retired, f.retired, (d'.flip f).retired, d'.flippedAt_flip f, ⟨?_, ?_, ?_, ?_⟩⟩
    · refine ⟨rest.map InFlight.retired ++ x.2.map InFlight.retired, ?_, ?_⟩
      · rw [ran_cycle, hstrike, ran, hunits, List.append_assoc]
        rfl
      · rw [ran_cycle, hstrike', ran, List.append_assoc, h.retired]
        rfl
    · exact (congrArg mode hstrike).trans h.quiet
    · exact (congrArg mode hstrike').trans h.once
    · exact congrArg flipped hstrike'

/-- **Either nothing was flipped yet, or one micro-op was.** -/
theorem Together.cycles (h : Together d d') (xs : List (Nat × List InFlight)) :
    Together (d.cycles xs) (d'.cycles xs) ∨ ∃ before r r', r.FlippedAt (d'.bit % 32) r' ∧
      Apart before r r' (d.cycles xs) (d'.cycles xs) := by
  induction xs generalizing d d' with
  | nil => exact .inl h
  | cons x xs ih =>
    rcases h.cycle x with htogether | ⟨before, r, r', hflip, hapart⟩
    · have hbit : (d'.cycle x).bit = d'.bit := d'.strike_retired.2.2.1
      exact hbit ▸ ih htogether
    · exact .inr ⟨before, r, r', hflip, hapart.cycles xs⟩

/-- **The signatures are apart as soon as that micro-op has retired.** -/
theorem Apart.signature_ne_iff {bit : Nat} (h : Apart before r r' d d')
    (hflip : r.FlippedAt bit r') (hsigned : d.Signed) (hsigned' : d'.Signed)
    (hlength : d'.retired.length = d.retired.length) :
    d'.signature ≠ d.signature ↔ before.length < d.retired.length := by
  obtain ⟨after, hran, hran'⟩ := h.ran
  have hretired : d.retired = (before ++ r :: after).take d.retired.length := by
    rw [← hran, UnitData.ran, List.take_left]
  have hretired' : d'.retired = (before ++ r' :: after).take d.retired.length := by
    rw [← hran', UnitData.ran, ← hlength, List.take_left]
  rw [hsigned, hsigned']
  constructor
  · intro hne
    by_contra hfew
    rw [List.take_append_of_le_length (Nat.not_lt.mp hfew)] at hretired hretired'
    exact hne (by rw [hretired, hretired'])
  · intro hmany
    obtain ⟨n, hn⟩ := Nat.exists_eq_add_of_lt hmany
    have htake : ∀ r : Retired, (before ++ r :: after).take d.retired.length =
        before ++ r :: after.take n := by
      intro r
      rw [hn, Nat.add_assoc, List.take_length_add_append]
      rfl
    rw [hretired, hretired', htake, htake]
    exact Signature.ofList_ne hflip.pc hflip.inst_ne before _

end UnitData

namespace Pipeline

/-- What corrupted units concern of a pipeline from which some instructions have retired. -/
def unitData (p : Pipeline Stages) (retired : List Retired) : UnitData :=
  { retired
    units := p.stages.execute.units
    signature := p.signature
    bit := p.stages.execute.faultBit
    mode := p.unitMode
    flipped := p.unitFlipped }

theorem unitMode_struck (p : Pipeline Stages) (now : Nat) :
    (p.struck now).unitMode = p.unitMode := by
  obtain ⟨units, unitFlipped, heq, -⟩ := p.struck_eq now
  rw [heq]
  rfl

/-- The faults of a cycle strike the units if a flip is due. -/
theorem unitData_struck (p : Pipeline Stages) (now : Nat) (rs : List Retired) :
    (p.struck now).unitData rs = (p.unitData rs).strike := by
  obtain ⟨hstages, hflipped⟩ := p.struck_units now
  have hdue : (p.unitData rs).due = p.unitFaultDue := rfl
  rw [unitData, signature, p.unitMode_struck, hstages, hflipped, UnitData.strike, hdue]
  cases p.unitFaultDue with
  | false => simp [unitData, polled, StageSet.pollQueue, signature, StageSet.signature]
  | true =>
    cases hunits : p.stages.execute.units with
    | nil =>
      simp [unitData, polled, StageSet.pollQueue, signature, StageSet.signature,
        Execute.flipUnit, hunits]
    | cons f rest =>
      simp [unitData, polled, StageSet.pollQueue, signature, StageSet.signature,
        Execute.flipUnit, hunits, UnitData.flip]

/-- **A cycle, by what is issued in it.** -/
theorem unitData_evaluate (p : Pipeline Stages) (now : Nat) (rs : List Retired)
    {started : List InFlight}
    (h : (p.struckWork now).stages.execute.units =
      (p.struck now).stages.execute.kept (p.stats.cycles + 1) ++ started) :
    (p.evaluate now).pipeline.unitData (rs ++ (p.evaluate now).retired) =
      (p.unitData rs).cycle (p.stats.cycles + 1, started) := by
  obtain ⟨hstages, -⟩ := p.evaluate_struck now
  obtain ⟨hmode, hflipped, -⟩ := p.units_evaluate now
  obtain ⟨hretired, -, hsignature⟩ := (p.struck now).stages.execute.evaluate_retired
    (p.stats.cycles + 1) (p.struck now).registers.outputs.dToE
  have hdone : (p.evaluate now).retired = ((p.struck now).stages.execute.units.takeWhile
      (Execute.isDone (p.stats.cycles + 1))).map InFlight.retired :=
    (p.evaluate_eq_finished now).2.trans hretired
  have hbit : (p.struckWork now).stages.execute.faultBit =
      (p.struck now).stages.execute.faultBit :=
    (p.struck now).stages.execute.faultBit_evaluate _ _
  rw [UnitData.cycle, ← p.unitData_struck now, unitData, signature, hstages, h, hmode, hflipped,
    hdone, ← p.unitMode_struck now, hbit]
  rw [hretired] at hsignature
  exact congrArg (fun signature => UnitData.mk _ _ signature _ _ _) hsignature

end Pipeline

end InOrder
