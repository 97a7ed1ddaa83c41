import InOrder.Proofs.Evaluations
import InOrder.Proofs.Stage.Timing

/-!
# From issue to retirement

A micro-op that execute issues in an evaluation retires `max 1 latency` evaluations later: what is
retired is done, and retirement comes before issue in an evaluation, so that also without latency
nothing retires at once. What was issued in the evaluations since then is in the units. So execute
is a delay line for lists of micro-ops, `Pipeline.Paced`: what it was given, with as many empty
lists before it, is what has left, and then what is in the units.

The numbers of evaluations are what counts. Ticks at which the pipeline does not run do not, and
drains, wakes and flips do not change what is in the units, but for the instruction words that are
flipped (`InFlight.Alike`).

* `timing_exact`: what was issued in an evaluation is, in order, what leaves the units the latency
  later, and nothing else does; what was issued since is in the units, which are enough for it.
-/

namespace InOrder

/-! ## An evaluation -/

namespace Evaluation

/-- Its number, from one on. -/
def number (v : Evaluation) : Nat := v.pipeline.stats.cycles + 1

/-- Execute as it comes to work, after the faults. -/
def execute (v : Evaluation) : Execute := (v.pipeline.struck v.now).stages.execute

/-- What execute issues, in order. -/
def issued (v : Evaluation) : List InFlight :=
  v.execute.issued v.number (v.pipeline.struck v.now).registers.dToE.output

/-- What leaves the units, in order. -/
def leaving (v : Evaluation) : List InFlight :=
  v.execute.units.takeWhile (Execute.isDone v.number)

end Evaluation

namespace Pipeline

/-- **What an evaluation makes of execute.** What leaves the units is counted, and what is issued
comes behind the rest. -/
theorem execute_evaluate (p : Pipeline Stages) (now : Nat) {v : Evaluation} (hv : v = ⟨p, now⟩) :
    (p.evaluate now).pipeline.stages.execute.units = v.execute.kept v.number ++ v.issued ∧
      (p.evaluate now).pipeline.stages.execute.retired = v.execute.retired + v.leaving.length ∧
      (p.evaluate now).pipeline.stages.execute.unitCount = v.execute.unitCount ∧
      (p.evaluate now).pipeline.stages.execute.latency = v.execute.latency ∧
      (∀ f ∈ v.issued, f.doneAt = v.number + v.execute.latency) ∧
      (v.execute.units.length ≤ v.execute.unitCount →
        (p.evaluate now).pipeline.stages.execute.units.length ≤ v.execute.unitCount) := by
  subst hv
  let v : Evaluation := ⟨p, now⟩
  have hstage : (p.evaluate now).pipeline.stages.execute =
      (v.execute.evaluate v.number (p.struck now).registers.dToE.output).stage :=
    congrArg Stages.execute (p.evaluate_struck now).1
  obtain ⟨hunits, -, hdone, hfits⟩ :=
    v.execute.evaluate_issued v.number (p.struck now).registers.dToE.output
  obtain ⟨hlist, hretired, -⟩ :=
    v.execute.evaluate_retired v.number (p.struck now).registers.dToE.output
  rw [hlist, List.length_map] at hretired
  rw [hstage]
  exact ⟨hunits, hretired, (Execute.settings_evaluate ..).2.1, Execute.latency_evaluate .., hdone,
    hfits⟩

/-- What the stages report of execute. -/
theorem report_struckWork (p : Pipeline Stages) (now : Nat) :
    (p.struckWork now).addrs.execute = (Evaluation.issued ⟨p, now⟩).map (·.op.pc) ∧
      (p.struckWork now).retired = (Evaluation.leaving ⟨p, now⟩).map InFlight.retired := by
  have hissued := (Evaluation.execute ⟨p, now⟩).evaluate_issued (p.stats.cycles + 1)
    (p.struck now).registers.dToE.output
  have hretired := (Evaluation.execute ⟨p, now⟩).evaluate_retired (p.stats.cycles + 1)
    (p.struck now).registers.dToE.output
  exact ⟨hissued.2.1, hretired.1⟩

/-! ## The units as a delay line -/

/-- What execute was given, evaluation by evaluation, behind as many empty lists as it takes to go
through. -/
def issueRow (latency : Nat) (vs : List Evaluation) : List (List InFlight) :=
  List.replicate (max 1 latency) [] ++ vs.map Evaluation.issued

theorem issueRow_append (latency : Nat) (vs vs' : List Evaluation) :
    issueRow latency (vs ++ vs') = issueRow latency vs ++ vs'.map Evaluation.issued := by
  rw [issueRow, issueRow, List.map_append, List.append_assoc]

/-- The first lists are empty. -/
theorem getElem?_issueRow_of_lt {latency k : Nat} (hk : k < max 1 latency) (vs : List Evaluation) :
    (issueRow latency vs)[k]? = some [] := by
  rw [issueRow, List.getElem?_append_left (by rwa [List.length_replicate]),
    List.getElem?_replicate_of_lt hk]

/-- Then come those of the evaluations. -/
theorem getElem?_issueRow_add (latency k : Nat) (vs : List Evaluation) :
    (issueRow latency vs)[k + max 1 latency]? = vs[k]?.map Evaluation.issued := by
  rw [issueRow, List.getElem?_append_right (by rw [List.length_replicate]; omega),
    List.length_replicate, Nat.add_sub_cancel, List.getElem?_map]

/-- The last of them, as many as it takes to go through. -/
theorem flatten_drop_issueRow (latency n : Nat) (vs : List Evaluation) :
    ((issueRow latency vs).drop n).flatten =
      (vs.drop (n - max 1 latency)).flatMap Evaluation.issued := by
  rw [issueRow, List.drop_append, List.drop_replicate, List.length_replicate, List.flatten_append,
    List.flatten_replicate_nil, List.nil_append, ← List.map_drop, List.flatMap_def]

theorem length_issueRow (latency : Nat) (vs : List Evaluation) :
    (issueRow latency vs).length = max 1 latency + vs.length := by
  rw [issueRow, List.length_append, List.length_replicate, List.length_map]

/-- The units of a pipeline after some evaluations. -/
structure Paced (units latency : Nat) (p : Pipeline Stages) (vs : List Evaluation) : Prop where
  settings : p.stages.execute.unitCount = units ∧ p.stages.execute.latency = latency
  cycles : p.stats.cycles = vs.length
  fits : p.stages.execute.units.length ≤ units
  inside : List.Forall₂ InFlight.Alike ((issueRow latency vs).drop vs.length).flatten
    p.stages.execute.units
  /-- When it is done. -/
  due : ∀ k fs, (issueRow latency vs)[k]? = some fs → ∀ f ∈ fs,
    f.doneAt + max 1 latency = k + 1 + latency
  retired : p.stages.execute.retired + p.stages.execute.units.length =
    (vs.flatMap Evaluation.issued).length

namespace Paced

variable {units latency : Nat} {p q : Pipeline Stages} {vs : List Evaluation}

/-- The faults of a cycle touch nothing but instruction words. -/
theorem execute (h : p.Paced units latency vs) (now : Nat) {v : Evaluation} (hv : v = ⟨p, now⟩) :
    v.execute.unitCount = units ∧ v.execute.latency = latency ∧
      v.execute.retired = p.stages.execute.retired ∧
      List.Forall₂ InFlight.Alike p.stages.execute.units v.execute.units := by
  subst hv
  obtain ⟨us, hstruck, halike⟩ := p.stages_struck now
  rw [Evaluation.execute, hstruck]
  exact ⟨h.settings.1, h.settings.2, rfl, halike⟩

/-- **Just the next list of the row leaves**, and the rest stays. -/
theorem leaves (h : p.Paced units latency vs) (now : Nat) :
    ∃ fs, (issueRow latency vs)[vs.length]? = some fs ∧
      List.Forall₂ InFlight.Alike fs (Evaluation.leaving ⟨p, now⟩) ∧
      List.Forall₂ InFlight.Alike ((issueRow latency vs).drop (vs.length + 1)).flatten
        ((Evaluation.execute ⟨p, now⟩).kept (Evaluation.number ⟨p, now⟩)) := by
  have hlength := length_issueRow latency vs
  have hlt : vs.length < (issueRow latency vs).length := by omega
  have hnumber : Evaluation.number ⟨p, now⟩ = vs.length + 1 := congrArg (· + 1) h.cycles
  have hinside := InFlight.Alike.trans_forall₂ h.inside (h.execute now rfl).2.2.2
  rw [List.drop_eq_getElem_cons hlt, List.flatten_cons] at hinside
  refine ⟨_, List.getElem?_eq_getElem hlt, ?_⟩
  rw [Evaluation.leaving, hnumber]
  refine Execute.done_of_alike hinside (fun f hf => ?_) fun f hf => ?_
  · have hdue := h.due _ _ (List.getElem?_eq_getElem hlt) f hf
    rw [Execute.isDone, decide_eq_true_eq]
    omega
  · obtain ⟨fs, hfs, hf⟩ := List.mem_flatten.mp hf
    obtain ⟨j, hj, rfl⟩ := List.mem_drop_iff_getElem.mp hfs
    have hdue := h.due _ _ (List.getElem?_eq_getElem (by omega)) f hf
    rw [Execute.isDone, decide_eq_false_iff_not]
    omega

theorem evaluate (h : p.Paced units latency vs) (now : Nat) :
    (p.evaluate now).pipeline.Paced units latency (vs ++ [⟨p, now⟩]) := by
  let v : Evaluation := ⟨p, now⟩
  obtain ⟨fs, -, -, hkept⟩ := h.leaves now
  obtain ⟨hunitCount, hlatency, hretired, halike⟩ := h.execute now (v := v) rfl
  obtain ⟨hunits', hretired', hunitCount', hlatency', hdone, hfits⟩ :=
    p.execute_evaluate now (v := v) rfl
  have hnumber : v.number = vs.length + 1 := congrArg (· + 1) h.cycles
  have hsplit : v.execute.units.length = v.leaving.length + (v.execute.kept v.number).length := by
    rw [← List.length_append]
    exact congrArg List.length List.takeWhile_append_dropWhile.symm
  have hsame : v.execute.units.length = p.stages.execute.units.length := halike.length_eq.symm
  have hlength := length_issueRow latency vs
  have hlt : vs.length < (issueRow latency vs).length := by omega
  have hlast : (vs ++ [v]).length = vs.length + 1 := List.length_append
  refine ⟨⟨hunitCount'.trans hunitCount, hlatency'.trans hlatency⟩, ?_, ?_, ?_, ?_, ?_⟩
  · rw [(p.evaluate_struck now).2.2.1, h.cycles, hlast]
  · rw [← hunitCount] at h ⊢
    exact hfits (hsame ▸ h.fits)
  · have hdrop : (issueRow latency (vs ++ [v])).drop (vs ++ [v]).length =
        (issueRow latency vs).drop (vs.length + 1) ++ [v.issued] := by
      rw [issueRow_append, hlast, List.drop_append_of_le_length hlt]
      rfl
    rw [hdrop, List.flatten_append, List.flatten_singleton, hunits']
    exact List.rel_append hkept (List.forall₂_same.mpr fun f _ => .refl f)
  · intro k gs hgs f hf
    rw [issueRow_append, List.getElem?_append] at hgs
    split at hgs
    · exact h.due k gs hgs f hf
    · obtain ⟨hk, rfl⟩ : k - (issueRow latency vs).length = 0 ∧ v.issued = gs := by
        simpa [List.getElem?_singleton] using hgs
      have hat := hdone f hf
      rw [hlatency] at hat
      omega
  · have hcount := h.retired
    show _ = ((vs ++ [v]).flatMap Evaluation.issued).length
    rw [hretired', hretired, hunits', List.length_append, List.flatMap_append,
      List.flatMap_singleton, List.length_append]
    omega

/-- What touches neither the units nor their settings is not seen. -/
theorem of_eq (h : p.Paced units latency vs) (hcycles : q.stats.cycles = p.stats.cycles)
    (hsettings : q.stages.execute.unitCount = p.stages.execute.unitCount ∧
      q.stages.execute.latency = p.stages.execute.latency)
    (hunits : q.stages.execute.units = p.stages.execute.units)
    (hretired : q.stages.execute.retired = p.stages.execute.retired) :
    q.Paced units latency vs :=
  ⟨⟨hsettings.1.trans h.settings.1, hsettings.2.trans h.settings.2⟩, hcycles.trans h.cycles,
    hunits ▸ h.fits, hunits ▸ h.inside, h.due, by rw [hretired, hunits, h.retired]⟩

theorem wakeFetch (h : p.Paced units latency vs) (t : UInt32) :
    (p.wakeFetch t).1.Paced units latency vs := h.of_eq rfl ⟨rfl, rfl⟩ rfl rfl

theorem drain (h : p.Paced units latency vs) : p.drain.1.Paced units latency vs := by
  unfold Pipeline.drain
  simp only
  split <;> exact h.of_eq rfl ⟨rfl, rfl⟩ rfl rfl

theorem resume (h : p.Paced units latency vs) (n : Nat) :
    (p.resume n).1.Paced units latency vs := by
  have hwoken : (p.wakeAll (threadNumbers n)).1.Paced units latency vs :=
    wakeAll_induction (P := fun q => q.Paced units latency vs) (fun _ t h => h.wakeFetch t) _ h
  exact hwoken.of_eq rfl ⟨rfl, rfl⟩ rfl rfl

end Paced

theorem paced_of_new {c : Config} {m : Image} {p : Pipeline Stages} {events : List Event}
    (h : Pipeline.new c (.new Pipeline.owner c m) = .ok (p, events)) :
    p.Paced c.pipeline.units.toNat c.pipeline.executeLatency.toNat [] := by
  obtain ⟨blank, registers, faults, scheduled, hadmitted, hblank, hfaults, rfl⟩ := of_new_eq_ok h
  have hrow : ∀ fs ∈ issueRow c.pipeline.executeLatency.toNat [], fs = [] := by
    simp [issueRow]
  refine ⟨⟨rfl, rfl⟩, rfl, Nat.zero_le _, ?_, fun k fs hfs f hf => ?_, rfl⟩
  · rw [List.length_nil, List.drop_zero, List.flatten_eq_nil_iff.mpr hrow]
    exact .nil
  · rw [hrow fs (List.mem_of_getElem? hfs)] at hf
    exact absurd hf List.not_mem_nil

/-- As a list of evaluations grows, each of them was made of a pipeline that was paced. -/
structure Logged (units latency : Nat) (p : Pipeline Stages) (vs : List Evaluation) : Prop where
  paced : p.Paced units latency vs
  before : ∀ (k : Nat) (v : Evaluation), vs[k]? = some v → v.pipeline.Paced units latency (vs.take k)

namespace Logged

variable {units latency : Nat} {p : Pipeline Stages} {vs : List Evaluation}

theorem evaluate (h : p.Logged units latency vs) (now : Nat) :
    (p.evaluate now).pipeline.Logged units latency (vs ++ [⟨p, now⟩]) := by
  refine ⟨h.paced.evaluate now, fun k v hv => ?_⟩
  rcases Nat.lt_or_ge k vs.length with hk | hk
  · rw [List.getElem?_append_left hk] at hv
    rw [List.take_append_of_le_length (Nat.le_of_lt hk)]
    exact h.before k v hv
  · rw [List.getElem?_append_right hk] at hv
    obtain ⟨hzero, rfl⟩ : k - vs.length = 0 ∧ ⟨p, now⟩ = v := by
      simpa [List.getElem?_singleton] using hv
    rw [List.take_left' (by omega)]
    exact h.paced

/-- **What leaves in an evaluation** is what was issued the latency before, if anything was. -/
theorem leaving (h : p.Logged units latency vs) {k : Nat} {w : Evaluation} (hw : vs[k]? = some w) :
    ∃ fs, (issueRow latency vs)[k]? = some fs ∧ List.Forall₂ InFlight.Alike fs w.leaving := by
  obtain ⟨fs, hfs, halike, -⟩ := (h.before k w hw).leaves w.now
  have hk : k < vs.length := (List.getElem?_eq_some_iff.mp hw).1
  rw [List.length_take, Nat.min_eq_left (Nat.le_of_lt hk)] at hfs
  refine ⟨fs, ?_, halike⟩
  rw [← List.take_append_drop k vs, issueRow_append]
  exact List.getElem?_append_left (List.getElem?_eq_some_iff.mp hfs).1 |>.trans hfs

end Logged

end Pipeline

/-! ## Sessions -/

/-- What the evaluations of a run say of issue and retirement, and the pipeline after them. -/
structure Punctual (units latency : Nat) (vs : List Evaluation) (p : Pipeline Stages) : Prop where
  numbered : ∀ k v, vs[k]? = some v → v.number = k + 1
  /-- What is issued and what leaves is what the stages report. -/
  reported : ∀ v ∈ vs,
    (v.pipeline.struckWork v.now).addrs.execute = v.issued.map (·.op.pc) ∧
      (v.pipeline.struckWork v.now).retired = v.leaving.map InFlight.retired
  /-- What is issued leaves the latency later, in order. -/
  leaves : ∀ k v w, vs[k]? = some v → vs[k + max 1 latency]? = some w →
    List.Forall₂ InFlight.Alike v.issued w.leaving
  /-- Nothing else leaves. -/
  early : ∀ k w, k < max 1 latency → vs[k]? = some w → w.leaving = []
  /-- What was issued since is in the units. -/
  inside : List.Forall₂ InFlight.Alike
    ((vs.drop (vs.length - max 1 latency)).flatMap Evaluation.issued) p.stages.execute.units
  accounted : p.retired + p.stages.execute.units.length = (vs.flatMap Evaluation.issued).length
  /-- There are enough units, also in each evaluation. -/
  fits : p.stages.execute.units.length ≤ units ∧ ∀ v ∈ vs, v.execute.units.length ≤ units

/-- **Micro-ops retire on time.** -/
theorem timing_exact {c : Config} {m : Image} {s : Session} (hnew : Session.new c m = .ok s)
    (calls : List Call) :
    Punctual c.pipeline.units.toNat c.pipeline.executeLatency.toNat (s.evaluations calls)
      (s.after calls).pipeline := by
  obtain ⟨⟨events, hsimulator⟩, -⟩ := Session.simulator_of_new hnew
  obtain ⟨⟨told, hpipeline⟩, -, -⟩ := Simulator.of_new_eq_ok hsimulator
  have hstart : s.pipeline.Logged c.pipeline.units.toNat c.pipeline.executeLatency.toNat [] :=
    ⟨Pipeline.paced_of_new hpipeline, fun k v hv => absurd hv (by simp)⟩
  have hlogged := Session.pipeline_log_induction
    (P := fun p vs => p.Logged c.pipeline.units.toNat c.pipeline.executeLatency.toNat vs)
    (fun _ _ now h => h.evaluate now) (fun _ _ t h => ⟨h.paced.wakeFetch t, h.before⟩)
    (fun _ _ h => ⟨h.paced.drain, h.before⟩) (fun _ _ n h => ⟨h.paced.resume n, h.before⟩) calls
    hstart
  refine ⟨fun k v hv => ?_, fun v _ => ?_, fun k v w hv hw => ?_, fun k w hk hw => ?_, ?_, ?_, ?_⟩
  · have hcycles := (hlogged.before k v hv).cycles
    have hk := (List.getElem?_eq_some_iff.mp hv).1
    rw [List.length_take, Nat.min_eq_left (Nat.le_of_lt hk)] at hcycles
    rw [Evaluation.number, hcycles]
  · exact v.pipeline.report_struckWork v.now
  · obtain ⟨fs, hfs, halike⟩ := hlogged.leaving hw
    rw [Pipeline.getElem?_issueRow_add, hv] at hfs
    rwa [Option.some.inj hfs]
  · obtain ⟨fs, hfs, halike⟩ := hlogged.leaving hw
    rw [Pipeline.getElem?_issueRow_of_lt hk] at hfs
    obtain rfl := Option.some.inj hfs
    exact List.forall₂_nil_left_iff.mp halike
  · rw [← Pipeline.flatten_drop_issueRow]
    exact hlogged.paced.inside
  · exact hlogged.paced.retired
  · refine ⟨hlogged.paced.fits, fun v hv => ?_⟩
    obtain ⟨k, hk⟩ := List.getElem?_of_mem hv
    have hbefore := hlogged.before k v hk
    rw [← (hbefore.execute v.now rfl).2.2.2.length_eq]
    exact hbefore.fits

/-- Two units of latency three that are flipped in every cycle, and a flip in the register before
them. -/
def Config.flaky : Config :=
  { pipeline := { units := 2, executeLatency := 3, idling := true }
    faults :=
      { register := "dToE", tick := 7, bit := 200, unit := true, unitMode := .repeating
        unitBit := 9 } }

/-- A drain that is left after the pipeline has stopped. -/
def pausedCalls : List Call :=
  .wake 0 :: (List.replicate 8 .step ++ .drain :: List.replicate 8 .step ++
    .resume :: List.replicate 9 .step)

/-- Five of the ticks are no evaluations. What is issued in the eighth evaluation retires in the
eleventh, its first word flipped. -/
theorem timing_exact_flaky : ∃ s, Session.new .flaky .brief = .ok s ∧
    (s.after pausedCalls).simulator.tick = 25 ∧ (s.evaluations pausedCalls).length = 20 ∧
    ((s.evaluations pausedCalls)[7]?.map fun v => v.issued.map InFlight.retired) =
      some [⟨0, 0x80000008, 19⟩, ⟨0, 0x8000000c, 115⟩] ∧
    ((s.evaluations pausedCalls)[10]?.map fun v => v.leaving.map InFlight.retired) =
      some [⟨0, 0x80000008, 531⟩, ⟨0, 0x8000000c, 115⟩] ∧
    Punctual 2 3 (s.evaluations pausedCalls) (s.after pausedCalls).pipeline := by
  obtain ⟨s, hnew, htick, hlength, hissued, hleaving⟩ : ∃ s, Session.new .flaky .brief = .ok s ∧
      (s.after pausedCalls).simulator.tick = 25 ∧ (s.evaluations pausedCalls).length = 20 ∧
      ((s.evaluations pausedCalls)[7]?.map fun v => v.issued.map InFlight.retired) =
        some [⟨0, 0x80000008, 19⟩, ⟨0, 0x8000000c, 115⟩] ∧
      ((s.evaluations pausedCalls)[10]?.map fun v => v.leaving.map InFlight.retired) =
        some [⟨0, 0x80000008, 531⟩, ⟨0, 0x8000000c, 115⟩] :=
    ⟨_, rfl, by decide +kernel⟩
  exact ⟨s, hnew, htick, hlength, hissued, hleaving, timing_exact hnew pausedCalls⟩

end InOrder
