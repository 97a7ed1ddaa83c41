import InOrder.Proofs.Flips
import InOrder.Proofs.History
import InOrder.Proofs.Isolation
import Mathlib.Data.List.Induction

/-!
# Scheduled flips

A flip is scheduled in the register of an edge, and the edge has to wait for it in the log. The two
are changed by different calls. `Bench.InForce` says from the calls alone, and the edges that
waited, which flip of an edge counts: it was accepted, none was accepted for the edge since, and no
evaluation has asked the edge when its tick had come.

What an evaluation does to the log and the registers is said once, for the edges that wait, each of
which waits once (`FaultLog.Asks`); the register of an edge is asked as it is, since asking others
does not touch it.

* `Registers.flips_in_time`: whatever is done to new registers and a log, the flips in the registers
  are those in force, and an evaluation flips the bits of those that are due and waited for, once,
  and nothing else.
-/

namespace InOrder

/-! ## The register of an edge -/

/-- What the register of an edge holds. -/
def Edge.Carried : Edge → Type
  | .f1ToF2 => Line
  | .f2ToD => Bundle
  | .dToE => Bundle
  | .eToF1 => Redirect
  | .f2ToF1 => Redirect

instance : (e : Edge) → Payload e.Carried
  | .f1ToF2 => inferInstanceAs (Payload Line)
  | .f2ToD => inferInstanceAs (Payload Bundle)
  | .dToE => inferInstanceAs (Payload Bundle)
  | .eToF1 => inferInstanceAs (Payload Redirect)
  | .f2ToF1 => inferInstanceAs (Payload Redirect)

instance : (e : Edge) → Payload.Faithful e.Carried
  | .f1ToF2 => inferInstanceAs (Payload.Faithful Line)
  | .f2ToD => inferInstanceAs (Payload.Faithful Bundle)
  | .dToE => inferInstanceAs (Payload.Faithful Bundle)
  | .eToF1 => inferInstanceAs (Payload.Faithful Redirect)
  | .f2ToF1 => inferInstanceAs (Payload.Faithful Redirect)

namespace Registers

/-- The register of an edge. -/
def get (rs : Registers) : (e : Edge) → Register e.Carried
  | .f1ToF2 => rs.f1ToF2
  | .f2ToD => rs.f2ToD
  | .dToE => rs.dToE
  | .eToF1 => rs.eToF1
  | .f2ToF1 => rs.f2ToF1

variable {rs rs' : Registers}

theorem ext_get (h : ∀ e, rs.get e = rs'.get e) : rs = rs' := by
  obtain ⟨a, b, c, d, e⟩ := rs
  obtain rfl : a = _ := h .f1ToF2
  obtain rfl : b = _ := h .f2ToD
  obtain rfl : c = _ := h .dToE
  obtain rfl : d = _ := h .eToF1
  obtain rfl : e = _ := h .f2ToF1
  rfl

/-- A change is made to the register of its edge and to no other. -/
theorem get_change {β : Type} (rs : Registers) (e e' : Edge)
    (f : {α : Type} → [Payload α] → Register α → Register α × β) :
    (rs.change e f).1.get e' = if e' = e then (f (rs.get e')).1 else rs.get e' := by
  cases e <;> cases e' <;> rfl

theorem change_snd {β : Type} (rs : Registers) (e : Edge)
    (f : {α : Type} → [Payload α] → Register α → Register α × β) :
    (rs.change e f).2 = (f (rs.get e)).2 := by
  cases e <;> rfl

theorem get_inject (rs : Registers) (e e' : Edge) (now : Nat) :
    (rs.inject e now).1.get e' = if e' = e then ((rs.get e').inject now).1 else rs.get e' :=
  rs.get_change e e' fun r => r.inject now

theorem inject_snd (rs : Registers) (e : Edge) (now : Nat) :
    (rs.inject e now).2 = ((rs.get e).inject now).2 :=
  rs.change_snd e fun r => r.inject now

theorem flip_write (rs : Registers) (w : Writes) (e : Edge) :
    ((rs.write w).get e).flip = (rs.get e).flip := by
  have hwrite : ∀ {α : Type} (r : Register α) (a : Option α), (r.write? a).flip = r.flip := by
    intro α r a
    cases a <;> rfl
  cases e <;> exact hwrite _ _

theorem flip_advance (rs : Registers) (e : Edge) : (rs.advance.get e).flip = (rs.get e).flip := by
  cases e <;> rfl

theorem flip_new {owner : String} {c : PipelineConfig} (h : Registers.new owner c = .ok rs)
    (e : Edge) : (rs.get e).flip = none := by
  obtain rfl := eq_of_new h
  cases e <;> rfl

end Registers

/-! ## What a register answers -/

namespace Register

variable {α : Type} [Payload α] {r : Register α} {now bit : Nat}

/-- The flip that is scheduled is of this bit, its tick is now, and what stands at the output has
the bit. -/
def IsHit (r : Register α) (now bit : Nat) : Prop :=
  r.flip = some ⟨now, bit⟩ ∧ bit < Payload.bitCount r.output

/-- What a register that is asked for its flip answers, and what is left of it. -/
structure Answers (r : Register α) (now : Nat) (answer : Register α × Injection) : Prop where
  hit : r.Hit answer.1
  flip : ∀ f, answer.1.flip = some f ↔ r.flip = some f ∧ now < f.tick
  idle : answer.2 = .idle ↔ ∀ f, r.flip = some f → now < f.tick
  applied : ∀ bit, answer.2 = .applied bit ↔ r.IsHit now bit
  output : (∀ bit, ¬ r.IsHit now bit) → answer.1.output = r.output
  differs : ∀ bit, r.IsHit now bit →
    Payload.DiffersAt bit (Payload.encode r.output) (Payload.encode answer.1.output)

/-- Nothing is done while no flip is due. -/
theorem answers_of_early (h : ∀ f, r.flip = some f → now < f.tick) : r.Answers now (r, .idle) where
  hit := .refl r
  flip f := (and_iff_left_of_imp (h f)).symm
  idle := iff_of_true rfl h
  applied _ := iff_of_false Injection.noConfusion fun hhit => Nat.lt_irrefl now (h _ hhit.1)
  output _ := rfl
  differs _ hhit := absurd (h _ hhit.1) (Nat.lt_irrefl now)

/-- A flip that is due is gone afterwards, whatever it has struck. -/
theorem answers_of_due {f : Flip} (hflip : r.flip = some f) (hdue : f.tick ≤ now) {q : Register α}
    {i : Injection} (hhit : r.Hit q) (hq : q.flip = none) (hidle : i ≠ .idle)
    (happlied : ∀ bit, i = .applied bit ↔ r.IsHit now bit)
    (houtput : (∀ bit, ¬ r.IsHit now bit) → q.output = r.output)
    (hdiffers : ∀ bit, r.IsHit now bit →
      Payload.DiffersAt bit (Payload.encode r.output) (Payload.encode q.output)) :
    r.Answers now (q, i) := by
  have hcome : ∀ g, r.flip = some g → ¬ now < g.tick := fun g hg =>
    Option.some.inj (hflip.symm.trans hg) ▸ Nat.not_lt.mpr hdue
  refine ⟨hhit, fun g => iff_of_false ?_ fun hg => hcome g hg.1 hg.2, ?_, happlied, houtput,
    hdiffers⟩
  · show q.flip ≠ some g
    rw [hq]
    exact nofun
  · exact iff_of_false hidle fun hall => hcome f hflip (hall f hflip)

/-- **A flip waits, is dropped, or is applied.** -/
theorem answers_inject [Payload.Faithful α] (r : Register α) (now : Nat) :
    r.Answers now (r.inject now) := by
  cases hflip : r.flip with
  | none =>
    have hidle : r.inject now = (r, .idle) := by
      unfold inject
      rw [hflip]
    rw [hidle]
    exact answers_of_early fun f hf => nomatch hflip.symm.trans hf
  | some f =>
    -- the register is one without a flip, with this flip scheduled
    obtain ⟨q, hq, rfl⟩ : ∃ q : Register α, q.flip = none ∧ r = { q with flip := some f } :=
      ⟨{ r with flip := none }, rfl, by rw [← hflip]⟩
    rcases Nat.lt_or_ge now f.tick with hearly | hcome
    · rw [inject_early hearly]
      exact answers_of_early fun g hg => Option.some.inj hg ▸ hearly
    have hhit : ∀ bit, ({ q with flip := some f } : Register α).IsHit now bit ↔
        f = ⟨now, bit⟩ ∧ bit < Payload.bitCount q.output := fun bit =>
      and_congr_left fun _ => Option.some_inj
    by_cases hnow : f.tick = now ∧ f.bit < Payload.bitCount q.output
    · obtain ⟨a, ha, heq⟩ := inject_due hq hnow.1 hnow.2
      have hbit : ∀ bit, f.bit = bit ↔ ({ q with flip := some f } : Register α).IsHit now bit := by
        intro bit
        rw [hhit]
        exact ⟨fun hf => hf ▸ ⟨hnow.1 ▸ rfl, hnow.2⟩, fun ⟨hf, _⟩ => hf ▸ rfl⟩
      rw [heq]
      refine answers_of_due rfl hcome ⟨a, q.flip, rfl⟩ hq Injection.noConfusion (fun bit => ?_)
        (fun hnone => absurd ((hbit f.bit).mp rfl) (hnone f.bit)) fun bit hb => ?_
      · rw [Injection.applied.injEq, hbit]
      · obtain rfl := (hbit bit).mpr hb
        exact Payload.differsAt_of_flip? ha
    · have hmiss : f.tick = now → Payload.bitCount q.output ≤ f.bit := fun htick =>
        Nat.not_lt.mp fun hlt => hnow ⟨htick, hlt⟩
      have hnone : ∀ bit, ¬ ({ q with flip := some f } : Register α).IsHit now bit := by
        intro bit hbit
        obtain ⟨rfl, hlt⟩ := (hhit bit).mp hbit
        exact hnow ⟨rfl, hlt⟩
      obtain ⟨i, ⟨hidle, hrecord⟩, heq⟩ := inject_spent hq hcome hmiss
      have happlied : ∀ bit, i ≠ .applied bit := by
        rintro bit rfl
        exact List.cons_ne_nil _ _ (hrecord .f1ToF2)
      rw [heq]
      exact answers_of_due rfl hcome ⟨q.output, q.flip, rfl⟩ hq hidle
        (fun bit => iff_of_false (happlied bit) (hnone bit)) (fun _ => rfl)
        fun bit hbit => absurd hbit (hnone bit)

end Register

/-! ## What a log finds -/

namespace FaultLog

/-- What becomes of the registers and of the log when some edges are asked. -/
structure Asks (now : Nat) (es : List Edge) (rs : Registers)
    (answer : FaultLog × Registers × List Event) : Prop where
  waiting : answer.1.waiting = es.filter fun e => ((rs.get e).inject now).2 = .idle
  applied : answer.1.applied = es.flatMap fun e => record e now ((rs.get e).inject now).2
  registers : ∀ e, answer.2.1.get e = if e ∈ es then ((rs.get e).inject now).1 else rs.get e

/-- **Each edge finds its register as it was**, if none is asked twice. -/
theorem asks_ask (now : Nat) : ∀ {es : List Edge}, es.Nodup → ∀ rs, Asks now es rs (ask now es rs)
  | [], _, _ => ⟨rfl, rfl, fun _ => rfl⟩
  | e :: es, h, rs => by
    obtain ⟨hnew, hrest⟩ := List.nodup_cons.mp h
    have ih := asks_ask now hrest (rs.inject e now).1
    have hsame : ∀ e' ∈ es, (rs.inject e now).1.get e' = rs.get e' := by
      intro e' he'
      rw [Registers.get_inject, if_neg (ne_of_mem_of_not_mem he' hnew)]
    refine ⟨?_, ?_, fun e' => ?_⟩
    · have hfilter : (ask now es (rs.inject e now).1).1.waiting =
          es.filter fun e' => ((rs.get e').inject now).2 = .idle := by
        rw [ih.waiting]
        exact List.filter_congr fun e' he' => by rw [hsame e' he']
      rw [ask]
      dsimp only
      rw [hfilter, Registers.inject_snd, List.filter_cons]
      simp only [decide_eq_true_eq]
    · have hflat : (ask now es (rs.inject e now).1).1.applied =
          es.flatMap fun e' => record e' now ((rs.get e').inject now).2 := by
        rw [ih.applied]
        exact List.flatMap_congr fun e' he' => by rw [hsame e' he']
      rw [ask]
      dsimp only
      rw [hflat, Registers.inject_snd, List.flatMap_cons]
    · have hget := ih.registers e'
      rw [ask]
      dsimp only
      rw [hget, Registers.get_inject]
      by_cases he : e' = e
      · obtain rfl := he
        rw [if_neg hnew, if_pos rfl, if_pos List.mem_cons_self]
      · simp only [List.mem_cons, he, false_or, if_false]

/-- What is recorded of an answer. -/
theorem mem_record {α : Type} [Payload α] {r : Register α} {now : Nat}
    {answer : Register α × Injection} (h : r.Answers now answer) (e : Edge) (x : FlipRecord) :
    x ∈ record e now answer.2 ↔ x.edge = e ∧ x.tick = now ∧ r.IsHit now x.bit := by
  obtain ⟨e', tick, bit⟩ := x
  rw [← h.applied]
  cases answer.2 with
  | applied bit' =>
    simp only [record, List.mem_singleton, FlipRecord.mk.injEq, Injection.applied.injEq,
      @eq_comm _ bit]
  | idle | outside | missed => simp [record]

/-- What is recorded of several answers, an edge each. -/
theorem sublist_records {es : List Edge} {now : Nat} {answers : Edge → Injection} :
    ((es.flatMap fun e => record e now (answers e)).map FlipRecord.edge).Sublist es := by
  induction es with
  | nil => exact .slnil
  | cons e es ih =>
    rw [List.flatMap_cons, List.map_append]
    cases answers e with
    | applied bit => exact ih.cons_cons e
    | idle | outside | missed => exact ih.cons e

variable {l : FaultLog}

/-- An edge waits behind those that came before it. -/
theorem waiting_register (l : FaultLog) (e : Edge) :
    (l.register e).waiting = if e ∈ l.waiting then l.waiting else l.waiting ++ [e] := by
  unfold register
  split <;> rfl

theorem nodup_register (h : l.waiting.Nodup) (e : Edge) : (l.register e).waiting.Nodup := by
  rw [waiting_register]
  split
  · exact h
  · rename_i hnew
    exact List.nodup_append.mpr ⟨h, List.nodup_singleton e, fun e' he' e'' he'' =>
      ne_of_mem_of_not_mem he' ((List.mem_singleton.mp he'') ▸ hnew)⟩

theorem nodup_evaluate (h : l.waiting.Nodup) (now : Nat) (rs : Registers) :
    (l.evaluate now rs).1.waiting.Nodup := by
  show (ask now l.waiting rs).1.waiting.Nodup
  rw [(asks_ask now h rs).waiting]
  exact h.filter _

/-- A log that was made by its operations, whatever registers it was asked about. -/
inductive Made : FaultLog → Prop
  | new : Made {}
  | register {l : FaultLog} (h : Made l) (e : Edge) : Made (l.register e)
  | evaluate {l : FaultLog} (h : Made l) (now : Nat) (rs : Registers) : Made (l.evaluate now rs).1

/-- No edge waits twice. -/
theorem Made.nodup (h : l.Made) : l.waiting.Nodup := by
  induction h with
  | new => exact List.nodup_nil
  | register _ e ih => exact nodup_register ih e
  | evaluate _ now rs ih => exact nodup_evaluate ih now rs

end FaultLog

/-! ## Calls -/

/-- The registers of a pipeline, and the log of flips in them. -/
structure Bench where
  log : FaultLog
  registers : Registers

namespace Bench

/-- What is done to registers and log. -/
inductive Call where
  /-- Let an edge wait. -/
  | register (e : Edge)
  | schedule (e : Edge) (tick bit now : Nat)
  /-- What the stages write. -/
  | write (w : Writes)
  /-- One cycle of the registers. -/
  | advance
  /-- Apply every flip that is due. -/
  | evaluate (now : Nat)

/-- Registers and log after a call. -/
def perform (b : Bench) : Call → Bench
  | .register e => { b with log := b.log.register e }
  | .schedule e tick bit now => { b with registers := (b.registers.schedule e tick bit now).1 }
  | .write w => { b with registers := b.registers.write w }
  | .advance => { b with registers := b.registers.advance }
  | .evaluate now =>
    ⟨(b.log.evaluate now b.registers).1, (b.log.evaluate now b.registers).2.1⟩

def performAll (b : Bench) (calls : List Call) : Bench := calls.foldl perform b

theorem performAll_concat (b : Bench) (calls : List Call) (u : Call) :
    b.performAll (calls ++ [u]) = (b.performAll calls).perform u := List.foldl_concat ..

/-- The call schedules the flip in the register of the edge, and is accepted. -/
def Call.Schedules (u : Call) (e : Edge) (f : Flip) : Prop :=
  ∃ now, u = .schedule e f.tick f.bit now ∧ now ≤ f.tick

/-- The call puts an end to the flip of an edge: another one is accepted in its place, or it is
consumed, since the edge waits and the tick has come. -/
def Ends (b : Bench) (e : Edge) (f : Flip) : Call → Prop
  | .schedule e' tick _ now => e' = e ∧ now ≤ tick
  | .evaluate now => e ∈ b.log.waiting ∧ f.tick ≤ now
  | _ => False

/-- Among these calls the flip was accepted for the edge, and none has put an end to it since. -/
def InForce (b : Bench) (e : Edge) (f : Flip) (calls : List Call) : Prop :=
  Somewhere (fun before u later => u.Schedules e f ∧
    ¬ Somewhere (fun since v _ => (b.performAll (before ++ u :: since)).Ends e f v) later) calls

variable {b : Bench} {e : Edge} {f : Flip} {calls : List Call}

theorem not_inForce_nil : ¬ b.InForce e f [] := not_somewhere_nil

/-- The last call accepts the flip, or leaves the one that was in force. -/
theorem inForce_concat {u : Call} : b.InForce e f (calls ++ [u]) ↔
    u.Schedules e f ∨ (b.InForce e f calls ∧ ¬ (b.performAll calls).Ends e f u) := by
  rw [InForce, somewhere_concat]
  refine or_congr (and_iff_left not_somewhere_nil) ?_
  constructor
  · rintro ⟨before, v, later, rfl, hv, hkept⟩
    rw [somewhere_concat, not_or] at hkept
    exact ⟨⟨before, v, later, rfl, hv, hkept.2⟩, hkept.1⟩
  · rintro ⟨⟨before, v, later, rfl, hv, hkept⟩, hu⟩
    refine ⟨before, v, later, rfl, hv, ?_⟩
    rw [somewhere_concat, not_or]
    exact ⟨hu, hkept⟩

theorem nodup_perform (h : b.log.waiting.Nodup) (u : Call) : (b.perform u).log.waiting.Nodup := by
  cases u with
  | register e => exact FaultLog.nodup_register h e
  | evaluate now => exact FaultLog.nodup_evaluate h now b.registers
  | schedule | write | advance => exact h

/-- To schedule a flip is to replace what was scheduled, unless the tick has passed. -/
theorem flip_schedule (rs : Registers) (e e' : Edge) (tick bit now : Nat) :
    ((rs.schedule e' tick bit now).1.get e).flip =
      if e' = e ∧ now ≤ tick then some ⟨tick, bit⟩ else (rs.get e).flip := by
  rw [Registers.schedule, Registers.get_change]
  by_cases he : e' = e
  · obtain rfl := he
    by_cases hpast : tick < now
    · simp [Register.schedule, hpast, Nat.not_le.mpr hpast]
    · simp [Register.schedule, hpast, Nat.not_lt.mp hpast]
  · rw [if_neg (Ne.symm he), if_neg fun h => he h.1]

theorem schedules_iff {e' : Edge} {tick bit now : Nat} :
    (Call.schedule e' tick bit now).Schedules e f ↔ f = ⟨tick, bit⟩ ∧ e' = e ∧ now ≤ tick := by
  constructor
  · rintro ⟨now', heq, hle⟩
    obtain ⟨rfl, rfl, rfl, rfl⟩ := Call.schedule.inj heq
    exact ⟨rfl, rfl, hle⟩
  · rintro ⟨rfl, rfl, hle⟩
    exact ⟨now, rfl, hle⟩

/-- **What a call does to the flip of an edge.** -/
theorem flip_perform (h : b.log.waiting.Nodup) (u : Call) :
    ((b.perform u).registers.get e).flip = some f ↔
      u.Schedules e f ∨ ((b.registers.get e).flip = some f ∧ ¬ b.Ends e f u) := by
  cases u with
  | register e' => simp [perform, Call.Schedules, Ends]
  | write w => simp [perform, Call.Schedules, Ends, Registers.flip_write]
  | advance => simp [perform, Call.Schedules, Ends, Registers.flip_advance]
  | schedule e' tick bit now =>
    rw [perform, flip_schedule, schedules_iff, Ends]
    by_cases haccepted : e' = e ∧ now ≤ tick
    · simp [haccepted, eq_comm]
    · simp [haccepted]
  | evaluate now =>
    have hget := (FaultLog.asks_ask now h b.registers).registers e
    have hflip := ((b.registers.get e).answers_inject now).flip f
    have hnone : ¬ (Call.evaluate now).Schedules e f := fun ⟨_, heq, _⟩ => Call.noConfusion heq
    show ((FaultLog.ask now b.log.waiting b.registers).2.1.get e).flip = some f ↔ _
    rw [hget, or_iff_right hnone, Ends]
    by_cases hwaits : e ∈ b.log.waiting
    · rw [if_pos hwaits, hflip, and_iff_right hwaits, Nat.not_le]
    · rw [if_neg hwaits, and_iff_left fun hdue => hwaits hdue.1]

/-- The registers hold the flips that are in force, if none was scheduled at the start. -/
theorem flips_performAll (h : b.log.waiting.Nodup) (hnone : ∀ e, (b.registers.get e).flip = none)
    (calls : List Call) : (b.performAll calls).log.waiting.Nodup ∧
      ∀ e f, ((b.performAll calls).registers.get e).flip = some f ↔ b.InForce e f calls := by
  induction calls using List.reverseRecOn with
  | nil =>
    refine ⟨h, fun e f => iff_of_false ?_ not_inForce_nil⟩
    exact fun hf => nomatch (hnone e).symm.trans hf
  | append_singleton calls u ih =>
    obtain ⟨hnodup, hflips⟩ := ih
    rw [performAll_concat]
    refine ⟨nodup_perform hnodup u, fun e f => ?_⟩
    rw [flip_perform hnodup, inForce_concat, hflips]

/-! ## What an evaluation does -/

/-- The edge waits for its flip, and the tick has come. -/
def Due (b : Bench) (now : Nat) (e : Edge) : Prop :=
  e ∈ b.log.waiting ∧ ∃ f, (b.registers.get e).flip = some f ∧ f.tick ≤ now

/-- The edge waits for a flip of this bit, the tick is now, and what stands at the output has the
bit. -/
def Hits (b : Bench) (now : Nat) (e : Edge) (bit : Nat) : Prop :=
  e ∈ b.log.waiting ∧ (b.registers.get e).IsHit now bit

/-- What an evaluation makes of log and registers. -/
structure Evaluates (now : Nat) (b b' : Bench) : Prop where
  /-- The outputs that change are those that are hit, and they change in one bit. -/
  changed : ∀ e, (b'.registers.get e).output ≠ (b.registers.get e).output ↔ ∃ bit, b.Hits now e bit
  differs : ∀ e bit, b.Hits now e bit → Payload.DiffersAt bit
    (Payload.encode (b.registers.get e).output) (Payload.encode (b'.registers.get e).output)
  /-- Nothing but outputs and flips has changed. -/
  kept : ∀ e, (b.registers.get e).Hit (b'.registers.get e)
  slots : ∀ e, (b'.registers.get e).line.slots.tail = (b.registers.get e).line.slots.tail
  /-- What is due is consumed, and its edge waits no longer; all else stays. -/
  flip : ∀ e f, (b'.registers.get e).flip = some f ↔
    (b.registers.get e).flip = some f ∧ ¬ b.Due now e
  waiting : b'.log.waiting.Sublist b.log.waiting
  mem_waiting : ∀ e, e ∈ b'.log.waiting ↔ e ∈ b.log.waiting ∧ ¬ b.Due now e
  /-- Each hit is recorded once, in the order of the edges that wait. -/
  log : ∃ records, b'.log.applied = b.log.applied ++ records ∧
    (records.map FlipRecord.edge).Sublist b.log.waiting ∧
    ∀ r, r ∈ records ↔ r.tick = now ∧ b.Hits now r.edge r.bit

/-- **An evaluation strikes what is due, and nothing else.** -/
theorem evaluates (h : b.log.waiting.Nodup) (now : Nat) :
    b.Evaluates now (b.perform (.evaluate now)) := by
  have hasks := FaultLog.asks_ask now h b.registers
  have hanswers := fun e => (b.registers.get e).answers_inject now
  have hwaiting : (b.perform (.evaluate now)).log.waiting = _ := hasks.waiting
  have hget : ∀ e, (b.perform (.evaluate now)).registers.get e = _ := hasks.registers
  have hdue : ∀ e, e ∈ b.log.waiting →
      (((b.registers.get e).inject now).2 = .idle ↔ ¬ b.Due now e) := fun e he => by
    rw [(hanswers e).idle]
    simp only [Due, he, true_and, not_exists, not_and, Nat.not_le]
  have hkept : ∀ e, (b.registers.get e).Hit ((b.perform (.evaluate now)).registers.get e) := by
    intro e
    rw [hget]
    split
    · exact (hanswers e).hit
    · exact .refl _
  have hdiffers : ∀ e bit, b.Hits now e bit → Payload.DiffersAt bit
      (Payload.encode (b.registers.get e).output)
      (Payload.encode ((b.perform (.evaluate now)).registers.get e).output) := by
    intro e bit hhit
    rw [hget, if_pos hhit.1]
    exact (hanswers e).differs bit hhit.2
  refine ⟨fun e => ⟨?_, ?_⟩, hdiffers, hkept, fun e => ?_, fun e f => ?_, ?_, fun e => ?_, ?_⟩
  · intro hne
    by_contra hnone
    refine hne ?_
    rw [hget]
    split
    · rename_i he
      exact (hanswers e).output fun bit hbit => hnone ⟨bit, he, hbit⟩
    · rfl
  · rintro ⟨bit, hhit⟩ heq
    exact (hdiffers e bit hhit).ne (congrArg Payload.encode heq)
  · obtain ⟨a, flip, heq⟩ := hkept e
    rw [heq]
    rfl
  · rw [hget]
    by_cases he : e ∈ b.log.waiting
    · rw [if_pos he, (hanswers e).flip]
      refine and_congr_right fun hf => ?_
      rw [← hdue e he, (hanswers e).idle]
      exact ⟨fun hlt g hg => Option.some.inj (hf.symm.trans hg) ▸ hlt, fun hall => hall f hf⟩
    · rw [if_neg he, and_iff_left fun hd : b.Due now e => he hd.1]
  · rw [hwaiting]
    exact List.filter_sublist
  · rw [hwaiting, List.mem_filter, decide_eq_true_iff]
    exact and_congr_right fun he => hdue e he
  · refine ⟨_, congrArg (b.log.applied ++ ·) hasks.applied, FaultLog.sublist_records, fun r => ?_⟩
    rw [List.mem_flatMap]
    constructor
    · rintro ⟨e, he, hr⟩
      obtain ⟨rfl, htick, hhit⟩ := (FaultLog.mem_record (hanswers e) e r).mp hr
      exact ⟨htick, he, hhit⟩
    · rintro ⟨htick, he, hhit⟩
      exact ⟨r.edge, he, (FaultLog.mem_record (hanswers r.edge) r.edge r).mpr ⟨rfl, htick, hhit⟩⟩

/-- The log only grows. -/
theorem applied_perform (b : Bench) (u : Call) : b.log.applied <+: (b.perform u).log.applied := by
  cases u with
  | register e =>
    show b.log.applied <+: (b.log.register e).applied
    unfold FaultLog.register
    split <;> exact List.prefix_rfl
  | evaluate now => exact List.prefix_append _ _
  | schedule | write | advance => exact List.prefix_rfl

/-- What is scheduled too late changes nothing. -/
theorem perform_schedule_of_lt {tick bit now : Nat} (h : tick < now) (b : Bench) (e : Edge) :
    (b.registers.schedule e tick bit now).2.1 = false ∧
      b.perform (.schedule e tick bit now) = b := by
  have hsame : ∀ {α : Type} [Payload α] (r : Register α),
      r.schedule tick bit now = (r, false, [.flipTooLate r.name tick now]) := fun r => if_pos h
  have hregisters : (b.registers.schedule e tick bit now).1 = b.registers := by
    refine Registers.ext_get fun e' => ?_
    rw [Registers.schedule, Registers.get_change, hsame]
    split <;> rfl
  refine ⟨?_, ?_⟩
  · rw [Registers.schedule, Registers.change_snd, hsame]
  · rw [perform, hregisters]

/-- What is scheduled in time is the flip of its edge from then on. -/
theorem schedule_of_le {tick bit now : Nat} (h : now ≤ tick) (b : Bench) (e : Edge) :
    (b.registers.schedule e tick bit now).2.1 = true ∧
      ((b.perform (.schedule e tick bit now)).registers.get e).flip = some ⟨tick, bit⟩ := by
  refine ⟨?_, ?_⟩
  · rw [Registers.schedule, Registers.change_snd, Register.schedule, if_neg (Nat.not_lt.mpr h)]
  · rw [perform, flip_schedule, if_pos ⟨rfl, h⟩]

/-- What is to be said of log and registers after some calls, and of what can be called next. -/
structure Keeps (start : Bench) (calls : List Call) (b : Bench) : Prop where
  /-- No edge waits twice. -/
  nodup : b.log.waiting.Nodup
  flip : ∀ e f, (b.registers.get e).flip = some f ↔ start.InForce e f calls
  evaluate : ∀ now, b.Evaluates now (b.perform (.evaluate now))
  rejected : ∀ e tick bit now, tick < now → (b.registers.schedule e tick bit now).2.1 = false ∧
    b.perform (.schedule e tick bit now) = b
  accepted : ∀ e tick bit now, now ≤ tick → (b.registers.schedule e tick bit now).2.1 = true ∧
    ((b.perform (.schedule e tick bit now)).registers.get e).flip = some ⟨tick, bit⟩
  register : ∀ e, (b.perform (.register e)).log.waiting =
    if e ∈ b.log.waiting then b.log.waiting else b.log.waiting ++ [e]
  grows : ∀ u, b.log.applied <+: (b.perform u).log.applied

end Bench

/-- **Flips strike once, and in time.** Take new registers of positive delays, any log, and any
calls. The flips that wait in the registers are those that the calls leave in force. An evaluation
flips one bit at the output of each edge that waits for a flip of this tick which the payload has,
records it, and touches nothing else; the flips whose tick has come are gone then, with the edges
that waited for them. A flip that is scheduled too late leaves the one before it, any other takes
its place. -/
theorem Registers.flips_in_time {c : PipelineConfig} (hdelays : ∀ e, 0 < (c.delays.get e).toNat)
    (owner : String) {l : FaultLog} (hl : l.Made) : ∃ rs, Registers.new owner c = .ok rs ∧
      ∀ calls, Bench.Keeps ⟨l, rs⟩ calls (Bench.performAll ⟨l, rs⟩ calls) := by
  obtain ⟨rs, hrs⟩ := Registers.exists_new hdelays owner
  refine ⟨rs, hrs, fun calls => ?_⟩
  obtain ⟨hnodup, hflips⟩ :=
    Bench.flips_performAll (b := ⟨l, rs⟩) hl.nodup (Registers.flip_new hrs) calls
  exact ⟨hnodup, hflips, fun now => Bench.evaluates hnodup now,
    fun e _ _ _ h => Bench.perform_schedule_of_lt h _ e,
    fun e _ _ _ h => Bench.schedule_of_le h _ e, FaultLog.waiting_register _, Bench.applied_perform _⟩

/-- A flip that takes the place of an earlier one, a late one, and an evaluation before its time. -/
def callsOfRedirect : List Bench.Call :=
  [.register .eToF1, .schedule .eToF1 9 0 0, .schedule .eToF1 5 9 2, .schedule .eToF1 1 3 2,
    .evaluate 4]

/-- The flip that took the place of an earlier one is in force, and strikes at its tick. -/
theorem flips_in_time_redirect : (∀ e, 0 < ((({} : PipelineConfig).delays).get e).toNat) ∧
    FaultLog.Made {} ∧ ∃ rs, Registers.new "cpu" {} = .ok rs ∧
      Bench.InForce ⟨{}, rs⟩ .eToF1 ⟨5, 9⟩ callsOfRedirect ∧
      ((Bench.performAll ⟨{}, rs⟩ (callsOfRedirect ++ [.evaluate 5])).registers.get .eToF1).output ≠
        ((Bench.performAll ⟨{}, rs⟩ callsOfRedirect).registers.get .eToF1).output ∧
      (Bench.performAll ⟨{}, rs⟩ (callsOfRedirect ++ [.evaluate 5])).log =
        ⟨[], [⟨.eToF1, 5, 9⟩]⟩ := by
  have hdelays : ∀ e, 0 < ((({} : PipelineConfig).delays).get e).toNat := by
    intro e
    cases e <;> decide
  obtain ⟨rs, hrs, hkeeps⟩ := Registers.flips_in_time hdelays "cpu" .new
  have h := hkeeps callsOfRedirect
  obtain rfl := Registers.eq_of_new hrs
  refine ⟨hdelays, .new, _, hrs, (h.flip _ _).mp rfl, ?_, rfl⟩
  rw [Bench.performAll_concat]
  exact ((h.evaluate 5).changed .eToF1).mpr ⟨9, List.mem_cons_self, rfl, by decide⟩

end InOrder
