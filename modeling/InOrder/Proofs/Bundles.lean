import InOrder.Proofs.Stage.Slicer

/-!
# The bundles that the slicer sends

Cutting goes in turns: a turn drops the oldest line, takes a micro-op from it, or is the last
(`Cut.turn`). `cutQueue` goes from line to line instead, and through the words of each; it comes to
the same (`Cut.cutQueue_turn`). A turn that is not the last uses up a line or a place in the bundle,
so there is an end to the turns (`Cut.turns_eq`).

While cutting goes on no jump is predicted, and every thread expects what it did at the start
(`Cut.Going`). A predicted jump is the last turn, so only the last micro-op can be one
(`Cut.Ended`).

* `Slicer.bundles_wellFormed`: whatever the stage is fed, its bundles are well formed, and the
  numbers go through from one to the next.
-/

namespace InOrder

/-! ## Cutting, one turn at a time -/

/-- What a turn of cutting leads to: another turn, or the end. -/
inductive Turn where
  | again (lines : List Line) (c : Cut)
  | last (lines : List Line) (c : Cut)

namespace Cut

/-- A turn of cutting drops a line, takes a micro-op, or is the last. -/
def turn (predictJumps : Bool) (width : Nat) : List Line → Cut → Turn
  | [], c => .last [] c
  | l :: rest, c =>
    if width ≤ c.ops.length then .last (l :: rest) c
    else if c.accepts l = false then
      .again rest { c with discarded := c.discarded + 1, cursor := none }
    else if c.ops ≠ [] ∧ c.thread ≠ l.thread then .last (l :: rest) c
    else
      match l.wordAt? (c.cursor.getD l.pc) with
      | none => .again rest { c with cursor := none }
      | some inst =>
        match predictJumps, Isa.classify inst with
        | true, .jump offset => .last rest (c.takeJump l (c.cursor.getD l.pc) inst offset)
        | _, _ => .again (l :: rest) (c.take l (c.cursor.getD l.pc) inst)

/-- What so many turns lead to, if the last of them is among them. -/
def turns (predictJumps : Bool) (width : Nat) : Nat → List Line → Cut → Option (List Line × Cut)
  | 0, _, _ => none
  | n + 1, ls, c =>
    match turn predictJumps width ls c with
    | .again ls c => turns predictJumps width n ls c
    | .last ls c => some (ls, c)

/-- A micro-op can be taken from the oldest line. -/
structure Offers (width : Nat) (c : Cut) (l : Line) (e : Expected) (inst : UInt32) : Prop where
  room : c.ops.length < width
  expected : c.expected[l.thread.toNat]? = some e
  carries : l.Carries e
  thread : c.ops ≠ [] → c.thread = l.thread
  word : l.wordAt? (c.cursor.getD l.pc) = some inst

theorem length_take (c : Cut) (l : Line) (pc : UInt64) (inst : UInt32) :
    (c.take l pc inst).ops.length = c.ops.length + 1 := List.length_append

/-- What a turn can do. -/
inductive Turned (predictJumps : Bool) (width : Nat) : List Line → Cut → Turn → Prop
  | stay (ls : List Line) (c : Cut) : Turned predictJumps width ls c (.last ls c)
  | drop (l : Line) (rest : List Line) (c : Cut) (discarded : Nat) :
    Turned predictJumps width (l :: rest) c (.again rest { c with cursor := none, discarded })
  | take {l : Line} (rest : List Line) {c : Cut} {e : Expected} {inst : UInt32}
      (h : c.Offers width l e inst) :
    Turned predictJumps width (l :: rest) c
      (.again (l :: rest) (c.take l (c.cursor.getD l.pc) inst))
  | jump {l : Line} (rest : List Line) {c : Cut} {e : Expected} {inst : UInt32} (offset : Int)
      (h : c.Offers width l e inst) :
    Turned predictJumps width (l :: rest) c
      (.last rest (c.takeJump l (c.cursor.getD l.pc) inst offset))

theorem turned (predictJumps : Bool) (width : Nat) (ls : List Line) (c : Cut) :
    Turned predictJumps width ls c (turn predictJumps width ls c) := by
  cases ls with
  | nil => exact .stay [] c
  | cons l rest =>
    rw [turn]
    by_cases hfull : width ≤ c.ops.length
    · rw [if_pos hfull]
      exact .stay _ c
    rw [if_neg hfull]
    by_cases hrefused : c.accepts l = false
    · rw [if_pos hrefused]
      exact .drop l rest c _
    rw [if_neg hrefused]
    by_cases hother : c.ops ≠ [] ∧ c.thread ≠ l.thread
    · rw [if_pos hother]
      exact .stay _ c
    rw [if_neg hother]
    obtain ⟨e, he, hcarries⟩ := accepts_iff.mp (Bool.eq_true_of_not_eq_false hrefused)
    cases hword : l.wordAt? (c.cursor.getD l.pc) with
    | none => exact .drop l rest c _
    | some inst =>
      have hoffers : c.Offers width l e inst := ⟨Nat.not_le.mp hfull, he, hcarries,
        fun hops => Decidable.not_not.mp fun hne => hother ⟨hops, hne⟩, hword⟩
      dsimp only
      split
      · exact .jump rest _ hoffers
      · exact .take rest hoffers

section CutQueue

variable {predictJumps : Bool} {width : Nat} {l : Line} {c : Cut}

/-- What becomes of the queue once its oldest line was cut. -/
def afterLine (predictJumps : Bool) (width : Nat) (l : Line) (rest : List Line) :
    Cut × CutEnd → List Line × Cut
  | (c, .full) => (l :: rest, c)
  | (c, .spent) => cutQueue predictJumps width rest c
  | (c, .jumped) => (rest, c)

/-- A line that is accepted is cut as far as there is room. -/
theorem cutQueue_cons (rest : List Line) (haccepts : c.accepts l = true)
    (hthread : c.ops ≠ [] → c.thread = l.thread) :
    cutQueue predictJumps width (l :: rest) c =
      afterLine predictJumps width l rest (cutLine predictJumps l (width - c.ops.length) c) := by
  rw [cutQueue]
  by_cases hfull : width ≤ c.ops.length
  · rw [if_pos hfull, Nat.sub_eq_zero_of_le hfull]
    rfl
  · rw [if_neg hfull, if_neg (by simp [haccepts]), if_neg fun h => h.2 (hthread h.1)]
    generalize cutLine predictJumps l (width - c.ops.length) c = r
    obtain ⟨d, e⟩ := r
    cases e <;> rfl

/-- **Cutting a queue is what its first turn leads to.** -/
theorem cutQueue_turn (predictJumps : Bool) (width : Nat) (ls : List Line) (c : Cut) :
    cutQueue predictJumps width ls c =
      match turn predictJumps width ls c with
      | .again ls c => cutQueue predictJumps width ls c
      | .last ls c => (ls, c) := by
  cases ls with
  | nil => rw [cutQueue, turn]
  | cons l rest =>
    rw [turn]
    by_cases hfull : width ≤ c.ops.length
    · rw [if_pos hfull, cutQueue, if_pos hfull]
    rw [if_neg hfull]
    by_cases hrefused : c.accepts l = false
    · rw [if_pos hrefused, cutQueue, if_neg hfull, if_pos hrefused]
    rw [if_neg hrefused]
    by_cases hother : c.ops ≠ [] ∧ c.thread ≠ l.thread
    · rw [if_pos hother, cutQueue, if_neg hfull, if_neg hrefused, if_pos hother]
    have haccepts : c.accepts l = true := Bool.eq_true_of_not_eq_false hrefused
    have hroom : width - c.ops.length = width - (c.ops.length + 1) + 1 := by omega
    rw [if_neg hother, cutQueue_cons rest haccepts fun hops => Decidable.not_not.mp fun hne =>
      hother ⟨hops, hne⟩, hroom, cutLine]
    cases hword : l.wordAt? (c.cursor.getD l.pc) with
    | none => rfl
    | some inst =>
      -- what is left of the line is cut as a line is, with room for one less
      have htake : cutQueue predictJumps width (l :: rest) (c.take l (c.cursor.getD l.pc) inst) =
          afterLine predictJumps width l rest (cutLine predictJumps l
            (width - (c.take l (c.cursor.getD l.pc) inst).ops.length)
            (c.take l (c.cursor.getD l.pc) inst)) :=
        cutQueue_cons rest haccepts fun _ => rfl
      rw [length_take] at htake
      cases predictJumps with
      | false => exact htake.symm
      | true =>
        cases hkind : Isa.classify inst with
        | jump offset =>
          simp only [hkind]
          rfl
        | suspend | plain =>
          simp only [hkind]
          exact htake.symm

end CutQueue

/-- **Cutting ends.** There is a turn for each line and each free place at most, and the last. -/
theorem turns_eq {predictJumps : Bool} {width : Nat} : ∀ {n : Nat} {ls : List Line} {c : Cut},
    ls.length + (width - c.ops.length) < n →
      turns predictJumps width n ls c = some (cutQueue predictJumps width ls c)
  | 0, _, _, h => absurd h (Nat.not_lt_zero _)
  | n + 1, ls, c, h => by
    have hturned := turned predictJumps width ls c
    rw [turns, cutQueue_turn]
    generalize turn predictJumps width ls c = t at hturned
    cases hturned with
    | stay | jump => rfl
    | drop l rest =>
      rw [List.length_cons] at h
      exact turns_eq (by show rest.length + (width - c.ops.length) < n; omega)
    | @take l rest _ e inst hoffers =>
      have hroom := hoffers.room
      exact turns_eq (by rw [length_take]; omega)

end Cut

/-! ## What is cut -/

/-- A micro-op that was cut from a line of a thread, in the stream that the thread expects. -/
structure MicroOp.CutFrom (ls : List Line) (x : List Expected) (t : UInt32) (o : MicroOp) :
    Prop where
  live : o.bubble.isSet = false
  line : ∃ l ∈ ls, l.thread = t ∧ l.streamSeq = o.streamSeq ∧ l.wordAt? o.pc = some o.inst
  stream : x[t.toNat]?.map Expected.streamSeq = some o.streamSeq

namespace Cut

/-- What was taken from lines `ls` in a cycle that began with the expectations `x` and the number
`first`. -/
structure Formed (ls : List Line) (x : List Expected) (first width : Nat) (c : Cut) : Prop where
  length : c.ops.length ≤ width
  next : c.nextSeq = first + c.ops.length
  numbers : c.ops.map MicroOp.seqNum = (List.range' first c.ops.length).map UInt64.ofNat
  ops : ∀ o ∈ c.ops, o.CutFrom ls x c.thread

/-- No jump is predicted. -/
structure Unpredicted (x : List Expected) (c : Cut) : Prop where
  expected : c.expected = x
  prediction : c.prediction = none
  clear : ∀ o ∈ c.ops, o.predictedTaken.isSet = false

/-- The last micro-op is a jump that is predicted, and its thread expects the prediction. -/
structure PredictedLast (x : List Expected) (init : List MicroOp) (o : MicroOp) (e : Expected)
    (c : Cut) : Prop where
  ops : c.ops = init ++ [o]
  clear : ∀ o ∈ init, o.predictedTaken.isSet = false
  taken : o.predictedTaken.isSet = true
  before : x[c.thread.toNat]? = some e
  expected : c.expected = x.set c.thread.toNat { e with predictionSeq := e.predictionSeq + 1 }
  prediction : c.prediction =
    some (.live .prediction c.thread o.predictedTarget o.streamSeq (e.predictionSeq + 1))

/-- Cutting is not over. -/
structure Going (ls₀ : List Line) (x : List Expected) (first width : Nat) (ls : List Line)
    (c : Cut) : Prop extends Formed ls₀ x first width c, Unpredicted x c where
  lines : ls ⊆ ls₀

/-- Cutting is over. -/
structure Ended (ls₀ : List Line) (x : List Expected) (first width : Nat) (c : Cut) : Prop extends
    Formed ls₀ x first width c where
  predicted : c.Unpredicted x ∨ ∃ init o e, c.PredictedLast x init o e

section Turns

variable {predictJumps : Bool} {width first : Nat} {x : List Expected} {ls₀ ls ls' : List Line}
  {c d : Cut}

/-- What is taken from a line comes behind what was taken before. -/
theorem Formed.concat {l : Line} {e : Expected} {inst : UInt32} (h : c.Formed ls₀ x first width)
    (hl : l ∈ ls₀) (hoffers : c.Offers width l e inst) (hx : c.expected = x) {o : MicroOp}
    (hlive : o.bubble.isSet = false) (hseq : o.seqNum = UInt64.ofNat c.nextSeq)
    (hstream : o.streamSeq = l.streamSeq) (hpc : o.pc = c.cursor.getD l.pc) (hinst : o.inst = inst)
    (hops : d.ops = c.ops ++ [o]) (hthread : d.thread = l.thread)
    (hnext : d.nextSeq = c.nextSeq + 1) : d.Formed ls₀ x first width := by
  have hlength : d.ops.length = c.ops.length + 1 := by rw [hops, List.length_append]; rfl
  have he : x[l.thread.toNat]? = some e := hx ▸ hoffers.expected
  refine ⟨hlength ▸ hoffers.room, ?_, ?_, fun o' ho' => ?_⟩
  · rw [hnext, h.next, hlength, Nat.add_assoc]
  · rw [hops, List.map_append, h.numbers, List.length_append, List.length_singleton,
      List.range'_concat, List.map_append, List.map_singleton, List.map_singleton, hseq, h.next,
      Nat.one_mul]
  · rw [hops] at ho'
    rcases List.mem_append.mp ho' with ho' | ho'
    · -- what was taken before is of the same thread
      have hsame := hoffers.thread (List.ne_nil_of_mem ho')
      exact hthread ▸ hsame ▸ h.ops o' ho'
    · obtain rfl := List.mem_singleton.mp ho'
      refine ⟨hlive, ⟨l, hl, hthread.symm, hstream.symm, ?_⟩, ?_⟩
      · rw [hpc, hinst]
        exact hoffers.word
      · rw [hthread, he, hstream, hoffers.carries.1]
        rfl

theorem Going.again (h : Going ls₀ x first width ls c)
    (hturn : Turned predictJumps width ls c (.again ls' d)) : Going ls₀ x first width ls' d := by
  cases hturn with
  | drop l rest _ discarded =>
    exact ⟨⟨h.length, h.next, h.numbers, h.ops⟩, ⟨h.expected, h.prediction, h.clear⟩,
      fun l hl => h.lines (List.mem_cons_of_mem _ hl)⟩
  | take rest hoffers =>
    refine ⟨h.concat (h.lines List.mem_cons_self) hoffers h.expected Flag.isSet_clear rfl rfl rfl
      rfl rfl rfl rfl, ⟨h.expected, h.prediction, fun o ho => ?_⟩, h.lines⟩
    rcases List.mem_append.mp ho with ho | ho
    · exact h.clear o ho
    · rw [List.mem_singleton.mp ho]
      exact Flag.isSet_clear

theorem Going.last (h : Going ls₀ x first width ls c)
    (hturn : Turned predictJumps width ls c (.last ls' d)) : d.Ended ls₀ x first width := by
  cases hturn with
  | stay => exact ⟨h.toFormed, .inl h.toUnpredicted⟩
  | @jump l rest _ e inst offset hoffers =>
    have hx : x[l.thread.toNat]? = some e := h.expected ▸ hoffers.expected
    simp only [takeJump, hoffers.expected]
    refine ⟨h.concat (h.lines List.mem_cons_self) hoffers h.expected Flag.isSet_clear rfl rfl rfl
      rfl rfl rfl rfl, .inr ⟨c.ops, _, e, rfl, h.clear, Flag.isSet_set, hx, ?_, rfl⟩⟩
    rw [h.expected]

/-- **Cutting keeps to what is begun.** -/
theorem Going.turns : ∀ {n : Nat} {ls : List Line} {c : Cut}, Going ls₀ x first width ls c →
    turns predictJumps width n ls c = some (ls', d) → d.Ended ls₀ x first width
  | 0, _, _, _, hturns => nomatch hturns
  | n + 1, ls, c, h, hturns => by
    have hturned := turned predictJumps width ls c
    rw [Cut.turns] at hturns
    generalize turn predictJumps width ls c = t at hturned hturns
    cases t with
    | again ls c => exact (h.again hturned).turns hturns
    | last ls c =>
      obtain ⟨-, rfl⟩ := Prod.mk.inj (Option.some.inj hturns)
      exact h.last hturned

/-- Only the last micro-op is a predicted jump, and it is one where there is a prediction. -/
theorem Ended.last (h : c.Ended ls₀ x first width) (hops : c.ops ≠ []) : ∃ init o e,
    c.ops = init ++ [o] ∧ (∀ o ∈ init, o.predictedTaken.isSet = false) ∧
      c.expected[c.thread.toNat]? = some e ∧
      c.prediction = if o.predictedTaken.isSet then
        some (.live .prediction c.thread o.predictedTarget o.streamSeq e.predictionSeq)
      else none := by
  rcases h.predicted with hun | ⟨init, o, e, hlast⟩
  · obtain ⟨init, o, hsplit⟩ := (List.eq_nil_or_concat c.ops).resolve_left hops
    rw [List.concat_eq_append] at hsplit
    have ho : o ∈ c.ops := hsplit ▸ List.mem_append_right _ (List.mem_singleton_self o)
    obtain ⟨e, he, -⟩ := Option.map_eq_some_iff.mp (h.ops o ho).stream
    refine ⟨init, o, e, hsplit, fun o ho => ?_, hun.expected ▸ he, ?_⟩
    · exact hun.clear o (hsplit ▸ List.mem_append_left _ ho)
    · rw [hun.prediction, hun.clear o ho]
      rfl
  · obtain ⟨hlt, -⟩ := List.getElem?_eq_some_iff.mp hlast.before
    refine ⟨init, o, ⟨e.streamSeq, e.predictionSeq + 1⟩, hlast.ops, hlast.clear, ?_, ?_⟩
    · rw [hlast.expected, List.getElem?_set_self hlt]
    · rw [hlast.prediction, if_pos hlast.taken]

/-- Nothing is predicted where nothing is taken. -/
theorem Ended.quiet (h : c.Ended ls₀ x first width) (hops : c.ops = []) : c.prediction = none := by
  rcases h.predicted with hun | ⟨init, o, e, hlast⟩
  · exact hun.prediction
  · exact absurd (hlast.ops.symm.trans hops) (List.concat_ne_nil o init)

/-- Cutting leaves the streams that are expected. -/
theorem Ended.streams (h : c.Ended ls₀ x first width) :
    c.expected.map Expected.streamSeq = x.map Expected.streamSeq := by
  rcases h.predicted with hun | ⟨init, o, e, hlast⟩
  · rw [hun.expected]
  · obtain ⟨hlt, rfl⟩ := List.getElem?_eq_some_iff.mp hlast.before
    have hlt' : c.thread.toNat < (x.map Expected.streamSeq).length := by rwa [List.length_map]
    have hsame := List.set_getElem_self hlt'
    rw [List.getElem_map] at hsame
    rw [hlast.expected, List.map_set, hsame]

end Turns

end Cut

/-! ## Cycles of the stage -/

namespace Slicer

/-- What comes to the stage in a cycle. -/
structure Feed where
  line : Line
  branch : Redirect
  /-- There is room behind the stage. -/
  room : Bool

/-- A cycle of the stage. -/
def feed (s : Slicer) (i : Feed) : Result := s.evaluate i.line i.branch i.room

/-- The micro-ops that are sent in a cycle. -/
def Result.sent (r : Result) : List MicroOp := r.bundle.toList.flatMap Bundle.insts

/-- The stage after some cycles. -/
def after (s : Slicer) : List Feed → Slicer
  | [] => s
  | i :: is => (s.feed i).stage.after is

/-- The micro-ops that are sent in some cycles. -/
def sent (s : Slicer) : List Feed → List MicroOp
  | [] => []
  | i :: is => (s.feed i).sent ++ (s.feed i).stage.sent is

/-- The lines that are queued when cutting begins. -/
def queued (s : Slicer) (i : Feed) : List Line := (s.loaded i.line i.branch).input.entries

/-- Where cutting begins. -/
def uncut (s : Slicer) (i : Feed) : Cut :=
  ⟨s.followed i.branch, s.cursor, s.nextSeq, s.discarded, 0, [], none⟩

/-- What is to be said of a bundle that is sent. -/
structure SendsBundle (s : Slicer) (i : Feed) (r : Result) (b : Bundle) : Prop where
  width : b.width = s.width
  count : b.insts.length = b.count.toNat
  pos : 1 ≤ b.count.toNat
  le : b.count.toNat ≤ s.width
  insts : ∀ o ∈ b.insts, o.CutFrom (s.queued i) (s.followed i.branch) b.thread
  /-- A prediction is sent if the last micro-op is a predicted jump, and the last alone can be. -/
  last : ∃ init o e, b.insts = init ++ [o] ∧ (∀ o ∈ init, o.predictedTaken.isSet = false) ∧
    r.stage.expected[b.thread.toNat]? = some e ∧
    r.prediction = if o.predictedTaken.isSet then
      some (.live .prediction b.thread o.predictedTarget o.streamSeq e.predictionSeq) else none

/-- What is to be said of a cycle. -/
structure Sends (s : Slicer) (i : Feed) (r : Result) : Prop where
  /-- Cutting ends by its last turn, of which there is one for each line and each place at most. -/
  ends : i.room = true → ∃ c, Cut.turns s.predictJumps s.width ((s.queued i).length + s.width + 1)
    (s.queued i) (s.uncut i) = some (r.stage.input.entries, c) ∧ r.sent = c.ops ∧
      r.prediction = c.prediction
  bundle : ∀ b, r.bundle = some b → s.SendsBundle i r b
  silent : r.bundle = none → r.prediction = none
  numbers : r.sent.map MicroOp.seqNum = (List.range' s.nextSeq r.sent.length).map UInt64.ofNat
  next : r.stage.nextSeq = s.nextSeq + r.sent.length
  streams : r.stage.expected.map Expected.streamSeq =
    (s.followed i.branch).map Expected.streamSeq
  /-- Without room nothing is sent, and no line is taken from the queue. -/
  blocked : i.room = false →
    r.bundle = none ∧ r.prediction = none ∧ r.stage = s.loaded i.line i.branch

theorem feed_of_room {s : Slicer} {i : Feed} (hroom : i.room = true) : ∃ lines c,
    cutQueue s.predictJumps s.width (s.queued i) (s.uncut i) = (lines, c) ∧
      (s.feed i).stage = { s with
        input := (s.loaded i.line i.branch).input.withEntries lines
        expected := c.expected, cursor := c.cursor, nextSeq := c.nextSeq,
        discarded := c.discarded } ∧
      (s.feed i).bundle = (if c.ops.isEmpty then none else some (.ofInsts s.width c.thread c.ops)) ∧
      (s.feed i).prediction = c.prediction := by
  unfold feed evaluate
  simp only [follow_push, hroom, if_true]
  exact ⟨_, _, rfl, rfl, rfl, rfl⟩

theorem sends_of_not_room {s : Slicer} {i : Feed} (hroom : i.room = false) :
    s.Sends i (s.feed i) := by
  have hfeed : s.feed i = ⟨s.loaded i.line i.branch, none, none, [],
      !(s.loaded i.line i.branch).input.isEmpty⟩ := by
    unfold feed evaluate
    simp only [follow_push, hroom]
    rfl
  rw [hfeed]
  exact ⟨fun h => absurd (hroom.symm.trans h) Bool.false_ne_true, fun b hb => (nomatch hb),
    fun _ => rfl, rfl, rfl, rfl, fun _ => ⟨rfl, rfl, rfl⟩⟩

/-- What was cut is sent as a bundle. -/
theorem sendsBundle_of_ended {s : Slicer} (h : s.width < 256) {i : Feed} {r : Result} {c : Cut}
    (hended : c.Ended (s.queued i) (s.followed i.branch) s.nextSeq s.width) (hops : c.ops ≠ [])
    (hexpected : r.stage.expected = c.expected) (hprediction : r.prediction = c.prediction) :
    s.SendsBundle i r (.ofInsts s.width c.thread c.ops) := by
  have hlength := hended.length
  have hinsts := Bundle.insts_ofInsts h hlength c.thread
  have hcount := Bundle.toNat_count_ofInsts h hlength c.thread
  refine ⟨?_, (congrArg List.length hinsts).trans hcount.symm, ?_, hcount ▸ hlength, ?_, ?_⟩
  · show (c.ops ++ List.replicate (s.width - c.ops.length) MicroOp.empty).length = s.width
    rw [List.length_append, List.length_replicate]
    omega
  · rw [hcount]
    exact List.length_pos_iff.mpr hops
  · rw [hinsts]
    exact hended.ops
  · rw [hinsts, hexpected, hprediction]
    exact hended.last hops

theorem sends_of_room {s : Slicer} (h : s.width < 256) {i : Feed} (hroom : i.room = true) :
    s.Sends i (s.feed i) := by
  obtain ⟨lines, c, hcut, hstage, hbundle, hprediction⟩ := feed_of_room (s := s) hroom
  have hturns : Cut.turns s.predictJumps s.width ((s.queued i).length + s.width + 1)
      (s.queued i) (s.uncut i) = some (lines, c) := by
    rw [← hcut]
    exact Cut.turns_eq (Nat.lt_succ_self _)
  have hgoing : Cut.Going (s.queued i) (s.followed i.branch) s.nextSeq s.width (s.queued i)
      (s.uncut i) :=
    ⟨⟨Nat.zero_le _, rfl, rfl, fun o ho => nomatch ho⟩, ⟨rfl, rfl, fun o ho => nomatch ho⟩,
      fun _ hl => hl⟩
  have hended := hgoing.turns hturns
  have hinsts := Bundle.insts_ofInsts h hended.length c.thread
  have hsent : (s.feed i).sent = c.ops := by
    rw [Result.sent, hbundle]
    cases hops : c.ops with
    | nil => rfl
    | cons o rest =>
      rw [hops] at hinsts
      exact (List.append_nil _).trans hinsts
  refine ⟨fun _ => ⟨c, ?_, hsent, hprediction⟩, fun b hb => ?_, fun hnone => ?_, ?_, ?_, ?_,
    fun hblocked => absurd (hroom.symm.trans hblocked) Bool.noConfusion⟩
  · rw [hturns, hstage]
    rfl
  · rw [hbundle] at hb
    split at hb
    · exact nomatch hb
    · rename_i hops
      obtain rfl := Option.some.inj hb
      refine sendsBundle_of_ended h hended (fun hnil => hops (List.isEmpty_iff.mpr hnil)) ?_
        hprediction
      rw [hstage]
  · rw [hbundle] at hnone
    split at hnone
    · rename_i hops
      rw [hprediction, hended.quiet (List.isEmpty_iff.mp hops)]
    · exact nomatch hnone
  · rw [hsent, hended.numbers]
  · rw [hsent, hstage]
    exact hended.next
  · rw [hstage, ← hended.streams]

theorem sends {s : Slicer} (h : s.width < 256) (i : Feed) : s.Sends i (s.feed i) := by
  cases hroom : i.room with
  | false => exact sends_of_not_room hroom
  | true => exact sends_of_room h hroom

theorem width_after (s : Slicer) (feeds : List Feed) : (s.after feeds).width = s.width := by
  induction feeds generalizing s with
  | nil => rfl
  | cons i is ih => exact (ih _).trans (s.width_evaluate i.line i.branch i.room).1

/-- The micro-ops that are sent are numbered through. -/
theorem numbers_sent {s : Slicer} (h : s.width < 256) (feeds : List Feed) :
    (s.sent feeds).map MicroOp.seqNum =
      (List.range' s.nextSeq (s.sent feeds).length).map UInt64.ofNat := by
  induction feeds generalizing s with
  | nil => rfl
  | cons i is ih =>
    have hsends := sends h i
    have hrest := ih (s := (s.feed i).stage)
      ((s.width_evaluate i.line i.branch i.room).1.symm ▸ h)
    rw [sent, List.map_append, hsends.numbers, hrest, hsends.next, List.length_append,
      ← List.range'_append_1, List.map_append]

/-- **Every bundle is well formed.** Whatever lines and redirects come in, and whenever there is
room behind the stage: cutting ends, a bundle has micro-ops of its thread in the stream that the
thread expects, only the last can be a predicted jump, and it is one if a prediction is sent with
it. The numbers go through from bundle to bundle. -/
theorem bundles_wellFormed {s : Slicer} (h : s.width < 256) (feeds : List Feed) :
    (∀ i, (s.after feeds).Sends i ((s.after feeds).feed i)) ∧ (s.after feeds).width = s.width ∧
      (s.sent feeds).map MicroOp.seqNum =
        (List.range' s.nextSeq (s.sent feeds).length).map UInt64.ofNat :=
  ⟨sends (s.width_after feeds ▸ h), s.width_after feeds, numbers_sent h feeds⟩

/-- The stage for two threads and bundles of three micro-ops. -/
def ofThree : Slicer :=
  new "fetch2" { host := { threads := 2 }, pipeline := { width := 3, predictJumps := true } }

/-- A line of thread `t` with a jump behind its first word. -/
def lineOfJump (t : UInt32) : Line :=
  ⟨.clear, t, 0, 0, firstSeq, firstSeq, Bytes.ofUInt32 0x13 ++ Bytes.ofUInt32 (Isa.encodeJump 1 64)⟩

/-- The line has to wait. -/
def waitOfJump : List Feed := [⟨lineOfJump 0, .empty, false⟩]

/-- Behind it comes a line of a thread that does not exist. -/
def strayBehind : Feed := ⟨lineOfJump 7, .empty, true⟩

/-- The line that waited is sent, up to its jump. -/
theorem bundles_wellFormed_jump : ofThree.width < 256 ∧
    ∃ b, ((ofThree.after waitOfJump).feed strayBehind).bundle = some b ∧ b.count = 2 ∧
      ((ofThree.after waitOfJump).feed strayBehind).prediction =
        some (.live .prediction 0 68 1 2) ∧
      (ofThree.after waitOfJump).SendsBundle strayBehind
        ((ofThree.after waitOfJump).feed strayBehind) b := by
  have hwidth : ofThree.width < 256 := by decide
  refine ⟨hwidth, _, rfl, rfl, rfl, ?_⟩
  exact ((bundles_wellFormed hwidth waitOfJump).1 strayBehind).bundle _ rfl

end Slicer

end InOrder
