import InOrder.Proofs.Stage.Execute

/-!
# The slicer as a sequence of steps

A cycle of the slicer is a sequence of `Cutting.Step`s: the oldest line is dropped, or a micro-op is
cut from it, and at most one jump is predicted (`Slicer.evaluate_steps`). The cursor is gone from
here on, since the oldest line counts as entered where cutting goes on (`enteredAt`); the room in a
bundle only decides how many steps a cycle has.

* `Cutting.Sound` is what every step keeps of the numbers and the prediction.
* `Cutting.lane_steps`: for each thread, the steps are steps of its lane.
-/

namespace InOrder

/-! ## Steps of cutting -/

/-- What the slicer works on in a cycle. -/
structure Cutting where
  /-- The lines that are queued, the oldest one entered where cutting goes on. -/
  lines : List Line
  expected : List Expected
  /-- The micro-ops that were cut, each with its thread. -/
  made : List (UInt32 × MicroOp)
  /-- The jump that was predicted, if one was. -/
  prediction : Option Redirect

namespace Cutting

/-- What the slicer can do next. -/
inductive Step (predictJumps : Bool) : Cutting → Cutting → Prop
  | drop (c : Cutting) (l : Line) (rest : List Line) (hlines : c.lines = l :: rest)
      (hdone : ∀ e, c.expected[l.thread.toNat]? = some e →
        ¬ l.Carries e ∨ l.wordAt? l.pc = none) :
      Step predictJumps c { c with lines := rest }
  | cut (c : Cutting) (l : Line) (rest : List Line) (e : Expected) (inst : UInt32) (seq : UInt64)
      (hlines : c.lines = l :: rest) (he : c.expected[l.thread.toNat]? = some e)
      (hcarries : l.Carries e) (hword : l.wordAt? l.pc = some inst)
      (hplain : predictJumps = true → ∀ offset, Isa.classify inst ≠ .jump offset) :
      Step predictJumps c { c with
        lines := l.enter (Isa.nextWord l.pc) :: rest
        made := c.made ++ [(l.thread, ⟨.clear, l.pc, seq, l.streamSeq, inst, .clear, 0⟩)] }
  | cutJump (c : Cutting) (l : Line) (rest : List Line) (e : Expected) (inst : UInt32)
      (offset : Int) (seq : UInt64)
      (hlines : c.lines = l :: rest) (he : c.expected[l.thread.toNat]? = some e)
      (hcarries : l.Carries e) (hword : l.wordAt? l.pc = some inst)
      (hjump : Isa.classify inst = .jump offset) (hnone : c.prediction = none) :
      Step predictJumps c
        { lines := rest
          expected :=
            c.expected.set l.thread.toNat { e with predictionSeq := e.predictionSeq + 1 }
          made := c.made ++ [(l.thread,
            ⟨.clear, l.pc, seq, l.streamSeq, inst, .set, Isa.displace l.pc offset⟩)]
          prediction := some (.live .prediction l.thread (Isa.displace l.pc offset) l.streamSeq
            (e.predictionSeq + 1)) }

/-- What any number of steps leads to. -/
abbrev Steps (predictJumps : Bool) : Cutting → Cutting → Prop :=
  Relation.ReflTransGen (Step predictJumps)

theorem Step.length {predictJumps : Bool} {c d : Cutting} (h : Step predictJumps c d) :
    d.expected.length = c.expected.length := by
  cases h with
  | drop | cut => rfl
  | cutJump => exact List.length_set

theorem Steps.length {predictJumps : Bool} {c d : Cutting} (h : Steps predictJumps c d) :
    d.expected.length = c.expected.length := by
  induction h with
  | refl => rfl
  | tail _ hlast ih => rw [hlast.length, ih]

end Cutting

/-- The lines of a queue of which the oldest is cut up to a cursor. -/
def enteredAt (cursor : Option UInt64) : List Line → List Line
  | [] => []
  | l :: rest => l.enter (cursor.getD l.pc) :: rest

theorem enteredAt_none (ls : List Line) : enteredAt none ls = ls := by
  cases ls <;> rfl

theorem enteredAt_append {cursor : Option UInt64} {ls : List Line} (h : ls = [] → cursor = none)
    (ls' : List Line) : enteredAt cursor (ls ++ ls') = enteredAt cursor ls ++ ls' := by
  cases ls with
  | nil => rw [h rfl, List.nil_append, enteredAt_none, enteredAt, List.nil_append]
  | cons l rest => rfl

namespace Cut

/-- What the slicer works on, with the lines that are queued. -/
def cutting (c : Cut) (ls : List Line) : Cutting :=
  ⟨enteredAt c.cursor ls, c.expected, c.ops.map fun o => (c.thread, o), c.prediction⟩

theorem accepts_iff {c : Cut} {l : Line} :
    c.accepts l = true ↔ ∃ e, c.expected[l.thread.toNat]? = some e ∧ l.Carries e := by
  unfold accepts
  cases c.expected[l.thread.toNat]? with
  | none => simp
  | some e =>
    simp only [Bool.and_eq_true, beq_iff_eq, Option.some.injEq, exists_eq_left', Line.Carries,
      @eq_comm _ e.streamSeq, @eq_comm _ e.predictionSeq]

/-- What is taken comes behind what was taken before, which is of the same thread. -/
theorem tag_concat {c : Cut} {l : Line} (h : c.ops ≠ [] → c.thread = l.thread) (o : MicroOp) :
    (c.ops ++ [o]).map (fun o => (l.thread, o)) =
      c.ops.map (fun o => (c.thread, o)) ++ [(l.thread, o)] := by
  rw [List.map_append, List.map_singleton]
  by_cases hops : c.ops = []
  · rw [hops, List.map_nil, List.map_nil]
  · rw [h hops]

section Steps

variable {predictJumps : Bool} {c : Cut} {l : Line} {rest : List Line}

/-- A line that is left is dropped. -/
theorem drop_step {d : Cut} (hcursor : d.cursor = none) (hexpected : d.expected = c.expected)
    (hthread : d.thread = c.thread) (hops : d.ops = c.ops)
    (hprediction : d.prediction = c.prediction)
    (hdone : ∀ e, c.expected[l.thread.toNat]? = some e →
      ¬ l.Carries e ∨ l.wordAt? (c.cursor.getD l.pc) = none) :
    Cutting.Step predictJumps (c.cutting (l :: rest)) (d.cutting rest) := by
  rw [cutting, cutting, hcursor, enteredAt_none, hexpected, hthread, hops, hprediction]
  exact .drop _ _ rest rfl hdone

theorem take_step {e : Expected} {inst : UInt32} (hthread : c.ops ≠ [] → c.thread = l.thread)
    (he : c.expected[l.thread.toNat]? = some e) (hcarries : l.Carries e)
    (hword : l.wordAt? (c.cursor.getD l.pc) = some inst)
    (hplain : predictJumps = true → ∀ offset, Isa.classify inst ≠ .jump offset) :
    Cutting.Step predictJumps (c.cutting (l :: rest))
      ((c.take l (c.cursor.getD l.pc) inst).cutting (l :: rest)) := by
  rw [cutting, cutting, take, tag_concat hthread]
  exact .cut _ (l.enter (c.cursor.getD l.pc)) rest e inst (UInt64.ofNat c.nextSeq) rfl he hcarries
    hword hplain

theorem takeJump_step {e : Expected} {inst : UInt32} {offset : Int}
    (hthread : c.ops ≠ [] → c.thread = l.thread)
    (he : c.expected[l.thread.toNat]? = some e) (hcarries : l.Carries e)
    (hword : l.wordAt? (c.cursor.getD l.pc) = some inst)
    (hjump : Isa.classify inst = .jump offset) (hnone : c.prediction = none) :
    Cutting.Step predictJumps (c.cutting (l :: rest))
      ((c.takeJump l (c.cursor.getD l.pc) inst offset).cutting rest) := by
  simp only [takeJump, he]
  rw [cutting, cutting, enteredAt_none, tag_concat hthread]
  exact .cutJump _ (l.enter (c.cursor.getD l.pc)) rest e inst offset (UInt64.ofNat c.nextSeq) rfl he
    hcarries hword hjump hnone

theorem takeJump_eq {e : Expected} (pc : UInt64) (inst : UInt32) (offset : Int)
    (he : c.expected[l.thread.toNat]? = some e) :
    (c.takeJump l pc inst offset).cursor = none ∧
      (c.takeJump l pc inst offset).ops.length = c.ops.length + 1 := by
  simp [takeJump, he]

end Steps

end Cut

/-- The lines that stay queued after the oldest was cut. -/
def CutEnd.left (l : Line) (rest : List Line) : CutEnd → List Line
  | full => l :: rest
  | spent | jumped => rest

/-- What cutting from a line comes to. -/
structure LineCut (predictJumps : Bool) (l : Line) (rest : List Line) (room : Nat) (c : Cut)
    (r : Cut × CutEnd) : Prop where
  steps : Cutting.Steps predictJumps (c.cutting (l :: rest)) (r.1.cutting (r.2.left l rest))
  left : r.2 ≠ .full → r.1.cursor = none
  quiet : r.2 ≠ .jumped → r.1.prediction = none
  length : r.1.ops.length ≤ c.ops.length + room

theorem cutLine_cut (predictJumps : Bool) (l : Line) (rest : List Line) :
    ∀ (room : Nat) (c : Cut), c.accepts l = true → (c.ops ≠ [] → c.thread = l.thread) →
      c.prediction = none → LineCut predictJumps l rest room c (cutLine predictJumps l room c)
  | 0, c, _, _, hnone => ⟨.refl, fun h => absurd rfl h, fun _ => hnone, Nat.le_refl _⟩
  | room + 1, c, haccepts, hthread, hnone => by
    obtain ⟨e, he, hcarries⟩ := Cut.accepts_iff.mp haccepts
    have hplain : ∀ inst, l.wordAt? (c.cursor.getD l.pc) = some inst →
        (predictJumps = true → ∀ offset, Isa.classify inst ≠ .jump offset) →
        LineCut predictJumps l rest (room + 1) c
          (cutLine predictJumps l room (c.take l (c.cursor.getD l.pc) inst)) := by
      intro inst hword hplain
      have ih := cutLine_cut predictJumps l rest room (c.take l (c.cursor.getD l.pc) inst) haccepts
        (fun _ => rfl) hnone
      have hlength := ih.length
      rw [show (c.take l (c.cursor.getD l.pc) inst).ops.length = c.ops.length + 1 from
        List.length_append] at hlength
      exact ⟨.head (Cut.take_step hthread he hcarries hword hplain) ih.steps, ih.left, ih.quiet,
        by omega⟩
    rw [cutLine]
    cases hword : l.wordAt? (c.cursor.getD l.pc) with
    | none =>
      exact ⟨.single (Cut.drop_step rfl rfl rfl rfl rfl fun _ _ => .inr hword), fun _ => rfl,
        fun _ => hnone, Nat.le_add_right _ _⟩
    | some inst =>
      cases predictJumps with
      | false => exact hplain inst hword fun h => absurd h (by simp)
      | true =>
        cases hkind : Isa.classify inst with
        | jump offset =>
          obtain ⟨hcursor, hlength⟩ := Cut.takeJump_eq (c.cursor.getD l.pc) inst offset he
          simp only [hkind]
          exact ⟨.single (Cut.takeJump_step hthread he hcarries hword hkind hnone),
            fun _ => hcursor, fun h => absurd rfl h, Nat.le_trans (Nat.le_of_eq hlength) (by omega)⟩
        | suspend =>
          simp only [hkind]
          exact hplain inst hword fun _ offset h => by simp [hkind] at h
        | plain =>
          simp only [hkind]
          exact hplain inst hword fun _ offset h => by simp [hkind] at h

/-- What cutting from a queue comes to. -/
structure QueueCut (predictJumps : Bool) (width : Nat) (ls : List Line) (c : Cut)
    (r : List Line × Cut) : Prop where
  steps : Cutting.Steps predictJumps (c.cutting ls) (r.2.cutting r.1)
  entered : r.1 = [] → r.2.cursor = none
  length : r.2.ops.length ≤ width

theorem cutQueue_cut (predictJumps : Bool) (width : Nat) : ∀ (ls : List Line) (c : Cut),
    (ls = [] → c.cursor = none) → c.ops.length ≤ width → c.prediction = none →
      QueueCut predictJumps width ls c (cutQueue predictJumps width ls c)
  | [], c, hcursor, hlength, _ => ⟨.refl, hcursor, hlength⟩
  | l :: rest, c, _, hlength, hnone => by
    have hstay : QueueCut predictJumps width (l :: rest) c (l :: rest, c) :=
      ⟨.refl, fun h => absurd h (by simp), hlength⟩
    rw [cutQueue]
    by_cases hfull : width ≤ c.ops.length
    · rw [if_pos hfull]
      exact hstay
    rw [if_neg hfull]
    by_cases hrefused : c.accepts l = false
    · rw [if_pos hrefused]
      have hdone : ∀ e, c.expected[l.thread.toNat]? = some e →
          ¬ l.Carries e ∨ l.wordAt? (c.cursor.getD l.pc) = none := fun e he => by
        refine .inl fun hcarries => ?_
        rw [Cut.accepts_iff.mpr ⟨e, he, hcarries⟩] at hrefused
        exact absurd hrefused (by simp)
      have ih := cutQueue_cut predictJumps width rest
        { c with discarded := c.discarded + 1, cursor := none } (fun _ => rfl) hlength hnone
      have hstep : Cutting.Step predictJumps (c.cutting (l :: rest))
          (Cut.cutting { c with discarded := c.discarded + 1, cursor := none } rest) :=
        Cut.drop_step rfl rfl rfl rfl rfl hdone
      exact ⟨.head hstep ih.steps, ih.entered, ih.length⟩
    rw [if_neg hrefused]
    by_cases hother : c.ops ≠ [] ∧ c.thread ≠ l.thread
    · rw [if_pos hother]
      exact hstay
    rw [if_neg hother]
    have hcut := cutLine_cut predictJumps l rest (width - c.ops.length) c
      (by simpa using hrefused)
      (fun hops => Decidable.not_not.mp fun hne => hother ⟨hops, hne⟩) hnone
    obtain ⟨d, e, he⟩ : ∃ d e, cutLine predictJumps l (width - c.ops.length) c = (d, e) :=
      ⟨_, _, rfl⟩
    rw [he] at hcut ⊢
    have hwidth : d.ops.length ≤ width := by
      have := hcut.length
      simp only at this
      omega
    cases e with
    | full => exact ⟨hcut.steps, fun h => absurd h (by simp), hwidth⟩
    | jumped => exact ⟨hcut.steps, fun _ => hcut.left CutEnd.noConfusion, hwidth⟩
    | spent =>
      have hcursor : d.cursor = none := hcut.left CutEnd.noConfusion
      have ih := cutQueue_cut predictJumps width rest d (fun _ => hcursor) hwidth
        (hcut.quiet CutEnd.noConfusion)
      exact ⟨hcut.steps.trans ih.steps, ih.entered, ih.length⟩

/-! ## The stage -/

namespace Slicer

/-- The lines that wait to be cut. -/
def waiting (s : Slicer) : List Line := enteredAt s.cursor s.input.entries

/-- The numbers of each thread when a redirect has arrived. -/
def followed (s : Slicer) (r : Redirect) : List Expected := (s.follow r).expected

/-- The oldest line is entered in its midst only while it is queued. -/
def Entered (s : Slicer) : Prop := s.input.entries = [] → s.cursor = none

/-- The stage in a cycle when it comes to cutting. -/
def loaded (s : Slicer) (l : Line) (r : Redirect) : Slicer :=
  { s with input := s.input.push l, expected := s.followed r }

theorem follow_push (s : Slicer) (l : Line) (r : Redirect) :
    ({ s with input := s.input.push l } : Slicer).follow r = s.loaded l r := by
  unfold loaded followed follow
  split <;> rfl

theorem waiting_loaded {s : Slicer} (h : s.Entered) (l : Line) (r : Redirect) :
    (s.loaded l r).waiting = s.waiting ++ present [l] := by
  show enteredAt s.cursor (s.input.push l).entries = _
  rw [Queue.entries_push, enteredAt_append h, waiting]

theorem entered_loaded {s : Slicer} (h : s.Entered) (l : Line) (r : Redirect) :
    (s.loaded l r).Entered := by
  intro hnil
  have happend : s.input.entries ++ present [l] = [] := (Queue.entries_push s.input l) ▸ hnil
  exact h (List.append_eq_nil_iff.mp happend).1

/-- The bundle that is sent has what was cut. -/
theorem tagged_bundle {width : Nat} (hwidth : width < 256) {c : Cut} (hc : c.ops.length ≤ width) :
    (if c.ops.isEmpty then none
      else some (Bundle.ofInsts width c.thread c.ops)).toList.flatMap Bundle.tagged =
      c.ops.map fun o => (c.thread, o) := by
  cases hops : c.ops with
  | nil => rfl
  | cons o rest =>
    rw [hops] at hc
    exact (List.append_nil _).trans (Bundle.tagged_ofInsts hwidth hc c.thread)

/-- **A cycle takes in a line and a redirect, and goes through steps of cutting.** -/
theorem evaluate_steps {s : Slicer} (h : s.Entered) (hwidth : s.width < 256) (l : Line)
    (r : Redirect) (room : Bool) :
    Cutting.Steps s.predictJumps ⟨s.waiting ++ present [l], s.followed r, [], none⟩
        ⟨(s.evaluate l r room).stage.waiting, (s.evaluate l r room).stage.expected,
          (s.evaluate l r room).bundle.toList.flatMap Bundle.tagged,
          (s.evaluate l r room).prediction⟩ ∧
      (s.evaluate l r room).stage.Entered := by
  rw [← waiting_loaded h l r]
  unfold evaluate
  simp only [follow_push]
  cases room with
  | false => exact ⟨.refl, entered_loaded h l r⟩
  | true =>
    have hcut := cutQueue_cut s.predictJumps s.width (s.loaded l r).input.entries
      ⟨s.followed r, s.cursor, s.nextSeq, s.discarded, 0, [], none⟩ (entered_loaded h l r)
      (Nat.zero_le _) rfl
    have hlength : (s.loaded l r).cut.2.ops.length ≤ (s.loaded l r).cut.1.width := hcut.length
    refine ⟨?_, hcut.entered⟩
    simp only [if_true]
    rw [tagged_bundle (show (s.loaded l r).cut.1.width < 256 from hwidth) hlength]
    exact hcut.steps

end Slicer

/-! ## What steps of cutting keep -/

/-- What the slicer sends to the line fetch. -/
structure Redirect.Predicts (n : Nat) (r : Redirect) : Prop where
  live : Payload.isBubble r = false
  thread : r.thread.toNat < n
  reason : r.reason = .prediction

namespace Cutting

variable {c : Nat} {i j : Cutting} {predictJumps : Bool}

/-- A prediction is of a thread that there is, and a prediction number is raised only for it. -/
structure Sound (c : Nat) (i : Cutting) : Prop where
  quiet : i.prediction = none → ∀ e ∈ i.expected, ordinal e.predictionSeq ≤ c
  bound : ∀ e ∈ i.expected, ordinal e.predictionSeq ≤ c + 1
  prediction : ∀ r, i.prediction = some r → r.Predicts i.expected.length

theorem Sound.step (h : i.Sound c) (hs : Step predictJumps i j) : j.Sound c := by
  cases hs with
  | drop => exact ⟨h.quiet, h.bound, h.prediction⟩
  | cut => exact ⟨h.quiet, h.bound, h.prediction⟩
  | cutJump l rest e inst offset seq hlines he hcarries hword hjump hnone =>
    obtain ⟨ht, -⟩ := List.getElem?_eq_some_iff.mp he
    have hquiet := h.quiet hnone e (List.mem_of_getElem? he)
    have hnext := ordinal_succ_le e.predictionSeq
    refine ⟨fun hsome => absurd hsome (by simp), ?_, ?_⟩
    · intro e' he'
      rcases List.mem_or_eq_of_mem_set he' with he' | rfl
      · exact h.bound e' he'
      · exact Nat.le_trans hnext (by omega)
    · intro r hr
      rw [List.length_set, ← Option.some.inj hr]
      exact ⟨Flag.isSet_clear, ht, rfl⟩

theorem Sound.steps (h : i.Sound c) (hs : Steps predictJumps i j) : j.Sound c := by
  induction hs with
  | refl => exact h
  | tail _ hlast ih => exact ih.step hlast

/-! ## The lanes -/

variable {k : Track}

/-- A lane of which the slicer has the middle: what `v` has of micro-ops and predictions is older,
what it has of lines is younger. -/
def between (i : Cutting) (k : Track) (v : Lane) : Lane :=
  { v with
    ops := v.ops ++ share k.thread i.made
    expected := i.expected[k.thread.toNat]?.getD v.expected
    lines := linesOf k.thread i.lines ++ v.lines
    predictions := v.predictions ++ redirectsOf k.thread i.prediction.toList }

theorem lines_between {l : Line} {rest : List Line} (v : Lane) (hlines : i.lines = l :: rest)
    (hl : l.thread = k.thread) :
    (i.between k v).lines = l :: (linesOf k.thread rest ++ v.lines) := by
  rw [between, hlines, linesOf_cons hl, List.cons_append]

theorem expected_between {e : Expected} (v : Lane)
    (he : i.expected[k.thread.toNat]? = some e) : (i.between k v).expected = e := by
  rw [between, he, Option.getD_some]

/-- A step of cutting is a step of the lane of its thread, and does not touch the others. -/
theorem Step.lane (v : Lane) (ht : k.thread.toNat < i.expected.length)
    (hfresh : i.prediction = none → ∀ e ∈ i.expected, k.fresh (e.predictionSeq + 1))
    (hs : Step k.predictJumps i j) : Lane.SupplySteps k (i.between k v) (j.between k v) := by
  cases hs with
  | drop l rest hlines hdone =>
    by_cases heq : l.thread = k.thread
    · refine .single ⟨.drop _ l _ (lines_between v hlines heq) ?_, List.prefix_rfl, List.suffix_rfl⟩
      have he := List.getElem?_eq_getElem ht
      rw [expected_between v he]
      exact hdone _ (by rw [heq]; exact he)
    · rw [show between { i with lines := rest } k v = i.between k v by
        rw [between, between, hlines, linesOf_cons_of_ne heq]]
  | cut l rest e inst seq hlines he hcarries hword hplain =>
    by_cases heq : l.thread = k.thread
    · rw [heq] at he ⊢
      have hexpected := expected_between v he
      refine .single ⟨?_, ?_, List.suffix_rfl⟩
      · have hstep := Lane.Step.cut (k := k) (i.between k v) l _ inst seq
          (lines_between v hlines heq) (by rwa [hexpected]) hword hplain
        have hline : linesOf k.thread (l.enter (Isa.nextWord l.pc) :: rest) =
            l.enter (Isa.nextWord l.pc) :: linesOf k.thread rest :=
          linesOf_cons (l := l.enter (Isa.nextWord l.pc)) heq rest
        simp only [between, share_concat, hline, List.append_assoc, List.cons_append] at hstep ⊢
        exact hstep
      · simp only [between, share_concat, ← List.append_assoc]
        exact List.prefix_append _ _
    · have hline : linesOf k.thread (l.enter (Isa.nextWord l.pc) :: rest) =
          linesOf k.thread (l :: rest) :=
        (linesOf_cons_of_ne (l := l.enter (Isa.nextWord l.pc)) heq rest).trans
          (linesOf_cons_of_ne heq rest).symm
      simp only [between, hlines, share_concat_of_ne heq, hline]
      exact .refl
  | cutJump l rest e inst offset seq hlines he hcarries hword hjump hnone =>
    have hmem : e ∈ i.expected := List.mem_of_getElem? he
    by_cases heq : l.thread = k.thread
    · rw [heq] at he ⊢
      have hexpected := expected_between v he
      refine .single ⟨?_, ?_, List.suffix_rfl⟩
      · have hstep := Lane.Step.cutJump (k := k) (i.between k v) l _ inst offset seq
          (lines_between v hlines heq) (by rwa [hexpected]) hword hjump
          (by rw [hexpected]; exact hfresh hnone e hmem)
        have hprediction : ∀ a b c, redirectsOf k.thread [.live .prediction k.thread a b c] =
            [.live .prediction k.thread a b c] := fun _ _ _ => redirectsOf_cons rfl []
        rw [hexpected] at hstep
        simp only [between, share_concat, List.getElem?_set_self ht, hnone, Option.toList_some,
          Option.toList_none, redirectsOf_nil, hprediction, Option.getD_some, List.append_nil,
          List.append_assoc] at hstep ⊢
        exact hstep
      · simp only [between, share_concat, ← List.append_assoc]
        exact List.prefix_append _ _
    · have hset : (i.expected.set l.thread.toNat
          { e with predictionSeq := e.predictionSeq + 1 })[k.thread.toNat]? =
          i.expected[k.thread.toNat]? :=
        List.getElem?_set_ne fun h => heq (UInt32.toNat_inj.mp h)
      have hprediction : ∀ a b c, redirectsOf k.thread [.live .prediction l.thread a b c] = [] :=
        fun _ _ _ => redirectsOf_cons_of_ne heq []
      simp only [between, hlines, hset, hnone, share_concat_of_ne heq, linesOf_cons_of_ne heq,
        Option.toList_some, Option.toList_none, hprediction, redirectsOf_nil]
      exact .refl

/-- **Steps of cutting are steps of every lane.** -/
theorem lane_steps (v : Lane) (h : i.Sound c) (ht : k.thread.toNat < i.expected.length)
    (hfresh : ∀ x, ordinal x ≤ c → k.fresh (x + 1)) (hs : Steps k.predictJumps i j) :
    Lane.SupplySteps k (i.between k v) (j.between k v) := by
  induction hs with
  | refl => exact .refl
  | tail hpre hlast ih =>
    refine ih.trans (hlast.lane v (Steps.length hpre ▸ ht) fun hnone e he => hfresh _ ?_)
    exact (h.steps hpre).quiet hnone e he

end Cutting

namespace Slicer

/-- What holds of the stage between cycles: there are `n` threads, and no prediction has a number of
more than `c` before it. -/
structure Sound (n c : Nat) (s : Slicer) : Prop where
  entered : s.Entered
  width : s.width < 256
  length : s.expected.length = n
  bound : ∀ e ∈ s.expected, ordinal e.predictionSeq ≤ c

variable {n c : Nat} {s : Slicer} {l : Line} {r : Redirect}

theorem Sound.mem_followed (h : s.Sound n c) (hr : Payload.isBubble r = false → r.Sent n) :
    ∀ e ∈ s.followed r, ordinal e.predictionSeq ≤ c := by
  intro e he
  unfold followed follow at he
  split at he
  · rename_i hlive
    rcases List.mem_or_eq_of_mem_set he with he | rfl
    · exact h.bound e he
    · have hbubble : Payload.isBubble r = false := by
        have := hlive.1
        simp only [Redirect.isLive, Bool.and_eq_true, Bool.not_eq_true'] at this
        exact this.1
      show ordinal r.newPredictionSeq ≤ c
      rw [(hr hbubble).resets, ordinal_firstSeq]
      exact Nat.zero_le c
  · exact h.bound e he

theorem length_followed (s : Slicer) (r : Redirect) :
    (s.followed r).length = s.expected.length := by
  unfold followed follow
  split
  · exact List.length_set
  · rfl

/-- The stage when cutting begins is sound. -/
theorem Sound.start (h : s.Sound n c) (hr : Payload.isBubble r = false → r.Sent n)
    (ls : List Line) :
    Cutting.Sound c ⟨ls, s.followed r, [], none⟩ :=
  ⟨fun _ => h.mem_followed hr, fun e he => Nat.le_succ_of_le (h.mem_followed hr e he),
    fun r hr => absurd hr (by simp)⟩

theorem width_evaluate (s : Slicer) (l : Line) (r : Redirect) (room : Bool) :
    (s.evaluate l r room).stage.width = s.width ∧
      (s.evaluate l r room).stage.predictJumps = s.predictJumps := by
  unfold evaluate
  simp only [follow_push]
  cases room <;> exact ⟨rfl, rfl⟩

theorem Sound.evaluate (h : s.Sound n c) (l : Line) (hr : Payload.isBubble r = false → r.Sent n)
    (room : Bool) :
    (s.evaluate l r room).stage.Sound n (c + 1) ∧
      ∀ p, (s.evaluate l r room).prediction = some p → p.Predicts n := by
  obtain ⟨hsteps, hentered⟩ := evaluate_steps h.entered h.width l r room
  have hend := (h.start hr _).steps hsteps
  have hlength : (s.evaluate l r room).stage.expected.length = n :=
    (hsteps.length.trans (s.length_followed r)).trans h.length
  refine ⟨⟨hentered, (s.width_evaluate l r room).1 ▸ h.width, hlength, hend.bound⟩, fun p hp => ?_⟩
  exact hlength ▸ hend.prediction p hp

/-- **In a cycle each lane goes through steps that its middle part has from the slicer.** -/
theorem lane_evaluate {k : Track} (h : s.Sound n c) (ht : k.thread.toNat < n)
    (hpredict : s.predictJumps = k.predictJumps)
    (hfresh : ∀ x, ordinal x ≤ c → k.fresh (x + 1)) (l : Line)
    (hr : Payload.isBubble r = false → r.Sent n) (room : Bool) (v : Lane) :
    Lane.SupplySteps k (Cutting.between ⟨s.waiting ++ present [l], s.followed r, [], none⟩ k v)
      (Cutting.between ⟨(s.evaluate l r room).stage.waiting, (s.evaluate l r room).stage.expected,
        (s.evaluate l r room).bundle.toList.flatMap Bundle.tagged,
        (s.evaluate l r room).prediction⟩ k v) :=
  Cutting.lane_steps v (h.start hr _) ((s.length_followed r).trans h.length ▸ ht) hfresh
    (hpredict ▸ (evaluate_steps h.entered h.width l r room).1)

end Slicer

end InOrder
