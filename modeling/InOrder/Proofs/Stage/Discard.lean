import InOrder.Proofs.Stage.Slicer

/-!
# Cycles of the slicer that cut nothing

A line that is refused by its thread is discarded, and so is one without a further word. So if the
slicer has room for a bundle and sends none, no line stays in its queue and no jump was predicted
(`Slicer.discarded_of_none`); and if all its lines are refused it sends none (`Slicer.of_refused`).
What it does send is of the streams that it expects (`Slicer.stream_of_bundle`).
-/

namespace InOrder

/-- The line does not have the numbers that its thread expects. -/
def Refused (es : List Expected) (l : Line) : Prop :=
  ∀ e, es[l.thread.toNat]? = some e → ¬ l.Carries e

/-- Nothing is cut from the line: it is refused, or has no word where it is entered. -/
def Barren (es : List Expected) (l : Line) : Prop :=
  ∀ e, es[l.thread.toNat]? = some e → ¬ l.Carries e ∨ l.wordAt? l.pc = none

theorem Cut.accepts_eq_false {c : Cut} {l : Line} (h : Refused c.expected l) :
    c.accepts l = false := by
  rw [Bool.eq_false_iff]
  intro haccepts
  obtain ⟨e, he, hcarries⟩ := accepts_iff.mp haccepts
  exact h e he hcarries

/-- To enter a line elsewhere does not change who refuses it. -/
theorem refused_enteredAt {es : List Expected} {cursor : Option UInt64} {ls : List Line} :
    (∀ l ∈ enteredAt cursor ls, Refused es l) ↔ ∀ l ∈ ls, Refused es l := by
  cases ls with
  | nil => exact Iff.rfl
  | cons l rest =>
    rw [enteredAt, List.forall_mem_cons, List.forall_mem_cons]
    exact Iff.rfl

/-! ## What is cut -/

/-- Nothing that was taken is given back, and a line is not left full without a micro-op. -/
theorem cutLine_grows (predictJumps : Bool) (l : Line) : ∀ (room : Nat) (c : Cut),
    c.ops.length ≤ (cutLine predictJumps l room c).1.ops.length ∧
      (0 < room → (cutLine predictJumps l room c).2 ≠ .spent →
        c.ops.length < (cutLine predictJumps l room c).1.ops.length)
  | 0, c => ⟨Nat.le_refl _, fun h => absurd h (Nat.lt_irrefl 0)⟩
  | room + 1, c => by
    have htake : ∀ inst, c.ops.length < (cutLine predictJumps l room
        (c.take l (c.cursor.getD l.pc) inst)).1.ops.length := by
      intro inst
      have hmore := (cutLine_grows predictJumps l room (c.take l (c.cursor.getD l.pc) inst)).1
      rw [show (c.take l (c.cursor.getD l.pc) inst).ops.length = c.ops.length + 1 from
        List.length_append] at hmore
      exact hmore
    have hjump : ∀ inst offset, c.ops.length <
        (c.takeJump l (c.cursor.getD l.pc) inst offset).ops.length := by
      intro inst offset
      unfold Cut.takeJump
      simp only
      split <;> simp
    rw [cutLine]
    cases hword : l.wordAt? (c.cursor.getD l.pc) with
    | none => exact ⟨Nat.le_refl _, fun _ h => absurd rfl h⟩
    | some inst =>
      cases predictJumps with
      | false => exact ⟨Nat.le_of_lt (htake inst), fun _ _ => htake inst⟩
      | true =>
        cases hkind : Isa.classify inst with
        | jump offset =>
          simp only [hkind]
          exact ⟨Nat.le_of_lt (hjump inst offset), fun _ _ => hjump inst offset⟩
        | suspend =>
          simp only [hkind]
          exact ⟨Nat.le_of_lt (htake inst), fun _ _ => htake inst⟩
        | plain =>
          simp only [hkind]
          exact ⟨Nat.le_of_lt (htake inst), fun _ _ => htake inst⟩

/-- Nothing that was taken is given back. -/
theorem cutQueue_grows (predictJumps : Bool) (width : Nat) : ∀ (ls : List Line) (c : Cut),
    c.ops.length ≤ (cutQueue predictJumps width ls c).2.ops.length
  | [], c => Nat.le_refl _
  | l :: rest, c => by
    have hline := (cutLine_grows predictJumps l (width - c.ops.length) c).1
    rw [cutQueue]
    split
    · exact Nat.le_refl _
    split
    · exact cutQueue_grows predictJumps width rest
        { c with discarded := c.discarded + 1, cursor := none }
    split
    · exact Nat.le_refl _
    obtain ⟨d, e, he⟩ : ∃ d e, cutLine predictJumps l (width - c.ops.length) c = (d, e) :=
      ⟨_, _, rfl⟩
    rw [he] at hline ⊢
    cases e with
    | full => exact hline
    | spent => exact Nat.le_trans hline (cutQueue_grows predictJumps width rest d)
    | jumped => exact hline

/-- If no micro-op was taken, no line is left. -/
theorem cutQueue_eq_nil (predictJumps : Bool) {width : Nat} (hwidth : 0 < width) :
    ∀ (ls : List Line) (c : Cut), (cutQueue predictJumps width ls c).2.ops = [] →
      (cutQueue predictJumps width ls c).1 = []
  | [], c, _ => rfl
  | l :: rest, c, hnone => by
    have hgrows := cutQueue_grows predictJumps width (l :: rest) c
    rw [hnone, List.length_nil, Nat.le_zero, List.length_eq_zero_iff] at hgrows
    have hroom : 0 < width - c.ops.length := by
      rw [hgrows]
      exact hwidth
    have hline := (cutLine_grows predictJumps l (width - c.ops.length) c).2 hroom
    rw [cutQueue] at hnone ⊢
    rw [if_neg (by omega)] at hnone ⊢
    split at hnone
    · rename_i hrefused
      rw [if_pos hrefused]
      exact cutQueue_eq_nil predictJumps hwidth rest _ hnone
    rename_i haccepted
    rw [if_neg haccepted]
    have hfirst : ¬ (c.ops ≠ [] ∧ c.thread ≠ l.thread) := fun h => h.1 hgrows
    rw [if_neg hfirst] at hnone ⊢
    obtain ⟨d, e, he⟩ : ∃ d e, cutLine predictJumps l (width - c.ops.length) c = (d, e) :=
      ⟨_, _, rfl⟩
    rw [he] at hnone hline ⊢
    cases e with
    | full =>
      have hmore := hline CutEnd.noConfusion
      rw [show d.ops = [] from hnone] at hmore
      exact absurd hmore (Nat.not_lt_zero _)
    | jumped =>
      have hmore := hline CutEnd.noConfusion
      rw [show d.ops = [] from hnone] at hmore
      exact absurd hmore (Nat.not_lt_zero _)
    | spent => exact cutQueue_eq_nil predictJumps hwidth rest d hnone

/-- Of lines that are refused nothing is taken. -/
theorem cutQueue_refused (predictJumps : Bool) (width : Nat) : ∀ (ls : List Line) (c : Cut),
    c.ops = [] → (∀ l ∈ ls, Refused c.expected l) → (cutQueue predictJumps width ls c).2.ops = []
  | [], c, hops, _ => hops
  | l :: rest, c, hops, hrefused => by
    rw [cutQueue]
    split
    · exact hops
    rw [if_pos (Cut.accepts_eq_false (hrefused l List.mem_cons_self))]
    exact cutQueue_refused predictJumps width rest
      { c with discarded := c.discarded + 1, cursor := none } hops
      fun l' hl' => hrefused l' (List.mem_cons_of_mem l hl')

namespace Cutting

variable {predictJumps : Bool} {i j : Cutting}

/-- Nothing that was made is given back. -/
theorem Step.made_prefix (h : Step predictJumps i j) : i.made <+: j.made := by
  cases h with
  | drop => exact List.prefix_refl _
  | cut | cutJump => exact List.prefix_append _ _

/-- A step that makes nothing drops a line from which nothing is cut. -/
theorem Step.of_made (h : Step predictJumps i j) (hmade : j.made = []) :
    j.expected = i.expected ∧ j.prediction = i.prediction ∧
      ∃ l, i.lines = l :: j.lines ∧ Barren i.expected l := by
  cases h with
  | drop l rest hlines hdone => exact ⟨rfl, rfl, l, hlines, hdone⟩
  | cut => exact absurd hmade (by simp)
  | cutJump => exact absurd hmade (by simp)

/-- Steps that make nothing drop lines from which nothing is cut. -/
theorem Steps.of_made (h : Steps predictJumps i j) (hmade : j.made = []) :
    j.expected = i.expected ∧ j.prediction = i.prediction ∧
      ∃ gone, i.lines = gone ++ j.lines ∧ ∀ l ∈ gone, Barren i.expected l := by
  induction h with
  | refl => exact ⟨rfl, rfl, [], rfl, fun l hl => absurd hl (by simp)⟩
  | @tail u j' hpre hlast ih =>
    have hbefore : u.made = [] := List.prefix_nil.mp (hmade ▸ hlast.made_prefix)
    obtain ⟨hexpected, hprediction, gone, hgone, hbarren⟩ := ih hbefore
    obtain ⟨hexpected', hprediction', l, hl, hdone⟩ := hlast.of_made hmade
    refine ⟨hexpected'.trans hexpected, hprediction'.trans hprediction, gone ++ [l], ?_, ?_⟩
    · rw [hgone, hl, List.append_assoc, List.singleton_append]
    · intro l' hl'
      rcases List.mem_append.mp hl' with hl' | hl'
      · exact hbarren l' hl'
      · rw [List.mem_singleton.mp hl', ← hexpected]
        exact hdone

/-- What was made is of the stream that its thread is expected in. -/
def InStream (i : Cutting) : Prop :=
  ∀ x ∈ i.made, ∃ e, i.expected[x.1.toNat]? = some e ∧ x.2.streamSeq = e.streamSeq

theorem InStream.concat {x : UInt32 × MicroOp} {e : Expected} (h : i.InStream)
    (he : i.expected[x.1.toNat]? = some e) (hx : x.2.streamSeq = e.streamSeq) :
    ∀ y ∈ i.made ++ [x], ∃ e, i.expected[y.1.toNat]? = some e ∧ y.2.streamSeq = e.streamSeq := by
  intro y hy
  rcases List.mem_append.mp hy with hy | hy
  · exact h y hy
  · rw [List.mem_singleton.mp hy]
    exact ⟨e, he, hx⟩

theorem InStream.step (h : i.InStream) (hs : Step predictJumps i j) : j.InStream := by
  cases hs with
  | drop => exact h
  | cut l rest e inst seq hlines he hcarries hword hplain => exact h.concat he hcarries.1
  | cutJump l rest e inst offset seq hlines he hcarries hword hjump hnone =>
    intro y hy
    obtain ⟨e', he', hstream⟩ := h.concat (x := (l.thread,
      ⟨.clear, l.pc, seq, l.streamSeq, inst, .set, Isa.displace l.pc offset⟩)) he hcarries.1 y hy
    -- a prediction does not change the stream that is expected
    by_cases heq : l.thread.toNat = y.1.toNat
    · rw [heq] at he ⊢
      obtain rfl := Option.some.inj (he.symm.trans he')
      exact ⟨_, List.getElem?_set_self (List.getElem?_eq_some_iff.mp he).1, hstream⟩
    · exact ⟨e', (List.getElem?_set_ne heq).trans he', hstream⟩

theorem InStream.steps (h : i.InStream) (hs : Steps predictJumps i j) : j.InStream := by
  induction hs with
  | refl => exact h
  | tail _ hlast ih => exact ih.step hlast

end Cutting

/-! ## A cycle -/

namespace Slicer

variable {s : Slicer} {l : Line} {r : Redirect} {room : Bool}

/-- The slicer sends no bundle if and only if it has cut nothing. -/
theorem bundle_eq_none_iff (s : Slicer) (l : Line) (r : Redirect) :
    (s.evaluate l r true).bundle = none ↔ (s.loaded l r).cut.2.ops = [] := by
  unfold evaluate
  simp only [follow_push, if_true, List.isEmpty_iff]
  by_cases hops : (s.loaded l r).cut.2.ops = []
  · rw [if_pos hops]
    exact ⟨fun _ => hops, fun _ => rfl⟩
  · rw [if_neg hops]
    exact ⟨fun h => absurd h (by simp), fun h => absurd h hops⟩

theorem entries_evaluate (s : Slicer) (l : Line) (r : Redirect) :
    (s.evaluate l r true).stage.input.entries = (s.loaded l r).cut.1.input.entries := by
  unfold evaluate
  simp only [follow_push, if_true]

/-- Without room nothing is done but to take in what arrives. -/
theorem evaluate_of_no_room (s : Slicer) (l : Line) (r : Redirect) :
    (s.evaluate l r false).stage = s.loaded l r ∧ (s.evaluate l r false).bundle = none ∧
      (s.evaluate l r false).prediction = none := by
  unfold evaluate
  simp only [follow_push, Bool.false_eq_true, if_false, and_self]

/-- **A slicer that sends no bundle predicts nothing, and expects what it did.** -/
theorem quiet_of_none (hentered : s.Entered) (hwidth : s.width < 256)
    (hnone : (s.evaluate l r room).bundle = none) :
    (s.evaluate l r room).prediction = none ∧
      (s.evaluate l r room).stage.expected = s.followed r := by
  have hsteps := (evaluate_steps hentered hwidth l r room).1
  rw [hnone] at hsteps
  obtain ⟨hexpected, hprediction, -⟩ := hsteps.of_made rfl
  exact ⟨hprediction, hexpected⟩

/-- **A slicer that has room and sends no bundle has nothing to cut from**, and discards all. -/
theorem discarded_of_none (hentered : s.Entered) (hwidth : s.width < 256) (hpos : 0 < s.width)
    (hnone : (s.evaluate l r true).bundle = none) :
    (s.evaluate l r true).stage.input.entries = [] ∧
      ∀ l' ∈ s.waiting ++ present [l], Barren (s.followed r) l' := by
  have hempty : (s.evaluate l r true).stage.input.entries = [] := by
    rw [entries_evaluate]
    exact cutQueue_eq_nil s.predictJumps hpos _ _ ((bundle_eq_none_iff s l r).mp hnone)
  have hsteps := (evaluate_steps hentered hwidth l r true).1
  rw [hnone] at hsteps
  obtain ⟨-, -, gone, hgone, hbarren⟩ := hsteps.of_made rfl
  have hwaiting : (s.evaluate l r true).stage.waiting = [] := by
    rw [waiting, hempty]
    rfl
  simp only [hwaiting, List.append_nil] at hgone
  exact ⟨hempty, fun l' hl' => hbarren l' (hgone ▸ hl')⟩

/-- **Of lines that are refused nothing is cut.** -/
theorem of_refused (hrefused : ∀ l' ∈ s.waiting ++ present [l], Refused (s.followed r) l')
    (hentered : s.Entered) : (s.evaluate l r room).bundle = none := by
  cases room with
  | false => exact (evaluate_of_no_room s l r).2.1
  | true =>
    rw [bundle_eq_none_iff]
    rw [← waiting_loaded hentered] at hrefused
    exact cutQueue_refused s.predictJumps s.width _ _ rfl (refused_enteredAt.mp hrefused)

/-- **A bundle has a micro-op, and each of them is of the stream that is expected.** -/
theorem stream_of_bundle (hentered : s.Entered) (hwidth : s.width < 256) {b : Bundle}
    (hb : (s.evaluate l r room).bundle = some b) :
    b.tagged ≠ [] ∧ ∀ x ∈ b.tagged, ∃ e,
      (s.evaluate l r room).stage.expected[x.1.toNat]? = some e ∧ x.2.streamSeq = e.streamSeq := by
  have hsteps := (evaluate_steps hentered hwidth l r room).1
  have hstream := Cutting.InStream.steps (fun x hx => absurd hx (by simp)) hsteps
  rw [hb] at hstream
  have htagged : (some b).toList.flatMap Bundle.tagged = b.tagged := List.flatMap_singleton ..
  refine ⟨fun hnil => ?_, fun x hx => hstream x (htagged.symm ▸ hx)⟩
  cases room with
  | false =>
    rw [(evaluate_of_no_room s l r).2.1] at hb
    cases hb
  | true =>
    have hcut := cutQueue_cut s.predictJumps s.width (s.loaded l r).input.entries
      ⟨s.followed r, s.cursor, s.nextSeq, s.discarded, 0, [], none⟩ (entered_loaded hentered l r)
      (Nat.zero_le _) rfl
    have hmade := tagged_bundle (show (s.loaded l r).cut.1.width < 256 from hwidth) hcut.length
    have hsent : (s.evaluate l r true).bundle = if (s.loaded l r).cut.2.ops.isEmpty then none
        else some (Bundle.ofInsts (s.loaded l r).cut.1.width (s.loaded l r).cut.2.thread
          (s.loaded l r).cut.2.ops) := by
      unfold evaluate
      simp only [follow_push, if_true]
    have hops : (s.loaded l r).cut.2.ops = [] := by
      have hall := htagged.trans hnil
      rw [← hb, hsent] at hall
      exact List.map_eq_nil_iff.mp (hmade.symm.trans hall)
    rw [(bundle_eq_none_iff s l r).mpr hops] at hb
    cases hb

/-- Lines that are refused and stay are still refused. -/
theorem mem_waiting_of_none (hentered : s.Entered) (hwidth : s.width < 256)
    (hnone : (s.evaluate l r room).bundle = none) {l' : Line}
    (hl' : l' ∈ (s.evaluate l r room).stage.waiting) : l' ∈ s.waiting ++ present [l] := by
  have hsteps := (evaluate_steps hentered hwidth l r room).1
  rw [hnone] at hsteps
  obtain ⟨-, -, gone, hgone, -⟩ := hsteps.of_made rfl
  simp only at hgone
  rw [hgone]
  exact List.mem_append_right gone hl'

/-- The slicer does not work in a cycle if it sends no bundle and keeps no line. -/
theorem busy_eq_false_iff (s : Slicer) (l : Line) (r : Redirect) (room : Bool) :
    (s.evaluate l r room).busy = false ↔
      (s.evaluate l r room).bundle = none ∧ (s.evaluate l r room).stage.input.entries = [] := by
  have hbusy : (s.evaluate l r room).busy = ((s.evaluate l r room).bundle.isSome ||
      !(s.evaluate l r room).stage.input.isEmpty) := by
    unfold evaluate
    split <;> rfl
  rw [hbusy]
  simp only [Queue.isEmpty, Bool.or_eq_false_iff, Option.isSome_eq_false_iff,
    Option.isNone_iff_eq_none, Bool.not_eq_eq_eq_not, Bool.not_false, List.isEmpty_iff]

/-- A redirect that is a bubble changes nothing that is expected. -/
theorem followed_of_bubble (h : r.isLive = false) : s.followed r = s.expected := by
  rw [followed, follow, if_neg (by simp [h])]

/-- A cycle does not touch the settings of the stage. -/
theorem capacity_evaluate (s : Slicer) (l : Line) (r : Redirect) (room : Bool) :
    (s.evaluate l r room).stage.input.capacity = s.input.capacity := by
  have hpush : (s.input.push l).capacity = s.input.capacity := by
    unfold Queue.push
    split <;> rfl
  unfold evaluate
  simp only [follow_push]
  cases room <;> exact hpush

end Slicer

end InOrder
