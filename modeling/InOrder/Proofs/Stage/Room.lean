import InOrder.Proofs.Stage.Slicer
import InOrder.Proofs.Stage.Squash
import InOrder.Proofs.Stage.Supply

/-!
# Room in queues

A stage leaves no more in its queue than was there and arrived, and sends nothing without room where
it goes. So no queue grows without bound (`Queue.Holds.cycle`). Of the micro-ops of a bundle at most
one is a predicted jump (`Slicer.predicted_of_bundle`).
-/

namespace InOrder

/-- Issue leaves the end of the queue. -/
theorem issueQueue_suffix (lim : IssueLimits) :
    ∀ (bs : List Bundle) (s : Issue), (issueQueue lim bs s).1 <:+ bs
  | [], _ => List.suffix_refl _
  | b :: rest, s => by
    rw [issueQueue]
    obtain ⟨s', e, he⟩ : ∃ s' e, issueOps lim b.thread (b.insts.drop s.index) s = (s', e) :=
      ⟨_, _, rfl⟩
    rw [he]
    cases e with
    | spent => exact (issueQueue_suffix lim rest _).trans (List.suffix_cons b rest)
    | blocked => exact List.suffix_refl _
    | raised r => exact List.suffix_refl _

/-- Of a bundle that was begun no more waits than the bundle has. -/
theorem waitingOps_sublist (index : Nat) (bs : List Bundle) :
    (waitingOps index bs).Sublist (bs.flatMap Bundle.tagged) := by
  cases bs with
  | nil => exact List.Sublist.refl _
  | cons b rest =>
    rw [waitingOps, List.flatMap_cons]
    exact ((List.drop_sublist _ _).map _).append (List.Sublist.refl _)

theorem Execute.evaluate_suffix (s : Execute) (cycle : Nat) (b : Bundle) :
    (s.evaluate cycle b).stage.input.entries <:+ s.input.entries ++ present [b] := by
  rw [(s.evaluate_issue cycle b).2, ← Queue.entries_push]
  exact issueQueue_suffix _ _ _

namespace Decode

theorem evaluate_suffix (s : Decode) (b : Bundle) (room : Bool) :
    (s.evaluate b room).stage.input.entries <:+ s.input.entries ++ present [b] := by
  cases room with
  | true =>
    rw [(s.evaluate_room b).2]
    exact List.tail_suffix _
  | false =>
    rw [← Queue.entries_push]
    exact List.suffix_refl _

/-- Nothing is passed on without room. -/
theorem room_of_bundle {s : Decode} {b b' : Bundle} {room : Bool}
    (h : (s.evaluate b room).bundle = some b') : room = true := by
  cases room with
  | true => rfl
  | false => exact absurd h (by simp [evaluate])

/-- What is passed on was queued or arrives. -/
theorem mem_of_bundle {s : Decode} {b b' : Bundle} {room : Bool}
    (h : (s.evaluate b room).bundle = some b') : b' ∈ s.input.entries ++ present [b] := by
  rw [room_of_bundle h, (s.evaluate_room b).1] at h
  exact List.mem_of_head? h

end Decode

/-- A line is sent only if there is room for it. -/
theorem LineFetch.room_of_line {s : LineFetch} {cycle : Nat} {branch prediction : Redirect}
    {room : Bool} {l : Line} (h : (s.evaluate cycle branch prediction room).line = some l) :
    room = true := by
  rw [line_evaluate] at h
  rcases deliver_cases _ cycle room with hdeliver | ⟨p, -, hready, -⟩
  · rw [hdeliver] at h
    nomatch h
  · exact hready.2

/-- What is cut is taken from the front of the queue. -/
theorem cutQueue_suffix (predictJumps : Bool) (width : Nat) :
    ∀ (ls : List Line) (c : Cut), (cutQueue predictJumps width ls c).1 <:+ ls
  | [], _ => List.suffix_refl _
  | l :: rest, c => by
    unfold cutQueue
    split
    · exact List.suffix_refl _
    split
    · exact (cutQueue_suffix predictJumps width rest _).trans (List.suffix_cons l rest)
    split
    · exact List.suffix_refl _
    split
    · exact List.suffix_refl _
    · exact (cutQueue_suffix predictJumps width rest _).trans (List.suffix_cons l rest)
    · exact List.suffix_cons l rest

theorem Slicer.evaluate_suffix (s : Slicer) (l : Line) (r : Redirect) (room : Bool) :
    (s.evaluate l r room).stage.input.entries <:+ s.input.entries ++ present [l] := by
  rw [← Queue.entries_push]
  unfold evaluate
  simp only [follow_push]
  cases room with
  | true => exact cutQueue_suffix _ _ _ _
  | false => exact List.suffix_refl _

/-! ## One prediction in a cycle -/

namespace Cutting

variable {predictJumps : Bool} {i j : Cutting}

/-- As many predicted jumps were made as there are predictions, and that is one at most. -/
def Single (i : Cutting) : Prop := predicted (i.made.map Prod.snd) = i.prediction.toList.length

theorem Single.step (h : i.Single) (hs : Step predictJumps i j) : j.Single := by
  cases hs with
  | drop => exact h
  | cut =>
    unfold Single at h ⊢
    rw [List.map_append, predicted_append, h, List.map_singleton, predicted_singleton]
    simp
  | cutJump l rest e inst offset seq hlines he hcarries hword hjump hnone =>
    unfold Single at h ⊢
    rw [List.map_append, predicted_append, h, hnone, List.map_singleton, predicted_singleton]
    simp

theorem Single.steps (h : i.Single) (hs : Steps predictJumps i j) : j.Single := by
  induction hs with
  | refl => exact h
  | tail _ hlast ih => exact ih.step hlast

end Cutting

namespace Slicer

variable {s : Slicer} {l : Line} {r : Redirect} {room : Bool} {b : Nat}

/-- Nothing is cut without room. -/
theorem room_of_bundle {b' : Bundle} (h : (s.evaluate l r room).bundle = some b') :
    room = true := by
  cases room with
  | true => rfl
  | false => exact absurd h (by simp [evaluate])

/-- A bundle has a predicted jump at most. -/
theorem predicted_of_bundle (hentered : s.Entered) (hwidth : s.width < 256) {b' : Bundle}
    (h : (s.evaluate l r room).bundle = some b') : predicted b'.insts ≤ 1 := by
  have hsteps := (evaluate_steps hentered hwidth l r room).1
  have hstart : Cutting.Single ⟨s.waiting ++ present [l], s.followed r, [], none⟩ := rfl
  have hsingle := hstart.steps hsteps
  unfold Cutting.Single at hsingle
  simp only [h] at hsingle
  have hmade : (some b').toList.flatMap Bundle.tagged = b'.tagged := List.flatMap_singleton ..
  rw [hmade, Bundle.map_snd_tagged] at hsingle
  rw [hsingle]
  exact Option.length_toList_le

/-- A cycle raises a prediction number at most once. -/
theorem bound_evaluate (hentered : s.Entered) (hwidth : s.width < 256)
    (h : ∀ e ∈ s.followed r, ordinal e.predictionSeq ≤ b) :
    ∀ e ∈ (s.evaluate l r room).stage.expected, ordinal e.predictionSeq ≤ b + 1 := by
  have hsteps := (evaluate_steps hentered hwidth l r room).1
  have hstart : Cutting.Sound b ⟨s.waiting ++ present [l], s.followed r, [], none⟩ :=
    ⟨fun _ => h, fun e he => Nat.le_succ_of_le (h e he), fun p hp => absurd hp (by simp)⟩
  exact (hstart.steps hsteps).bound

end Slicer

end InOrder
