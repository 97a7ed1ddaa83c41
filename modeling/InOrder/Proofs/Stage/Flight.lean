import InOrder.Proofs.Lane.Route
import InOrder.Proofs.Stage.Room

/-!
# The line in flight

The line fetch holds a line from the request until it is sent or dropped. A `FetchQueue` is the
stage with a queue for such lines. As it only asks while fewer than `FetchQueue.limit` are in the
queue, the queue never has more than one, and the two are the same
(`FetchQueue.performAll_ofStage`).

The line in flight is the one that its thread asked for last (`LineFetch.Fresh`): it has the numbers
of its thread, and the thread goes on after it. A redirect or prediction drops it by comparing one
number, so this holds as long as what arrives brings a number that its thread does not have
(`LineFetch.Renews`).
-/

namespace InOrder

namespace LineFetch

/-- What can be done to the stage. -/
inductive Use where
  /-- A cycle of some number, with what arrives in it, and whether the slicer has room. -/
  | cycle (number : Nat) (branch prediction : Redirect) (room : Bool)
  /-- Let a thread fetch. -/
  | wake (thread : UInt32)

/-- Do it. -/
def perform (s : LineFetch) : Use → LineFetch
  | .cycle number branch prediction room => (s.evaluate number branch prediction room).stage
  | .wake t => (s.wake t).1

/-- The stage after some uses. -/
def performAll (s : LineFetch) (uses : List Use) : LineFetch := uses.foldl perform s

end LineFetch

/-! ## A queue of lines -/

/-- The line fetch with a queue of lines in flight. -/
structure FetchQueue where
  /-- The stage but for the lines. -/
  stage : LineFetch
  /-- The lines in flight, oldest first. -/
  inFlight : List PendingLine

namespace FetchQueue

/-- From how many lines in flight on no other is asked for. -/
def limit : Nat := 1

/-- The queue for the line that a stage has in flight, if it has one. -/
def ofStage (s : LineFetch) : FetchQueue := ⟨{ s with pending := none }, s.pending.toList⟩

/-- Drop the lines in flight that `keep` does not accept. -/
def retain (q : FetchQueue) (keep : Line → Bool) : FetchQueue :=
  { q with inFlight := q.inFlight.filter fun p => keep p.line }

/-- Replace a thread. -/
def setThread (q : FetchQueue) (t : UInt32) (th : FetchThread) : FetchQueue :=
  { q with stage := q.stage.setThread t th }

/-- Take up a redirect of execute. -/
def changeStream (q : FetchQueue) (r : Redirect) : FetchQueue :=
  if r.reason.changesStream then
    match q.stage.thread? r.thread with
    | none => q
    | some _ =>
      (q.setThread r.thread
        ⟨.after r.reason, r.target, r.newStreamSeq, r.newPredictionSeq⟩).retain fun l =>
          l.thread != r.thread || l.streamSeq == r.newStreamSeq
  else q

/-- Take up a prediction of the slicer. -/
def applyPrediction (q : FetchQueue) (r : Redirect) : FetchQueue :=
  match q.stage.thread? r.thread with
  | none => q
  | some th =>
    if th.state = .running ∧ r.newStreamSeq = th.streamSeq then
      (q.setThread r.thread
        { th with predictionSeq := r.newPredictionSeq, pc := r.target }).retain fun l =>
          l.thread != r.thread || l.predictionSeq == r.newPredictionSeq
    else q

/-- Take up the redirect, or else the prediction. -/
def redirect (q : FetchQueue) (branch prediction : Redirect) : FetchQueue :=
  if branch.isLive then q.changeStream branch
  else if prediction.isLive then q.applyPrediction prediction
  else q

/-- Send the oldest line, if it has arrived and there is `room` for it. -/
def deliver (q : FetchQueue) (cycle : Nat) (room : Bool) : FetchQueue × Option Line :=
  match q.inFlight with
  | [] => (q, none)
  | p :: rest =>
    if p.readyAt ≤ cycle ∧ room = true then
      (⟨{ q.stage with port := q.stage.port.respond }, rest⟩, some p.line)
    else (q, none)

/-- Ask for a line if a thread runs and fewer than `limit` are in flight. -/
def requestNext (q : FetchQueue) (cycle : Nat) : FetchQueue :=
  if q.inFlight.length < limit then
    match q.stage.pick with
    | none => q
    | some t =>
      match q.stage.threads[t]? with
      | none => q
      | some th =>
        let s := q.stage.request t th cycle
        ⟨{ s with pending := none }, q.inFlight ++ s.pending.toList⟩
  else q

/-- One cycle. The answer has the line sent. -/
def evaluate (q : FetchQueue) (cycle : Nat) (branch prediction : Redirect) (room : Bool) :
    FetchQueue × Option Line :=
  let (q, line) := (q.redirect branch prediction).deliver cycle room
  (q.requestNext cycle, line)

/-- Let a thread fetch. -/
def wake (q : FetchQueue) (t : UInt32) : FetchQueue := { q with stage := (q.stage.wake t).1 }

/-- What is done to the stage, done to the queue. -/
def perform (q : FetchQueue) : LineFetch.Use → FetchQueue
  | .cycle number branch prediction room => (q.evaluate number branch prediction room).1
  | .wake t => q.wake t

/-- The queue after some uses. -/
def performAll (q : FetchQueue) (uses : List LineFetch.Use) : FetchQueue := uses.foldl perform q

theorem retain_ofStage (s : LineFetch) (keep : Line → Bool) :
    (ofStage s).retain keep = ofStage (s.keepPending keep) := by
  have hfilter : s.pending.toList.filter (fun p => keep p.line) =
      (s.pending.filter fun p => keep p.line).toList := by
    cases s.pending with
    | none => rfl
    | some p => by_cases hkeep : keep p.line = true <;> simp [hkeep, Option.filter]
  exact congrArg (FetchQueue.mk { s with pending := none }) hfilter

theorem redirect_ofStage (s : LineFetch) (branch prediction : Redirect) :
    (ofStage s).redirect branch prediction = ofStage (s.redirect branch prediction).1 := by
  have hset : ∀ t th, (ofStage s).setThread t th = ofStage (s.setThread t th) := fun _ _ => rfl
  have hthread : ∀ t, (ofStage s).stage.thread? t = s.thread? t := fun _ => rfl
  unfold redirect LineFetch.redirect
  split
  · unfold changeStream LineFetch.changeStream
    split
    · rw [hthread]
      cases s.thread? branch.thread with
      | none => rfl
      | some _ => exact (congrArg (retain · _) (hset _ _)).trans (retain_ofStage _ _)
    · rfl
  · split
    · unfold applyPrediction LineFetch.applyPrediction
      rw [hthread]
      cases s.thread? prediction.thread with
      | none => rfl
      | some th =>
        simp only
        split
        · exact (congrArg (retain · _) (hset _ _)).trans (retain_ofStage _ _)
        · rfl
    · rfl

theorem deliver_ofStage (s : LineFetch) (cycle : Nat) (room : Bool) :
    (ofStage s).deliver cycle room =
      (ofStage (s.deliver cycle room).1, (s.deliver cycle room).2) := by
  cases hpending : s.pending with
  | none =>
    have hstays : s.deliver cycle room = (s, none) := by rw [LineFetch.deliver, hpending]
    rw [hstays, deliver, ofStage, hpending]
    rfl
  | some p =>
    rw [deliver, LineFetch.deliver, ofStage, hpending]
    simp only [Option.toList_some]
    split
    · rfl
    · simp [ofStage, hpending]

theorem requestNext_ofStage (s : LineFetch) (cycle : Nat) :
    (ofStage s).requestNext cycle = ofStage (s.requestNext cycle).1 := by
  cases hpending : s.pending with
  | some p =>
    have hfull : ¬ (ofStage s).inFlight.length < limit := by simp [ofStage, hpending, limit]
    rw [requestNext, if_neg hfull, LineFetch.requestNext, hpending]
  | none =>
    have hroom : (ofStage s).inFlight.length < limit := by simp [ofStage, hpending, limit]
    have hnone : (ofStage s).inFlight = [] := by simp [ofStage, hpending]
    have hpick : (ofStage s).stage.pick = s.pick := rfl
    have hthreads : (ofStage s).stage.threads = s.threads := rfl
    rw [requestNext, if_pos hroom, LineFetch.requestNext, hpending, hpick, hthreads, hnone]
    cases s.pick with
    | none => rfl
    | some t =>
      simp only
      cases s.threads[t]? with
      | none => rfl
      | some th => rfl

theorem evaluate_ofStage (s : LineFetch) (cycle : Nat) (branch prediction : Redirect)
    (room : Bool) :
    (ofStage s).evaluate cycle branch prediction room =
      (ofStage (s.evaluate cycle branch prediction room).stage,
        (s.evaluate cycle branch prediction room).line) := by
  rw [evaluate, redirect_ofStage, deliver_ofStage]
  simp only [requestNext_ofStage]
  rfl

theorem wake_ofStage (s : LineFetch) (t : UInt32) :
    (ofStage s).wake t = ofStage (s.wake t).1 := by
  have hwake : ({ s with pending := none } : LineFetch).wake t =
      ({ (s.wake t).1 with pending := none }, (s.wake t).2) := by
    unfold LineFetch.wake
    rw [show ({ s with pending := none } : LineFetch).thread? t = s.thread? t from rfl]
    cases s.thread? t with
    | none => rfl
    | some th =>
      simp only
      split <;> rfl
  rw [wake, ofStage, ofStage, LineFetch.pending_wake]
  exact congrArg (fun r => FetchQueue.mk r.1 s.pending.toList) hwake

/-- **A queue for lines never holds more than the one in flight.** -/
theorem performAll_ofStage (s : LineFetch) (uses : List LineFetch.Use) :
    (ofStage s).performAll uses = ofStage (s.performAll uses) := by
  induction uses generalizing s with
  | nil => rfl
  | cons u us ih =>
    have hperform : (ofStage s).perform u = ofStage (s.perform u) := by
      cases u with
      | cycle number branch prediction room =>
        exact congrArg Prod.fst (evaluate_ofStage s number branch prediction room)
      | wake t => exact wake_ofStage s t
    show ((ofStage s).perform u).performAll us = _
    rw [hperform]
    exact ih (s.perform u)

end FetchQueue

/-! ## The line that was asked for last -/

namespace LineFetch

/-- The line is what the thread `th` asked for last: it has the numbers of the thread, it is entered
between its ends, and the thread goes on after it. -/
structure Asked (s : LineFetch) (l : Line) (th : FetchThread) : Prop where
  thread : s.thread? l.thread = some th
  carries : l.Carries th.stamp
  base_le : l.lineBase.toNat ≤ l.pc.toNat
  lt_end : l.pc.toNat < l.lineBase.toNat + s.lineBytes.toNat
  next : th.pc = l.lineBase + s.lineBytes

/-- The line in flight is what its thread asked for last. -/
def Fresh (s : LineFetch) : Prop := ∀ p, s.pending = some p → ∃ th, s.Asked p.line th

/-- What arrives brings a number that its thread does not have: a redirect another stream, and a
prediction for the stream of its thread another number in it. -/
structure Renews (s : LineFetch) (branch prediction : Redirect) : Prop where
  branch : branch.isLive = true → ∀ th, s.thread? branch.thread = some th →
    branch.newStreamSeq ≠ th.streamSeq
  prediction : prediction.isLive = true → ∀ th, s.thread? prediction.thread = some th →
    prediction.newStreamSeq = th.streamSeq → prediction.newPredictionSeq ≠ th.predictionSeq

/-- As many requests were made as there are responses and lines in flight, or more. -/
def Answered (s : LineFetch) : Prop :=
  s.port.responses + s.pending.toList.length ≤ s.port.requests

variable {s : LineFetch} {branch prediction : Redirect}

/-- A thread gets other numbers, and its line in flight is dropped. -/
theorem Fresh.renew (h : s.Fresh) {t : UInt32} {th th' : FetchThread} {keep : Line → Bool}
    (hth : s.thread? t = some th)
    (hdrop : ∀ l, l.thread = t → l.Carries th.stamp → keep l = false) :
    ((s.setThread t th').keepPending keep).Fresh := by
  intro p hp
  obtain ⟨hpending, hkeep⟩ := Option.mem_filter_iff.mp hp
  obtain ⟨th₀, hasked⟩ := h p hpending
  have hother : t ≠ p.line.thread := by
    intro heq
    obtain rfl : th = th₀ := Option.some.inj (hth.symm.trans (heq ▸ hasked.thread))
    exact absurd hkeep (by simp [hdrop p.line heq.symm hasked.carries])
  exact ⟨th₀, { hasked with thread := (thread?_setThread_of_ne hother s th').trans hasked.thread }⟩

/-- **What arrives drops the line that its thread does not want any more.** -/
theorem Fresh.redirect (h : s.Fresh) (hrenews : s.Renews branch prediction) :
    (s.redirect branch prediction).1.Fresh := by
  unfold LineFetch.redirect
  split
  · rename_i hlive
    unfold changeStream
    split
    · cases hth : s.thread? branch.thread with
      | none => exact h
      | some th =>
        refine h.renew hth fun l hl hcarries => ?_
        have hne : l.streamSeq ≠ branch.newStreamSeq := fun heq =>
          hrenews.branch hlive th hth (heq.symm.trans hcarries.1)
        simp [hl, hne]
    · exact h
  · split
    · rename_i hlive
      unfold applyPrediction
      cases hth : s.thread? prediction.thread with
      | none => exact h
      | some th =>
        simp only
        split
        · rename_i hheeded
          refine h.renew hth fun l hl hcarries => ?_
          have hne : l.predictionSeq ≠ prediction.newPredictionSeq := fun heq =>
            hrenews.prediction hlive th hth hheeded.2 (heq.symm.trans hcarries.2)
          simp [hl, hne]
        · exact h
    · exact h

theorem Fresh.deliver (h : s.Fresh) (cycle : Nat) (room : Bool) :
    (s.deliver cycle room).1.Fresh ∧
      ∀ l, (s.deliver cycle room).2 = some l → ∃ th, s.Asked l th := by
  rcases s.deliver_cases cycle room with hdeliver | ⟨p, hpending, -, hdeliver⟩
  · rw [hdeliver]
    exact ⟨h, fun l hl => nomatch hl⟩
  · rw [hdeliver]
    refine ⟨fun p hp => (nomatch hp), fun l hl => ?_⟩
    obtain rfl := Option.some.inj hl
    exact h p hpending

/-- A line that is asked for is what its thread asked for last. -/
theorem Fresh.requestNext (h : s.Fresh) (hn : s.threads.length ≤ UInt32.size)
    (hbytes : 0 < s.lineBytes.toNat) (cycle : Nat) : (s.requestNext cycle).1.Fresh := by
  unfold LineFetch.requestNext
  split
  · exact h
  split
  · exact h
  rename_i t hpick
  split
  · exact h
  rename_i th hth
  obtain ⟨ht, -⟩ := List.getElem?_eq_some_iff.mp hth
  have hword : (UInt32.ofNat t).toNat = t := by
    rw [UInt32.toNat_ofNat']
    exact Nat.mod_eq_of_lt (Nat.lt_of_lt_of_le ht hn)
  have hbase : (th.pc - th.pc % s.lineBytes).toNat =
      th.pc.toNat - th.pc.toNat % s.lineBytes.toNat := toNat_sub_mod th.pc s.lineBytes
  have hoffset : th.pc.toNat % s.lineBytes.toNat < s.lineBytes.toNat := Nat.mod_lt _ hbytes
  intro p hp
  obtain rfl := Option.some.inj hp
  refine ⟨{ th with pc := th.pc - th.pc % s.lineBytes + s.lineBytes }, ?_, ⟨rfl, rfl⟩, ?_, ?_, rfl⟩
  · show (s.threads.set t _)[(UInt32.ofNat t).toNat]? = _
    rw [hword]
    exact List.getElem?_set_self ht
  · show (th.pc - th.pc % s.lineBytes).toNat ≤ th.pc.toNat
    omega
  · show th.pc.toNat < (th.pc - th.pc % s.lineBytes).toNat + s.lineBytes.toNat
    omega

theorem Fresh.wake (h : s.Fresh) (t : UInt32) : (s.wake t).1.Fresh := by
  intro p hp
  obtain ⟨th, hasked⟩ := h p ((pending_wake s t).symm.trans hp)
  have hbytes : (s.wake t).1.lineBytes = s.lineBytes := by
    cases hth : s.thread? t with
    | none => rw [wake_of_none hth]
    | some _ => rw [wake_eq hth]; rfl
  by_cases heq : t = p.line.thread
  · have hself : (s.wake t).1.thread? t = some { th with state := .running } :=
      thread?_wake_self (heq ▸ hasked.thread)
    exact ⟨{ th with state := .running }, heq ▸ hself, hasked.carries, hasked.base_le,
      hbytes ▸ hasked.lt_end, hbytes ▸ hasked.next⟩
  · exact ⟨th, (thread?_wake_of_ne heq s).trans hasked.thread, hasked.carries, hasked.base_le,
      hbytes ▸ hasked.lt_end, hbytes ▸ hasked.next⟩

/-- **A line that is sent has the numbers of its thread**, as they are when the redirect or the
prediction of the cycle has been taken up. -/
theorem Fresh.evaluate (h : s.Fresh) (hrenews : s.Renews branch prediction)
    (hn : (s.redirect branch prediction).1.threads.length ≤ UInt32.size)
    (hbytes : 0 < (s.redirect branch prediction).1.lineBytes.toNat) (cycle : Nat) (room : Bool) :
    (s.evaluate cycle branch prediction room).stage.Fresh ∧
      ∀ l, (s.evaluate cycle branch prediction room).line = some l →
        ∃ th, (s.redirect branch prediction).1.Asked l th := by
  obtain ⟨hfresh, hsent⟩ := (h.redirect hrenews).deliver cycle room
  have hsame : ((s.redirect branch prediction).1.deliver cycle room).1.threads =
      (s.redirect branch prediction).1.threads ∧
      ((s.redirect branch prediction).1.deliver cycle room).1.lineBytes =
        (s.redirect branch prediction).1.lineBytes := by
    rcases deliver_cases _ cycle room with hdeliver | ⟨p, -, -, hdeliver⟩ <;> rw [hdeliver] <;>
      exact ⟨rfl, rfl⟩
  exact ⟨hfresh.requestNext (hsame.1 ▸ hn) (hsame.2 ▸ hbytes) cycle, hsent⟩

/-! ## Requests and responses -/

theorem Answered.keepPending (h : s.Answered) (keep : Line → Bool) :
    (s.keepPending keep).Answered := by
  have hle : (s.pending.filter fun p => keep p.line).toList.length ≤ s.pending.toList.length := by
    cases s.pending with
    | none => exact Nat.le_refl _
    | some p => exact Option.length_toList_le
  exact Nat.le_trans (Nat.add_le_add_left hle _) h

theorem Answered.redirect (h : s.Answered) (branch prediction : Redirect) :
    (s.redirect branch prediction).1.Answered := by
  obtain ⟨threads, keep, -, hredirect⟩ := s.redirect_keeps branch prediction
  have hanswered : ({ s with threads } : LineFetch).Answered := h
  rw [hredirect]
  exact hanswered.keepPending keep

theorem Answered.deliver (h : s.Answered) (cycle : Nat) (room : Bool) :
    (s.deliver cycle room).1.Answered := by
  rcases s.deliver_cases cycle room with hdeliver | ⟨p, hpending, -, hdeliver⟩
  · rw [hdeliver]
    exact h
  · rw [hdeliver]
    rw [Answered, hpending] at h
    exact h

theorem Answered.requestNext (h : s.Answered) (cycle : Nat) :
    (s.requestNext cycle).1.Answered := by
  unfold LineFetch.requestNext
  split
  · exact h
  rename_i hpending
  split
  · exact h
  split
  · exact h
  · rw [Answered, hpending] at h
    exact Nat.succ_le_succ h

/-- **There are no more responses and lines in flight than requests**, whatever is done. -/
theorem Answered.perform (h : s.Answered) (u : Use) : (s.perform u).Answered := by
  cases u with
  | cycle number branch prediction room =>
    exact ((h.redirect branch prediction).deliver number room).requestNext number
  | wake t =>
    show (s.wake t).1.Answered
    cases hth : s.thread? t with
    | none => rwa [wake_of_none hth]
    | some th =>
      rw [wake_eq hth]
      exact h

end LineFetch

end InOrder
