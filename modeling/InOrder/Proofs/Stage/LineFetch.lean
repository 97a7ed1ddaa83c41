import InOrder.Proofs.Stage.Slicer

/-!
# The line fetch as a sequence of steps

A cycle of the line fetch takes up a redirect or a prediction, sends a line that has arrived, and
asks for the next one. What arrives can concern at most two threads: that of the redirect, and that
of a prediction which is passed over because the redirect arrives with it (`overtakenBy`).

* `LineFetch.lane_evaluate`: in a cycle each lane goes through steps that its last part has from the
  line fetch.
-/

namespace InOrder

/-! ## What arrives -/

/-- The numbers of thread `t` when a redirect has arrived. -/
def Redirect.arrive (r : Redirect) (t : UInt32) (e : Expected) : Expected :=
  if Payload.isBubble r = false ∧ r.thread = t then ⟨r.newStreamSeq, r.newPredictionSeq⟩ else e

/-- The prediction that is lost to the redirect of another thread, if one is. -/
def overtakenBy (branch prediction : Redirect) : List Redirect :=
  if branch.isLive ∧ prediction.isLive ∧ branch.thread ≠ prediction.thread then [prediction] else []

theorem Redirect.not_isLive {r : Redirect} (h : Payload.isBubble r = true) : r.isLive = false := by
  have hset : r.bubble.isSet = true := h
  simp [isLive, hset]

theorem Redirect.Sent.isLive {n : Nat} {r : Redirect} (h : r.Sent n) : r.isLive = true := by
  have hset : r.bubble.isSet = false := h.live
  have hchanges := h.changes
  unfold Redirect.isLive
  cases hr : r.reason <;> simp_all [Reason.changesStream]

theorem Redirect.Predicts.isLive {n : Nat} {r : Redirect} (h : r.Predicts n) :
    r.isLive = true := by
  have hset : r.bubble.isSet = false := h.live
  simp [Redirect.isLive, hset, h.reason]

/-- A prediction is lost to its thread if the redirect is of another one. -/
theorem redirectsOf_overtakenBy {n : Nat} {branch prediction : Redirect} {t : UInt32}
    (hb : branch.Sent n) (hp : prediction.Predicts n) (hbranch : branch.thread ≠ t)
    (hprediction : prediction.thread = t) :
    redirectsOf t (overtakenBy branch prediction) = [prediction] := by
  have hne : branch.thread ≠ prediction.thread := fun heq => hbranch (heq.trans hprediction)
  rw [overtakenBy, if_pos ⟨hb.isLive, hp.isLive, hne⟩]
  exact redirectsOf_cons hprediction []

/-- A thread that the redirect is of, or that no prediction is of, loses none. -/
theorem redirectsOf_overtakenBy_eq_nil {branch prediction : Redirect} {t : UInt32}
    (h : branch.thread = t ∨ redirectsOf t (present [prediction]) = []) :
    redirectsOf t (overtakenBy branch prediction) = [] := by
  unfold overtakenBy
  split
  · rename_i hlost
    obtain ⟨-, hlive, hne⟩ := hlost
    rcases h with hbranch | hnone
    · exact redirectsOf_cons_of_ne (fun heq => hne (hbranch.trans heq.symm)) []
    · have hset : Payload.isBubble prediction = false := by
        cases hbubble : Payload.isBubble prediction with
        | false => rfl
        | true => exact absurd hlive (by simp [Redirect.not_isLive hbubble])
      rwa [present_singleton hset] at hnone
  · rfl

namespace LineFetch

/-- What holds of the stage between cycles: there are `n` threads, they fetch lines of `bytes` bytes
from the image `m`, and the line in flight is no bubble. -/
structure Sound (n : Nat) (m : Image) (bytes : UInt64) (s : LineFetch) : Prop where
  length : s.threads.length = n
  image : s.image = m
  lineBytes : s.lineBytes = bytes
  pending : ∀ p, s.pending = some p → Payload.isBubble p.line = false

variable {n : Nat} {m : Image} {bytes : UInt64} {s : LineFetch} {k : Track}

/-- The line in flight, if it is of thread `t`. -/
def pendingOf (t : UInt32) (p : Option PendingLine) : List Line :=
  linesOf t (p.toList.map (·.line))

/-- A lane of which the line fetch has the end: what `v` has of lines is older. -/
def below (s : LineFetch) (k : Track) (v : Lane) : Lane :=
  { v with
    lines := v.lines ++ pendingOf k.thread s.pending
    fetch := (s.thread? k.thread).getD v.fetch }

/-- The line in flight is cancelled only if its thread no longer asks for its like. -/
theorem keep_steps (v : Lane) (p : Option PendingLine) (keep : Line → Bool)
    (hdrop : ∀ l : Line, l.thread = k.thread → keep l = false → ¬ l.Carries v.fetch.stamp) :
    Lane.SupplySteps k { v with lines := v.lines ++ pendingOf k.thread p }
      { v with lines := v.lines ++ pendingOf k.thread (p.filter fun p => keep p.line) } := by
  cases p with
  | none => exact .refl
  | some p =>
    cases hkeep : keep p.line with
    | true =>
      have hfilter : (some p).filter (fun p => keep p.line) = some p := by simp [hkeep]
      rw [hfilter]
    | false =>
      have hfilter : (some p).filter (fun p => keep p.line) = none := by simp [hkeep]
      rw [hfilter]
      by_cases heq : p.line.thread = k.thread
      · have hlines : pendingOf k.thread (some p) = [p.line] := linesOf_cons heq []
        rw [hlines]
        have hstep := Lane.Step.forget (k := k) { v with lines := v.lines ++ [p.line] } v.lines
          p.line rfl (hdrop p.line heq hkeep)
        refine .single ⟨?_, List.prefix_rfl, List.suffix_rfl⟩
        rwa [show v.lines ++ pendingOf k.thread none = v.lines from List.append_nil _]
      · have hlines : pendingOf k.thread (some p) = pendingOf k.thread none :=
          linesOf_cons_of_ne heq []
        rw [hlines]

theorem thread?_keepPending (s : LineFetch) (keep : Line → Bool) (t : UInt32) :
    (s.keepPending keep).thread? t = s.thread? t := rfl

theorem thread?_setThread_of_ne {t t' : UInt32} (h : t' ≠ t) (s : LineFetch) (th : FetchThread) :
    (s.setThread t' th).thread? t = s.thread? t :=
  List.getElem?_set_ne fun heq => h (UInt32.toNat_inj.mp heq)

theorem thread?_setThread_self {t : UInt32} (h : t.toNat < s.threads.length) (th : FetchThread) :
    (s.setThread t th).thread? t = some th :=
  List.getElem?_set_self h

/-! ## A redirect or a prediction -/

variable {branch prediction : Redirect}

theorem redirect_of_sent (h : s.Sound n m bytes) (hb : branch.Sent n) (prediction : Redirect) :
    (s.redirect branch prediction).1 =
      (s.setThread branch.thread ⟨.after branch.reason, branch.target, branch.newStreamSeq,
        branch.newPredictionSeq⟩).keepPending
        fun l => l.thread != branch.thread || l.streamSeq == branch.newStreamSeq := by
  have hth : s.thread? branch.thread = some _ :=
    List.getElem?_eq_getElem (h.length.symm ▸ hb.thread)
  rw [redirect, if_pos hb.isLive, changeStream, if_pos hb.changes, hth]

theorem redirect_of_predicts (hb : Payload.isBubble branch = true) (hp : prediction.Predicts n) :
    (s.redirect branch prediction).1 = s.applyPrediction prediction := by
  rw [redirect, Redirect.not_isLive hb, if_neg Bool.false_ne_true, if_pos hp.isLive]

theorem redirect_of_bubbles (hb : Payload.isBubble branch = true)
    (hp : Payload.isBubble prediction = true) : (s.redirect branch prediction).1 = s := by
  rw [redirect, Redirect.not_isLive hb, Redirect.not_isLive hp, if_neg Bool.false_ne_true,
    if_neg Bool.false_ne_true]

/-- The lane of a thread before the line fetch takes up what arrives. -/
def before (s : LineFetch) (k : Track) (branch prediction : Redirect) (v : Lane) : Lane :=
  { s.below k v with
    redirects := redirectsOf k.thread (present [branch]) ++ v.redirects
    predictions := redirectsOf k.thread (present [prediction]) ++ v.predictions }

/-- The lane of a thread after the line fetch has taken up what arrives. -/
def after (s : LineFetch) (k : Track) (branch prediction : Redirect) (v : Lane) : Lane :=
  { (s.redirect branch prediction).1.below k v with
    expected := branch.arrive k.thread v.expected
    overtaken := v.overtaken ++
      (redirectsOf k.thread (overtakenBy branch prediction)).map (·.newStreamSeq) }

/-- A redirect of the thread arrives. -/
theorem lane_follow (h : s.Sound n m bytes) (hb : branch.Sent n)
    (hthread : branch.thread = k.thread) (v : Lane) :
    Lane.SupplySteps k (s.before k branch prediction v) (s.after k branch prediction v) := by
  have hredirects : redirectsOf k.thread (present [branch]) ++ v.redirects =
      branch :: v.redirects := by
    rw [present_singleton hb.live, redirectsOf_cons hthread]
    rfl
  have hovertaken : redirectsOf k.thread (overtakenBy branch prediction) = [] :=
    redirectsOf_overtakenBy_eq_nil (.inl hthread)
  have hpredictions : v.predictions = redirectsOf k.thread (present [prediction]) ++ v.predictions ∨
      v.predictions = (redirectsOf k.thread (present [prediction]) ++ v.predictions).tail := by
    cases hp : Payload.isBubble prediction with
    | true => exact .inl (by rw [present_bubble hp]; rfl)
    | false =>
      rw [present_singleton hp]
      by_cases heq : prediction.thread = k.thread
      · exact .inr (by rw [redirectsOf_cons heq]; rfl)
      · exact .inl (by rw [redirectsOf_cons_of_ne heq]; rfl)
  have hfollow := Lane.Step.follow (k := k) (s.before k branch prediction v) branch v.redirects
    v.predictions hredirects hpredictions
  have hkeep := keep_steps (k := k)
    { v with
      expected := ⟨branch.newStreamSeq, branch.newPredictionSeq⟩
      fetch := ⟨.after branch.reason, branch.target, branch.newStreamSeq, branch.newPredictionSeq⟩ }
    s.pending (fun l => l.thread != branch.thread || l.streamSeq == branch.newStreamSeq)
    fun l hl hdrop hcarries => by simp [hcarries.1, FetchThread.stamp] at hdrop
  have htaken : v.redirects <:+ (s.before k branch prediction v).redirects :=
    List.suffix_append _ _
  refine .head ⟨hfollow, List.prefix_rfl, htaken⟩ (hkeep.trans ?_)
  have hself : branch.thread.toNat < s.threads.length := by rw [h.length]; exact hb.thread
  have hafter : s.after k branch prediction v = { v with
      expected := ⟨branch.newStreamSeq, branch.newPredictionSeq⟩
      fetch := ⟨.after branch.reason, branch.target, branch.newStreamSeq, branch.newPredictionSeq⟩
      lines := v.lines ++ pendingOf k.thread (s.pending.filter fun p =>
        p.line.thread != branch.thread || p.line.streamSeq == branch.newStreamSeq) } := by
    rw [after, redirect_of_sent h hb, hovertaken, Redirect.arrive, if_pos ⟨hb.live, hthread⟩, below,
      ← hthread, thread?_keepPending, thread?_setThread_self hself, List.map_nil, List.append_nil]
    rfl
  rw [hafter]

/-- A redirect of another thread arrives. -/
theorem lane_pass (h : s.Sound n m bytes) (hb : branch.Sent n) (hthread : branch.thread ≠ k.thread)
    (hp : Payload.isBubble prediction = false → prediction.Predicts n) (v : Lane) :
    Lane.SupplySteps k (s.before k branch prediction v) (s.after k branch prediction v) := by
  have hredirects : redirectsOf k.thread (present [branch]) = [] := by
    rw [present_singleton hb.live, redirectsOf_cons_of_ne hthread]
    rfl
  have hkeep := keep_steps (k := k)
    { v with
      overtaken := v.overtaken ++
        (redirectsOf k.thread (overtakenBy branch prediction)).map (·.newStreamSeq)
      fetch := (s.thread? k.thread).getD v.fetch }
    s.pending (fun l => l.thread != branch.thread || l.streamSeq == branch.newStreamSeq)
    fun l hl hdrop => by simp [hl, Ne.symm hthread] at hdrop
  have hafter : s.after k branch prediction v = { v with
      overtaken := v.overtaken ++
        (redirectsOf k.thread (overtakenBy branch prediction)).map (·.newStreamSeq)
      fetch := (s.thread? k.thread).getD v.fetch
      lines := v.lines ++ pendingOf k.thread (s.pending.filter fun p =>
        p.line.thread != branch.thread || p.line.streamSeq == branch.newStreamSeq) } := by
    rw [after, redirect_of_sent h hb, Redirect.arrive, if_neg fun hc => hthread hc.2, below,
      thread?_keepPending, thread?_setThread_of_ne hthread]
    rfl
  rw [hafter]
  refine .trans ?_ hkeep
  by_cases hlost : Payload.isBubble prediction = false ∧ prediction.thread = k.thread
  · obtain ⟨hlive, heq⟩ := hlost
    have hpredictions : redirectsOf k.thread (present [prediction]) ++ v.predictions =
        prediction :: v.predictions := by
      rw [present_singleton hlive, redirectsOf_cons heq]
      rfl
    have hstep := Lane.Step.overtake (k := k) (s.before k branch prediction v) prediction
      v.predictions hpredictions
    rw [redirectsOf_overtakenBy hb (hp hlive) hthread heq]
    rw [before, hredirects] at hstep ⊢
    exact .single ⟨hstep, List.prefix_rfl, List.suffix_rfl⟩
  · have hnone : redirectsOf k.thread (present [prediction]) = [] := by
      cases hlive : Payload.isBubble prediction with
      | true => rw [present_bubble hlive]; rfl
      | false =>
        rw [present_singleton hlive]
        exact redirectsOf_cons_of_ne (fun heq => hlost ⟨hlive, heq⟩) []
    rw [before, hredirects, hnone, redirectsOf_overtakenBy_eq_nil (.inr hnone), List.map_nil,
      List.append_nil]
    exact .refl

/-- A prediction of the thread arrives. -/
theorem lane_heed (h : s.Sound n m bytes) (hp : prediction.Predicts n)
    (hthread : prediction.thread = k.thread) (v : Lane) :
    Lane.SupplySteps k
      { s.below k v with predictions := redirectsOf k.thread [prediction] ++ v.predictions }
      ((s.applyPrediction prediction).below k v) := by
  have hself : prediction.thread.toNat < s.threads.length := by rw [h.length]; exact hp.thread
  obtain ⟨th, hth⟩ : ∃ th, s.thread? prediction.thread = some th :=
    ⟨_, List.getElem?_eq_getElem hself⟩
  have hfetch : (s.below k v).fetch = th := by rw [below, ← hthread, hth]; rfl
  have hpredictions : redirectsOf k.thread [prediction] ++ v.predictions =
      prediction :: v.predictions := by rw [redirectsOf_cons hthread]; rfl
  rw [hpredictions, applyPrediction, hth]
  by_cases hheeded : th.state = .running ∧ prediction.newStreamSeq = th.streamSeq
  · have hstep := Lane.Step.heed (k := k) { s.below k v with
      predictions := prediction :: v.predictions } prediction v.predictions rfl
      (hfetch ▸ hheeded.1) (hfetch ▸ hheeded.2)
    have hkeep := keep_steps (k := k)
      { v with fetch := { th with
          predictionSeq := prediction.newPredictionSeq, pc := prediction.target } }
      s.pending (fun l =>
        l.thread != prediction.thread || l.predictionSeq == prediction.newPredictionSeq)
      fun l hl hdrop hcarries => by simp [hcarries.2, FetchThread.stamp] at hdrop
    have hfetched : ∀ th' keep, ((s.setThread prediction.thread th').keepPending keep).below k v =
        { v with
          fetch := th'
          lines := v.lines ++ pendingOf k.thread (s.pending.filter fun p => keep p.line) } := by
      intro th' keep
      rw [below, ← hthread, thread?_keepPending, thread?_setThread_self hself]
      rfl
    simp only [if_pos hheeded]
    rw [hfetch] at hstep
    rw [hfetched]
    exact .head ⟨hstep, List.prefix_rfl, List.suffix_rfl⟩ hkeep
  · simp only [if_neg hheeded]
    exact .single ⟨.ignore _ prediction v.predictions rfl (hfetch ▸ hheeded), List.prefix_rfl,
      List.suffix_rfl⟩

/-- A prediction of another thread arrives. -/
theorem lane_unheeded (hthread : prediction.thread ≠ k.thread) (v : Lane) :
    Lane.SupplySteps k
      { s.below k v with predictions := redirectsOf k.thread [prediction] ++ v.predictions }
      ((s.applyPrediction prediction).below k v) := by
  have hpredictions : redirectsOf k.thread [prediction] ++ v.predictions = v.predictions := by
    rw [redirectsOf_cons_of_ne hthread]
    rfl
  rw [hpredictions, applyPrediction]
  cases hth : s.thread? prediction.thread with
  | none => exact .refl
  | some th =>
    by_cases hheeded : th.state = .running ∧ prediction.newStreamSeq = th.streamSeq
    · simp only [if_pos hheeded]
      have hkeep := keep_steps (k := k)
        { v with fetch := (s.thread? k.thread).getD v.fetch } s.pending
        (fun l => l.thread != prediction.thread || l.predictionSeq == prediction.newPredictionSeq)
        fun l hl hdrop => by simp [hl, Ne.symm hthread] at hdrop
      rw [below, below, thread?_keepPending, thread?_setThread_of_ne hthread]
      exact hkeep
    · simp only [if_neg hheeded]
      exact .refl

/-- No redirect arrives. -/
theorem lane_predict (h : s.Sound n m bytes)
    (hb : Payload.isBubble branch = true)
    (hp : Payload.isBubble prediction = false → prediction.Predicts n) (v : Lane) :
    Lane.SupplySteps k (s.before k branch prediction v) (s.after k branch prediction v) := by
  have hredirects : redirectsOf k.thread (present [branch]) = [] := by rw [present_bubble hb]; rfl
  have hovertaken : overtakenBy branch prediction = [] := by
    rw [overtakenBy, if_neg fun hc => absurd hc.1 (by simp [Redirect.not_isLive hb])]
  have harrive : branch.arrive k.thread v.expected = v.expected := by
    rw [Redirect.arrive, if_neg fun hc => absurd hc.1 (by simp [hb])]
  rw [before, after, hredirects, hovertaken, harrive]
  simp only [redirectsOf_nil, List.map_nil, List.append_nil, List.nil_append]
  cases hlive : Payload.isBubble prediction with
  | true =>
    rw [redirect_of_bubbles hb hlive, present_bubble hlive]
    exact .refl
  | false =>
    rw [redirect_of_predicts hb (hp hlive), present_singleton hlive]
    by_cases hthread : prediction.thread = k.thread
    · exact lane_heed h (hp hlive) hthread v
    · exact lane_unheeded hthread v

/-- **What arrives is taken up by steps of every lane.** -/
theorem lane_redirect (h : s.Sound n m bytes) (hb : Payload.isBubble branch = false → branch.Sent n)
    (hp : Payload.isBubble prediction = false → prediction.Predicts n) (v : Lane) :
    Lane.SupplySteps k (s.before k branch prediction v) (s.after k branch prediction v) := by
  cases hlive : Payload.isBubble branch with
  | true => exact lane_predict h hlive hp v
  | false =>
    by_cases hthread : branch.thread = k.thread
    · exact lane_follow h (hb hlive) hthread v
    · exact lane_pass h (hb hlive) hthread hp v

theorem Sound.keepPending (h : s.Sound n m bytes) (keep : Line → Bool) :
    (s.keepPending keep).Sound n m bytes :=
  { h with pending := fun p hp => h.pending p (Option.mem_filter_iff.mp hp).1 }

theorem Sound.setThread (h : s.Sound n m bytes) (t : UInt32) (th : FetchThread) :
    (s.setThread t th).Sound n m bytes :=
  { h with length := List.length_set.trans h.length }

theorem keepPending_true (s : LineFetch) : s.keepPending (fun _ => true) = s := by
  have hpending : s.pending.filter (fun _ => true) = s.pending := by
    cases s.pending <;> rfl
  rw [keepPending, hpending]

/-- What arrives changes threads and can drop the line in flight, and that is all. -/
theorem redirect_keeps (s : LineFetch) (branch prediction : Redirect) :
    ∃ threads keep, threads.length = s.threads.length ∧
      (s.redirect branch prediction).1 = ({ s with threads } : LineFetch).keepPending keep := by
  have hsame : ∃ threads keep, threads.length = s.threads.length ∧
      s = ({ s with threads } : LineFetch).keepPending keep :=
    ⟨s.threads, _, rfl, s.keepPending_true.symm⟩
  have hset : ∀ t th keep, ∃ threads keep', threads.length = s.threads.length ∧
      (s.setThread t th).keepPending keep = ({ s with threads } : LineFetch).keepPending keep' :=
    fun t th keep => ⟨s.threads.set t.toNat th, keep, List.length_set, rfl⟩
  unfold redirect
  split
  · unfold changeStream
    split
    · split
      · exact hsame
      · dsimp only
        exact hset _ _ _
    · exact hsame
  · split
    · unfold applyPrediction
      split
      · exact hsame
      · dsimp only
        split
        · exact hset _ _ _
        · exact hsame
    · exact hsame

theorem Sound.redirect (h : s.Sound n m bytes) (branch prediction : Redirect) :
    (s.redirect branch prediction).1.Sound n m bytes := by
  obtain ⟨threads, keep, hlength, hredirect⟩ := s.redirect_keeps branch prediction
  have hsound : ({ s with threads } : LineFetch).Sound n m bytes :=
    { h with length := hlength.trans h.length }
  rw [hredirect]
  exact hsound.keepPending keep

/-! ## Lines -/

/-- The line in flight is sent, if it is due and there is room for it, or nothing happens. -/
theorem deliver_cases (s : LineFetch) (cycle : Nat) (room : Bool) :
    s.deliver cycle room = (s, none) ∨
      ∃ p, s.pending = some p ∧ (p.readyAt ≤ cycle ∧ room = true) ∧
        s.deliver cycle room =
          ({ s with pending := none, port := s.port.respond }, some p.line) := by
  cases hpending : s.pending with
  | none => exact .inl (by rw [deliver, hpending])
  | some p =>
    by_cases hready : p.readyAt ≤ cycle ∧ room = true
    · exact .inr ⟨p, rfl, hready, by simp only [deliver, hpending, if_pos hready]⟩
    · exact .inl (by simp only [deliver, hpending, if_neg hready])

theorem threads_deliver (s : LineFetch) (cycle : Nat) (room : Bool) :
    (s.deliver cycle room).1.threads = s.threads := by
  rcases s.deliver_cases cycle room with hdeliver | ⟨p, -, -, hdeliver⟩ <;> rw [hdeliver]

theorem thread?_deliver (s : LineFetch) (t : UInt32) (cycle : Nat) (room : Bool) :
    (s.deliver cycle room).1.thread? t = s.thread? t :=
  congrArg (·[t.toNat]?) (s.threads_deliver cycle room)

/-- A line that is sent was in flight. -/
theorem pendingOf_deliver (s : LineFetch) (t : UInt32) (cycle : Nat) (room : Bool) :
    pendingOf t s.pending =
      linesOf t (s.deliver cycle room).2.toList ++
        pendingOf t (s.deliver cycle room).1.pending := by
  rcases s.deliver_cases cycle room with hdeliver | ⟨p, hpending, -, hdeliver⟩
  · rw [hdeliver]
    rfl
  · rw [hdeliver, hpending]
    exact (List.append_nil _).symm

/-- What is in flight is not sent as a bubble. -/
theorem Sound.deliver (h : s.Sound n m bytes) (cycle : Nat) (room : Bool) :
    (s.deliver cycle room).1.Sound n m bytes ∧
      present (s.deliver cycle room).2.toList = (s.deliver cycle room).2.toList := by
  rcases s.deliver_cases cycle room with hdeliver | ⟨p, hpending, -, hdeliver⟩
  · rw [hdeliver]
    exact ⟨h, rfl⟩
  · rw [hdeliver]
    exact ⟨{ h with pending := fun p hp => nomatch hp }, present_singleton (h.pending p hpending)⟩

theorem isRunning_iff {t : Nat} :
    s.isRunning t = true ↔ ∃ th, s.threads[t]? = some th ∧ th.state = .running := by
  unfold isRunning
  cases s.threads[t]? with
  | none => simp
  | some th => simp

/-- A thread that is picked runs. -/
theorem running_of_pick {t : Nat} {th : FetchThread} (hpick : s.pick = some t)
    (hth : s.threads[t]? = some th) : th.state = .running := by
  obtain ⟨th', hth', hrun⟩ := isRunning_iff.mp (List.find?_some hpick)
  obtain rfl := Option.some.inj (hth.symm.trans hth')
  exact hrun

/-- **The next line is asked for by a step of the lane of its thread.** -/
theorem lane_request (h : s.Sound n k.image k.lineBytes) (hn : n ≤ UInt32.size) (cycle : Nat)
    (v : Lane) :
    Lane.SupplySteps k (s.below k v) ((s.requestNext cycle).1.below k v) := by
  unfold requestNext
  split
  · exact .refl
  rename_i hpending
  split
  · exact .refl
  rename_i t hpick
  split
  · exact .refl
  rename_i th hth
  obtain ⟨ht, -⟩ := List.getElem?_eq_some_iff.mp hth
  have hword : (UInt32.ofNat t).toNat = t := by
    rw [UInt32.toNat_ofNat']
    exact Nat.mod_eq_of_lt (Nat.lt_of_lt_of_le ht (h.length ▸ hn))
  by_cases heq : UInt32.ofNat t = k.thread
  · have htoNat : k.thread.toNat = t := by rw [← heq, hword]
    have hfetch : (s.below k v).fetch = th := by rw [below, thread?, htoNat, hth]; rfl
    have hstep := Lane.Step.request (k := k) (s.below k v)
      (hfetch ▸ running_of_pick hpick hth)
    rw [hfetch] at hstep
    have hlines : (s.below k v).lines = v.lines := by
      rw [below, hpending]
      exact List.append_nil _
    have hafter : (s.request t th cycle).below k v = { v with
        lines := v.lines ++ [th.line k]
        fetch := { th with pc := th.lineBase k + k.lineBytes } } := by
      have hline : (s.request t th cycle).pending = some ⟨cycle + s.latency, th.line k⟩ := by
        rw [request, FetchThread.line, FetchThread.lineBase, heq, h.image, h.lineBytes]
      have hthread : (s.request t th cycle).thread? k.thread =
          some { th with pc := th.lineBase k + k.lineBytes } := by
        rw [thread?, htoNat, FetchThread.lineBase, ← h.lineBytes]
        exact List.getElem?_set_self ht
      have hown : pendingOf k.thread (some ⟨cycle + s.latency, th.line k⟩) = [th.line k] :=
        linesOf_cons rfl []
      rw [below, hline, hthread, hown]
      rfl
    rw [hafter]
    rw [hlines] at hstep
    exact .single ⟨hstep, List.prefix_rfl, List.suffix_rfl⟩
  · have hafter : (s.request t th cycle).below k v = s.below k v := by
      have hthread : (s.request t th cycle).thread? k.thread = s.thread? k.thread :=
        List.getElem?_set_ne fun hc => heq (by rw [hc, UInt32.ofNat_toNat])
      have hother : pendingOf k.thread (s.request t th cycle).pending = pendingOf k.thread none :=
        linesOf_cons_of_ne heq []
      rw [below, below, hthread, hother, hpending]
    rw [hafter]

theorem Sound.requestNext (h : s.Sound n m bytes) (cycle : Nat) :
    (s.requestNext cycle).1.Sound n m bytes := by
  unfold LineFetch.requestNext
  split
  · exact h
  · split
    · exact h
    · split
      · exact h
      · refine { h with length := List.length_set.trans h.length, pending := fun p hp => ?_ }
        rw [← Option.some.inj hp]
        exact Flag.isSet_clear

/-! ## The stage -/

theorem stage_evaluate (s : LineFetch) (cycle : Nat) (branch prediction : Redirect) (room : Bool) :
    (s.evaluate cycle branch prediction room).stage =
      ((((s.redirect branch prediction).1.deliver cycle room).1).requestNext cycle).1 := rfl

theorem line_evaluate (s : LineFetch) (cycle : Nat) (branch prediction : Redirect) (room : Bool) :
    (s.evaluate cycle branch prediction room).line =
      ((s.redirect branch prediction).1.deliver cycle room).2 := rfl

theorem Sound.evaluate (h : s.Sound n m bytes) (cycle : Nat) (branch prediction : Redirect)
    (room : Bool) :
    (s.evaluate cycle branch prediction room).stage.Sound n m bytes ∧
      present (s.evaluate cycle branch prediction room).line.toList =
        (s.evaluate cycle branch prediction room).line.toList := by
  obtain ⟨hdeliver, hline⟩ := (h.redirect branch prediction).deliver cycle room
  exact ⟨hdeliver.requestNext cycle, hline⟩

/-- **In a cycle each lane goes through steps that its last part has from the line fetch.** -/
theorem lane_evaluate (h : s.Sound n k.image k.lineBytes) (hn : n ≤ UInt32.size)
    (hb : Payload.isBubble branch = false → branch.Sent n)
    (hp : Payload.isBubble prediction = false → prediction.Predicts n) (cycle : Nat) (room : Bool)
    (v : Lane) :
    Lane.SupplySteps k (s.before k branch prediction v)
      ((s.evaluate cycle branch prediction room).stage.below k { v with
        expected := branch.arrive k.thread v.expected
        lines := v.lines ++
          linesOf k.thread (s.evaluate cycle branch prediction room).line.toList
        overtaken := v.overtaken ++
          (redirectsOf k.thread (overtakenBy branch prediction)).map (·.newStreamSeq) }) := by
  refine (lane_redirect h hb hp v).trans ?_
  have hrequest := lane_request ((h.redirect branch prediction).deliver cycle room).1 hn cycle
    { v with
      expected := branch.arrive k.thread v.expected
      lines := v.lines ++
        linesOf k.thread (s.evaluate cycle branch prediction room).line.toList
      overtaken := v.overtaken ++
        (redirectsOf k.thread (overtakenBy branch prediction)).map (·.newStreamSeq) }
  have hdeliver : s.after k branch prediction v =
      ((s.redirect branch prediction).1.deliver cycle room).1.below k { v with
        expected := branch.arrive k.thread v.expected
        lines := v.lines ++
          linesOf k.thread (s.evaluate cycle branch prediction room).line.toList
        overtaken := v.overtaken ++
          (redirectsOf k.thread (overtakenBy branch prediction)).map (·.newStreamSeq) } := by
    rw [after, below, below, line_evaluate, List.append_assoc, ← pendingOf_deliver,
      thread?_deliver]
  rw [hdeliver]
  exact hrequest

/-! ## Waking -/

/-- A thread that is woken runs. -/
theorem wake_eq {t : UInt32} {th : FetchThread} (hth : s.thread? t = some th) :
    (s.wake t).1 = s.setThread t { th with state := .running } := by
  rw [wake, hth]
  by_cases hruns : th.state = .running
  · simp only [if_pos hruns]
    have hsame : s.threads.set t.toNat { th with state := .running } = s.threads := by
      obtain ⟨ht, hget⟩ := List.getElem?_eq_some_iff.mp hth
      rw [← hruns, ← hget]
      exact List.set_getElem_self ht
    rw [setThread, hsame]
  · simp only [if_neg hruns]

/-- There is nothing to wake of a thread that there is not. -/
theorem wake_of_none {t : UInt32} (hth : s.thread? t = none) : (s.wake t).1 = s := by
  rw [wake, hth]

theorem Sound.wake (h : s.Sound n m bytes) (t : UInt32) : (s.wake t).1.Sound n m bytes := by
  cases hth : s.thread? t with
  | none => rwa [wake_of_none hth]
  | some th =>
    rw [wake_eq hth]
    exact h.setThread t _

theorem pending_wake (s : LineFetch) (t : UInt32) : (s.wake t).1.pending = s.pending := by
  cases hth : s.thread? t with
  | none => rw [wake_of_none hth]
  | some th => rw [wake_eq hth]; rfl

theorem thread?_wake_self {t : UInt32} {th : FetchThread} (hth : s.thread? t = some th) :
    (s.wake t).1.thread? t = some { th with state := .running } := by
  rw [wake_eq hth, thread?_setThread_self (List.getElem?_eq_some_iff.mp hth).1]

theorem thread?_wake_of_ne {t t' : UInt32} (hne : t' ≠ t) (s : LineFetch) :
    (s.wake t').1.thread? t = s.thread? t := by
  cases hth : s.thread? t' with
  | none => rw [wake_of_none hth]
  | some th => rw [wake_eq hth, thread?_setThread_of_ne hne]

end LineFetch

end InOrder
