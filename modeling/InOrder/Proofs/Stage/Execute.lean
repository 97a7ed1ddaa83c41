import InOrder.Proofs.Contents
import InOrder.Proofs.Lane.Basic
import InOrder.Proofs.Ordinal

/-!
# Execute as a sequence of steps

A cycle of execute is a sequence of `Issuing.Step`s: the oldest waiting micro-op is squashed or
issued, or a halt is sent, and at most one redirect comes of it (`Execute.evaluate_steps`).
Nothing else of the stage shows in what it does to threads, so the queue, the index into its oldest
bundle and the limits of a cycle are gone from here on.

* `Issuing.Sound` is what every step keeps of threads, units and redirects.
* `Issuing.lane_steps`: for each thread, the steps are steps of its lane.
-/

namespace InOrder

/-! ## Steps of issue -/

/-- What issue works on in a cycle. -/
structure Issuing where
  /-- The micro-ops that wait for issue, each with its thread. -/
  waiting : List (UInt32 × MicroOp)
  threads : List ExecThread
  units : List InFlight
  /-- The redirect that was raised, if one was. -/
  redirect : Option Redirect

namespace Issuing

/-- What issue can do next; what is issued retires at `doneAt`. -/
inductive Step (doneAt : Nat) : Issuing → Issuing → Prop
  | squash (i : Issuing) (t : UInt32) (o : MicroOp) (rest : List (UInt32 × MicroOp))
      (hwaiting : i.waiting = (t, o) :: rest)
      (hold : ∀ th, i.threads[t.toNat]? = some th → o.streamSeq ≠ th.streamSeq) :
      Step doneAt i { i with waiting := rest }
  | issue (i : Issuing) (t : UInt32) (o : MicroOp) (rest : List (UInt32 × MicroOp))
      (th th' : ExecThread) (hwaiting : i.waiting = (t, o) :: rest)
      (hth : i.threads[t.toNat]? = some th) (hcur : o.streamSeq = th.streamSeq)
      (hissue : th.issue t o = (th', none)) :
      Step doneAt i { i with
        waiting := rest, threads := i.threads.set t.toNat th'
        units := i.units ++ [⟨t, o, doneAt⟩] }
  | raise (i : Issuing) (t : UInt32) (o : MicroOp) (rest : List (UInt32 × MicroOp))
      (th th' : ExecThread) (r : Redirect) (hwaiting : i.waiting = (t, o) :: rest)
      (hth : i.threads[t.toNat]? = some th) (hcur : o.streamSeq = th.streamSeq)
      (hissue : th.issue t o = (th', some r)) (hnone : i.redirect = none) :
      Step doneAt i
        { waiting := rest, threads := i.threads.set t.toNat th'
          units := i.units ++ [⟨t, o, doneAt⟩]
          redirect := some r }
  | halt (i : Issuing) (t : UInt32) (th : ExecThread) (hth : i.threads[t.toNat]? = some th)
      (hpending : th.haltPending = true) (hnone : i.redirect = none) :
      Step doneAt i { i with
        threads := i.threads.set t.toNat (th.halt t).1, redirect := some (th.halt t).2 }

/-- What any number of steps leads to. -/
abbrev Steps (doneAt : Nat) : Issuing → Issuing → Prop := Relation.ReflTransGen (Step doneAt)

theorem Step.length {doneAt : Nat} {i j : Issuing} (h : Step doneAt i j) :
    j.threads.length = i.threads.length := by
  cases h with
  | squash => rfl
  | issue | raise | halt => exact List.length_set

theorem Steps.length {doneAt : Nat} {i j : Issuing} (h : Steps doneAt i j) :
    j.threads.length = i.threads.length := by
  induction h with
  | refl => rfl
  | tail _ hlast ih => rw [hlast.length, ih]

end Issuing

/-- The redirect that ends a bundle. -/
def IssueEnd.redirect? : IssueEnd → Option Redirect
  | spent | blocked => none
  | raised r => some r

/-- The micro-ops of a queue of which the oldest bundle is taken up to an index. -/
def waitingOps (index : Nat) : List Bundle → List (UInt32 × MicroOp)
  | [] => []
  | b :: rest => (b.insts.drop index).map (fun o => (b.thread, o)) ++ rest.flatMap Bundle.tagged

theorem waitingOps_zero (bs : List Bundle) : waitingOps 0 bs = bs.flatMap Bundle.tagged := by
  cases bs with
  | nil => rfl
  | cons b rest => rw [waitingOps, List.drop_zero, List.flatMap_cons, Bundle.tagged]

theorem waitingOps_append {index : Nat} {bs : List Bundle} (h : bs = [] → index = 0)
    (cs : List Bundle) :
    waitingOps index (bs ++ cs) = waitingOps index bs ++ cs.flatMap Bundle.tagged := by
  cases bs with
  | nil => rw [h rfl, List.nil_append, waitingOps_zero, waitingOps, List.nil_append]
  | cons b rest =>
    rw [List.cons_append, waitingOps, waitingOps, List.flatMap_append, List.append_assoc]

/-- What issue from a bundle of `os` came to: it took some number of them, and all of them if the
bundle is spent. -/
def Took (doneAt : Nat) (t : UInt32) (more : List (UInt32 × MicroOp)) (os : List MicroOp)
    (s : Issue) (r : Issue × IssueEnd) : Prop :=
  ∃ n, r.1.index = s.index + n ∧ (r.2 = .spent → os.drop n = []) ∧
    Issuing.Steps doneAt ⟨os.map (fun o => (t, o)) ++ more, s.threads, s.units, none⟩
      ⟨(os.drop n).map (fun o => (t, o)) ++ more, r.1.threads, r.1.units, r.2.redirect?⟩

/-- One micro-op is taken, and the others after it. -/
theorem Took.cons {doneAt : Nat} {t : UInt32} {more : List (UInt32 × MicroOp)} {o : MicroOp}
    {rest : List MicroOp} {s s' : Issue} {r : Issue × IssueEnd} (h : Took doneAt t more rest s' r)
    (hindex : s'.index = s.index + 1)
    (hstep : Issuing.Step doneAt
      ⟨(t, o) :: (rest.map (fun o => (t, o)) ++ more), s.threads, s.units, none⟩
      ⟨rest.map (fun o => (t, o)) ++ more, s'.threads, s'.units, none⟩) :
    Took doneAt t more (o :: rest) s r := by
  obtain ⟨n, hn, hspent, hsteps⟩ := h
  exact ⟨n + 1, by rw [hn, hindex]; omega, hspent, .head hstep hsteps⟩

theorem issueOps_took (lim : IssueLimits) (t : UInt32) (more : List (UInt32 × MicroOp)) :
    ∀ (os : List MicroOp) (s : Issue), Took lim.doneAt t more os s (issueOps lim t os s)
  | [], s => ⟨0, rfl, fun _ => rfl, .refl⟩
  | o :: rest, s => by
    have ih := issueOps_took lim t more rest
    rw [issueOps]
    cases hth : s.threads[t.toNat]? with
    | none =>
      simp only
      refine (ih s.squash).cons rfl (.squash _ t o _ rfl fun th h => ?_)
      exact absurd (hth.symm.trans h) (by simp)
    | some th =>
      by_cases hold : o.streamSeq ≠ th.streamSeq
      · simp only [if_pos hold]
        refine (ih s.squash).cons rfl (.squash _ t o _ rfl fun th' h => ?_)
        rwa [← Option.some.inj (hth.symm.trans h)]
      · by_cases hblocked : lim.draining = true ∨ lim.units ≤ s.units.length
        · simp only [if_neg hold, if_pos hblocked]
          exact ⟨0, rfl, fun h => absurd h IssueEnd.noConfusion, .refl⟩
        · obtain ⟨th', r, hissue⟩ : ∃ th' r, th.issue t o = (th', r) := ⟨_, _, rfl⟩
          simp only [if_neg hold, if_neg hblocked, hissue]
          cases r with
          | none =>
            exact (ih (s.start lim.doneAt t th' o)).cons rfl
              (.issue _ t o _ th th' rfl hth (Decidable.not_not.mp hold) hissue)
          | some r =>
            exact ⟨1, rfl, fun h => absurd h IssueEnd.noConfusion,
              .single (.raise _ t o _ th th' r rfl hth (Decidable.not_not.mp hold) hissue rfl)⟩

/-- Issue goes on where it left the oldest bundle. -/
theorem issueQueue_steps (lim : IssueLimits) : ∀ (bs : List Bundle) (s : Issue),
    Issuing.Steps lim.doneAt ⟨waitingOps s.index bs, s.threads, s.units, none⟩
      ⟨waitingOps (issueQueue lim bs s).2.1.index (issueQueue lim bs s).1,
        (issueQueue lim bs s).2.1.threads, (issueQueue lim bs s).2.1.units,
        (issueQueue lim bs s).2.2⟩
  | [], s => .refl
  | b :: rest, s => by
    have htook := issueOps_took lim b.thread (rest.flatMap Bundle.tagged) (b.insts.drop s.index) s
    obtain ⟨s', e, he⟩ : ∃ s' e, issueOps lim b.thread (b.insts.drop s.index) s = (s', e) :=
      ⟨_, _, rfl⟩
    rw [he] at htook
    obtain ⟨n, hn, hspent, hsteps⟩ := htook
    have hwaiting : ((b.insts.drop s.index).drop n).map (fun o => (b.thread, o)) ++
        rest.flatMap Bundle.tagged = waitingOps s'.index (b :: rest) := by
      rw [List.drop_drop, ← hn, waitingOps]
    rw [issueQueue, he]
    cases e with
    | spent =>
      refine hsteps.trans ?_
      rw [hspent rfl, List.map_nil, List.nil_append, ← waitingOps_zero]
      exact issueQueue_steps lim rest { s' with index := 0 }
    | blocked => exact hwaiting ▸ hsteps
    | raised r => exact hwaiting ▸ hsteps

/-- The index is that of a bundle that is queued. -/
theorem issueQueue_index (lim : IssueLimits) : ∀ (bs : List Bundle) (s : Issue),
    (bs = [] → s.index = 0) → (issueQueue lim bs s).1 = [] → (issueQueue lim bs s).2.1.index = 0
  | [], s, h, _ => h rfl
  | b :: rest, s, _, hnil => by
    obtain ⟨s', e, he⟩ : ∃ s' e, issueOps lim b.thread (b.insts.drop s.index) s = (s', e) :=
      ⟨_, _, rfl⟩
    rw [issueQueue, he] at hnil ⊢
    cases e with
    | spent => exact issueQueue_index lim rest { s' with index := 0 } (fun _ => rfl) hnil
    | blocked => exact absurd hnil (by simp)
    | raised r => exact absurd hnil (by simp)

/-! ## The stage -/

namespace Execute

/-- The micro-ops that wait for issue. -/
def waiting (s : Execute) : List (UInt32 × MicroOp) := waitingOps s.issueIndex s.input.entries

/-- What issue works on when it has raised `r`. -/
def issuing (s : Execute) (r : Option Redirect) : Issuing := ⟨s.waiting, s.threads, s.units, r⟩

/-- No bundle is taken in part unless one is queued. -/
def Indexed (s : Execute) : Prop := s.input.entries = [] → s.issueIndex = 0

theorem issue_steps (s : Execute) (cycle : Nat) :
    Issuing.Steps (cycle + s.latency) (s.issuing none)
      ((s.issue cycle).1.issuing (s.issue cycle).2.1) :=
  issueQueue_steps ⟨s.draining, s.unitCount, cycle + s.latency⟩ s.input.entries
    ⟨s.threads, s.units, s.squashed, s.issueIndex, []⟩

theorem indexed_issue {s : Execute} (h : s.Indexed) (cycle : Nat) : (s.issue cycle).1.Indexed :=
  issueQueue_index ⟨s.draining, s.unitCount, cycle + s.latency⟩ s.input.entries
    ⟨s.threads, s.units, s.squashed, s.issueIndex, []⟩ h

theorem haltNext_steps {s : Execute} (hn : s.threads.length ≤ UInt32.size) (doneAt : Nat) :
    Issuing.Steps doneAt (s.issuing none) (s.haltNext.1.issuing s.haltNext.2) := by
  unfold haltNext
  cases hfind : s.threads.findIdx? (·.haltPending) with
  | none => exact .refl
  | some t =>
    obtain ⟨ht, hpending, -⟩ := List.findIdx?_eq_some_iff_getElem.mp hfind
    have hword : (UInt32.ofNat t).toNat = t := by
      rw [UInt32.toNat_ofNat']
      exact Nat.mod_eq_of_lt (Nat.lt_of_lt_of_le ht hn)
    simp only [List.getElem?_eq_getElem ht]
    have hstep : Issuing.Step doneAt (s.issuing none) _ := .halt _ (UInt32.ofNat t) s.threads[t]
      (by rw [hword]; exact List.getElem?_eq_getElem ht) hpending rfl
    rw [hword] at hstep
    exact .single hstep

theorem indexed_haltNext {s : Execute} (h : s.Indexed) : s.haltNext.1.Indexed := by
  unfold haltNext
  split
  · exact h
  · split <;> exact h

/-- The stage in a cycle when it comes to issue. -/
def loaded (s : Execute) (cycle : Nat) (b : Bundle) : Execute :=
  { (s.retire cycle).1 with input := s.input.push b }

/-- A halt is sent if issue has raised no redirect. -/
def orHalt (s : Execute) : Option Redirect → Execute × Option Redirect
  | some r => (s, some r)
  | none => s.haltNext

/-- A halt concerns the threads alone. -/
theorem orHalt_eq (s : Execute) (raised : Option Redirect) :
    ∃ threads, (s.orHalt raised).1 = { s with threads } := by
  unfold orHalt haltNext
  split
  · exact ⟨s.threads, rfl⟩
  · split
    · exact ⟨s.threads, rfl⟩
    · split
      · exact ⟨s.threads, rfl⟩
      · exact ⟨_, rfl⟩

theorem stage_evaluate (s : Execute) (cycle : Nat) (b : Bundle) :
    (s.evaluate cycle b).stage =
      (((s.loaded cycle b).issue cycle).1.orHalt ((s.loaded cycle b).issue cycle).2.1).1 := by
  unfold orHalt
  rfl

theorem redirect_evaluate (s : Execute) (cycle : Nat) (b : Bundle) :
    (s.evaluate cycle b).redirect =
      (((s.loaded cycle b).issue cycle).1.orHalt ((s.loaded cycle b).issue cycle).2.1).2 := by
  unfold orHalt
  rfl

theorem waiting_loaded {s : Execute} (h : s.Indexed) (cycle : Nat) (b : Bundle) :
    (s.loaded cycle b).waiting = s.waiting ++ b.tagged := by
  show waitingOps s.issueIndex (s.input.push b).entries = _
  rw [Queue.entries_push, waitingOps_append h, Bundle.flatMap_tagged_present,
    List.flatMap_singleton]
  rfl

theorem indexed_loaded {s : Execute} (h : s.Indexed) (cycle : Nat) (b : Bundle) :
    (s.loaded cycle b).Indexed := by
  intro hnil
  have happend : s.input.entries ++ present [b] = [] := (Queue.entries_push s.input b) ▸ hnil
  exact h (List.append_eq_nil_iff.mp happend).1

/-- **A cycle retires what is done, takes in a bundle, and goes through steps of issue.** -/
theorem evaluate_steps {s : Execute} (h : s.Indexed) (hn : s.threads.length ≤ UInt32.size)
    (cycle : Nat) (b : Bundle) :
    Issuing.Steps (cycle + s.latency)
        ⟨s.waiting ++ b.tagged, s.threads, s.units.dropWhile (isDone cycle), none⟩
        ((s.evaluate cycle b).stage.issuing (s.evaluate cycle b).redirect) ∧
      (s.evaluate cycle b).stage.Indexed := by
  have hissue := (s.loaded cycle b).issue_steps cycle
  have hafter := indexed_issue (indexed_loaded h cycle b) cycle
  rw [issuing, waiting_loaded h] at hissue
  rw [stage_evaluate, redirect_evaluate]
  cases hraised : ((s.loaded cycle b).issue cycle).2.1 with
  | some r =>
    rw [hraised] at hissue
    exact ⟨hissue, hafter⟩
  | none =>
    rw [hraised] at hissue
    have hlength : ((s.loaded cycle b).issue cycle).1.threads.length ≤ UInt32.size :=
      hissue.length ▸ hn
    exact ⟨hissue.trans (haltNext_steps hlength _), indexed_haltNext hafter⟩

/-- What retires in a cycle, and what is counted of it. -/
theorem evaluate_retired (s : Execute) (cycle : Nat) (b : Bundle) :
    (s.evaluate cycle b).retired = (s.units.takeWhile (isDone cycle)).map InFlight.retired ∧
      (s.evaluate cycle b).stage.retired = s.retired + (s.evaluate cycle b).retired.length ∧
      (s.evaluate cycle b).stage.signature =
        (s.evaluate cycle b).retired.foldl Signature.absorb s.signature := by
  obtain ⟨threads, heq⟩ := ((s.loaded cycle b).issue cycle).1.orHalt_eq
    ((s.loaded cycle b).issue cycle).2.1
  rw [stage_evaluate, heq]
  exact ⟨rfl, rfl, rfl⟩

end Execute

/-! ## What steps of issue keep -/

/-- What execute sends to the line fetch. -/
structure Redirect.Sent (n : Nat) (r : Redirect) : Prop where
  live : Payload.isBubble r = false
  thread : r.thread.toNat < n
  changes : r.reason.changesStream = true
  resets : r.newPredictionSeq = firstSeq

namespace Issuing

variable {doneAt : Nat} {i j : Issuing}

/-- Units and redirects are of threads that there are, and a stream number is raised only for a
redirect. -/
structure Sound (c : Nat) (i : Issuing) : Prop where
  units : ∀ f ∈ i.units, f.thread.toNat < i.threads.length
  quiet : i.redirect = none → ∀ th ∈ i.threads, ordinal th.streamSeq ≤ c
  bound : ∀ th ∈ i.threads, ordinal th.streamSeq ≤ c + 1
  redirect : ∀ r, i.redirect = some r → r.Sent i.threads.length

theorem mem_units_concat {n : Nat} {f₀ : InFlight} (h : ∀ f ∈ i.units, f.thread.toNat < n)
    (h₀ : f₀.thread.toNat < n) : ∀ f ∈ i.units ++ [f₀], f.thread.toNat < n := by
  intro f hf
  rcases List.mem_append.mp hf with hf | hf
  · exact h f hf
  · rw [List.mem_singleton.mp hf]
    exact h₀

/-- After a thread was replaced, its number is bounded like the others. -/
theorem bound_set {b : Nat} {ths : List ExecThread} {t : Nat} {th : ExecThread}
    (h : ∀ th' ∈ ths, ordinal th'.streamSeq ≤ b) (hth : ordinal th.streamSeq ≤ b) :
    ∀ th' ∈ ths.set t th, ordinal th'.streamSeq ≤ b := by
  intro th' hmem
  rcases List.mem_or_eq_of_mem_set hmem with hmem | rfl
  · exact h th' hmem
  · exact hth

theorem Sound.step {c : Nat} (h : i.Sound c) (hs : Step doneAt i j) : j.Sound c := by
  cases hs with
  | squash t o rest hwaiting hold => exact ⟨h.units, h.quiet, h.bound, h.redirect⟩
  | issue t o rest th th' hwaiting hth hcur hissue =>
    obtain ⟨-, rfl⟩ := ExecThread.of_issue_none hissue
    obtain ⟨ht, -⟩ := List.getElem?_eq_some_iff.mp hth
    have hmem : th ∈ i.threads := List.mem_of_getElem? hth
    refine ⟨?_, fun hnone => bound_set (h.quiet hnone) (h.quiet hnone th hmem),
      bound_set h.bound (h.bound th hmem), ?_⟩
    · rw [List.length_set]
      exact mem_units_concat h.units ht
    · rw [List.length_set]
      exact h.redirect
  | raise t o rest th th' r hwaiting hth hcur hissue hnone =>
    obtain ⟨hchanges, rfl, rfl⟩ := ExecThread.of_issue_some hissue
    obtain ⟨ht, -⟩ := List.getElem?_eq_some_iff.mp hth
    have hquiet := h.quiet hnone th (List.mem_of_getElem? hth)
    have hnext := ordinal_succ_le th.streamSeq
    refine ⟨?_, fun hsome => absurd hsome (by simp),
      bound_set h.bound (Nat.le_trans hnext (by omega)), ?_⟩
    · rw [List.length_set]
      exact mem_units_concat h.units ht
    · intro r hr
      rw [List.length_set, ← Option.some.inj hr]
      exact ⟨Flag.isSet_clear, ht, hchanges, rfl⟩
  | halt t th hth hpending hnone =>
    obtain ⟨ht, -⟩ := List.getElem?_eq_some_iff.mp hth
    have hquiet := h.quiet hnone th (List.mem_of_getElem? hth)
    have hnext := ordinal_succ_le th.streamSeq
    refine ⟨?_, fun hsome => absurd hsome (by simp),
      bound_set h.bound (Nat.le_trans hnext (by omega)), ?_⟩
    · rw [List.length_set]
      exact h.units
    · intro r hr
      rw [List.length_set, ← Option.some.inj hr]
      exact ⟨Flag.isSet_clear, ht, rfl, rfl⟩

theorem Sound.steps {c : Nat} (h : i.Sound c) (hs : Steps doneAt i j) : j.Sound c := by
  induction hs with
  | refl => exact h
  | tail _ hlast ih => exact ih.step hlast

end Issuing

/-! ## The lanes -/

/-- What a thread has of a list of retired instructions: where each stands, and its word. -/
def trail (t : UInt32) (rs : List Retired) : List (UInt64 × UInt32) :=
  share t (rs.map fun r => (r.thread, (r.pc, r.inst)))

theorem trail_append (t : UInt32) (rs rs' : List Retired) :
    trail t (rs ++ rs') = trail t rs ++ trail t rs' := by
  rw [trail, List.map_append, share_append, trail, trail]

/-- Where all is of one thread, its trail is all that there is. -/
theorem trail_eq_map {t : UInt32} {rs : List Retired} (h : ∀ r ∈ rs, r.thread = t) :
    trail t rs = rs.map fun r => (r.pc, r.inst) := by
  rw [trail, share, List.filter_eq_self.mpr, List.map_map]
  · rfl
  · intro y hy
    obtain ⟨r, hr, rfl⟩ := List.mem_map.mp hy
    exact decide_eq_true (h r hr)

namespace Issuing

variable {k : Track} {doneAt : Nat} {i j : Issuing}

/-- A lane of which issue has the front: what `v` has of issued instructions and redirects is older,
what it has of micro-ops is younger. -/
def ahead (i : Issuing) (k : Track) (v : Lane) : Lane :=
  { v with
    issued := v.issued ++ trail k.thread (i.units.map InFlight.retired)
    exec := i.threads[k.thread.toNat]?.getD v.exec
    ops := share k.thread i.waiting ++ v.ops
    redirects := v.redirects ++ redirectsOf k.thread i.redirect.toList }

theorem trail_unit (t : UInt32) (us : List InFlight) (o : MicroOp) (doneAt : Nat) :
    trail t ((us ++ [(⟨t, o, doneAt⟩ : InFlight)]).map InFlight.retired) =
      trail t (us.map InFlight.retired) ++ [(o.pc, o.inst)] := by
  rw [List.map_append, trail_append]
  congr 1
  exact share_cons_self t (o.pc, o.inst) []

theorem trail_unit_of_ne {t t' : UInt32} (h : t' ≠ t) (us : List InFlight) (o : MicroOp)
    (doneAt : Nat) :
    trail t ((us ++ [(⟨t', o, doneAt⟩ : InFlight)]).map InFlight.retired) =
      trail t (us.map InFlight.retired) := by
  rw [List.map_append, trail_append]
  exact (congrArg _ (share_cons_ne h (o.pc, o.inst) [])).trans (List.append_nil _)

theorem getElem?_set_of_ne {t t' : UInt32} (h : t' ≠ t) (ths : List ExecThread) (th : ExecThread) :
    (ths.set t'.toNat th)[t.toNat]? = ths[t.toNat]? :=
  List.getElem?_set_ne fun heq => h (UInt32.toNat_inj.mp heq)

theorem ops_ahead {o : MicroOp} {rest : List (UInt32 × MicroOp)} (v : Lane)
    (hwaiting : i.waiting = (k.thread, o) :: rest) :
    (i.ahead k v).ops = o :: (share k.thread rest ++ v.ops) := by
  rw [ahead, hwaiting, share_cons_self, List.cons_append]

theorem exec_ahead {th : ExecThread} (v : Lane) (hth : i.threads[k.thread.toNat]? = some th) :
    (i.ahead k v).exec = th := by
  rw [ahead, hth, Option.getD_some]

theorem redirects_ahead (v : Lane) (hnone : i.redirect = none) :
    (i.ahead k v).redirects = v.redirects := by
  rw [ahead, hnone]
  exact List.append_nil _

/-- The lane of a thread that has issued a micro-op. -/
theorem ahead_issued {rest : List (UInt32 × MicroOp)} (v : Lane) (i : Issuing) (o : MicroOp)
    (th : ExecThread) (r : Option Redirect) (ht : k.thread.toNat < i.threads.length) :
    ahead ⟨rest, i.threads.set k.thread.toNat th, i.units ++ [⟨k.thread, o, doneAt⟩], r⟩ k v =
      { i.ahead k v with
        issued := (i.ahead k v).issued ++ [(o.pc, o.inst)], exec := th
        ops := share k.thread rest ++ v.ops
        redirects := v.redirects ++ redirectsOf k.thread r.toList } := by
  rw [ahead, trail_unit, List.getElem?_set_self ht, Option.getD_some, ← List.append_assoc]
  rfl

/-- The lane of a thread when another one has issued a micro-op. -/
theorem ahead_issued_of_ne {t : UInt32} {o : MicroOp} {rest : List (UInt32 × MicroOp)} (v : Lane)
    (hwaiting : i.waiting = (t, o) :: rest) (hne : t ≠ k.thread) (th : ExecThread)
    (r : Option Redirect)
    (hr : redirectsOf k.thread r.toList = redirectsOf k.thread i.redirect.toList) :
    ahead ⟨rest, i.threads.set t.toNat th, i.units ++ [⟨t, o, doneAt⟩], r⟩ k v = i.ahead k v := by
  rw [ahead, ahead, hwaiting, share_cons_ne hne, trail_unit_of_ne hne, getElem?_set_of_ne hne, hr]

/-- A step of issue is a step of the lane of its thread, and does not touch the others. -/
theorem Step.lane (v : Lane) (ht : k.thread.toNat < i.threads.length)
    (hfresh : i.redirect = none → ∀ th ∈ i.threads, k.fresh (th.streamSeq + 1))
    (hs : Step doneAt i j) : Lane.Steps k (i.ahead k v) (j.ahead k v) := by
  cases hs with
  | squash t o rest hwaiting hold =>
    by_cases heq : t = k.thread
    · subst heq
      refine .single (.squash _ o (share k.thread rest ++ v.ops) (ops_ahead v hwaiting) ?_)
      have hth := List.getElem?_eq_getElem ht
      rw [exec_ahead v hth]
      exact hold _ hth
    · rw [show ahead { i with waiting := rest } k v = i.ahead k v by
        rw [ahead, ahead, hwaiting, share_cons_ne heq]]
  | issue t o rest th th' hwaiting hth hcur hissue =>
    by_cases heq : t = k.thread
    · subst heq
      have hexec := exec_ahead v hth
      refine .single ?_
      have hstep := Lane.Step.issue (k := k) (i.ahead k v) o (share k.thread rest ++ v.ops) th'
        (ops_ahead v hwaiting) (hexec ▸ hcur) (hexec ▸ hissue)
      rw [ahead_issued v i o th' i.redirect ht]
      exact hstep
    · rw [ahead_issued_of_ne v hwaiting heq th' i.redirect rfl]
  | raise t o rest th th' r hwaiting hth hcur hissue hnone =>
    have hr : r.thread = t := by rw [(ExecThread.of_issue_some hissue).2.2]; rfl
    by_cases heq : t = k.thread
    · subst heq
      have hexec := exec_ahead v hth
      refine .single ?_
      have hstep := Lane.Step.raise (k := k) (i.ahead k v) o (share k.thread rest ++ v.ops) th' r
        (ops_ahead v hwaiting) (hexec ▸ hcur) (hexec ▸ hissue)
        (hexec ▸ hfresh hnone th (List.mem_of_getElem? hth))
      rw [redirects_ahead v hnone] at hstep
      rw [ahead_issued v i o th' (some r) ht, Option.toList_some, redirectsOf_cons hr]
      exact hstep
    · have hother : redirectsOf k.thread (some r).toList =
          redirectsOf k.thread i.redirect.toList := by
        rw [hnone]
        exact redirectsOf_cons_of_ne (hr ▸ heq) []
      rw [ahead_issued_of_ne v hwaiting heq th' (some r) hother]
  | halt t th hth hpending hnone =>
    by_cases heq : t = k.thread
    · subst heq
      have hexec := exec_ahead v hth
      refine .single ?_
      have hstep := Lane.Step.halt (k := k) (i.ahead k v) (hexec ▸ hpending)
        (hexec ▸ hfresh hnone th (List.mem_of_getElem? hth))
      rw [redirects_ahead v hnone, hexec] at hstep
      rw [show ahead { i with
          threads := i.threads.set k.thread.toNat (th.halt k.thread).1
          redirect := some (th.halt k.thread).2 } k v = _ by
        rw [ahead, List.getElem?_set_self ht, Option.getD_some, Option.toList_some,
          redirectsOf_cons (show (th.halt k.thread).2.thread = k.thread from rfl)]]
      exact hstep
    · rw [show ahead { i with
          threads := i.threads.set t.toNat (th.halt t).1, redirect := some (th.halt t).2 } k v =
          i.ahead k v by
        rw [ahead, ahead, hnone, getElem?_set_of_ne heq, Option.toList_some,
          redirectsOf_cons_of_ne (r := (th.halt t).2) heq]
        rfl]

/-- **Steps of issue are steps of every lane.** -/
theorem lane_steps {c : Nat} (v : Lane) (h : i.Sound c) (ht : k.thread.toNat < i.threads.length)
    (hfresh : ∀ x, ordinal x ≤ c → k.fresh (x + 1)) (hs : Steps doneAt i j) :
    Lane.Steps k (i.ahead k v) (j.ahead k v) := by
  induction hs with
  | refl => exact .refl
  | tail hpre hlast ih =>
    refine ih.trans (hlast.lane v (Steps.length hpre ▸ ht) fun hnone th hth => hfresh _ ?_)
    exact (h.steps hpre).quiet hnone th hth

end Issuing

namespace Execute

/-- What holds of the stage between cycles: there are `n` threads, of which it has units, and no
stream has a number of more than `c` before it. -/
structure Sound (n c : Nat) (s : Execute) : Prop where
  indexed : s.Indexed
  length : s.threads.length = n
  units : ∀ f ∈ s.units, f.thread.toNat < n
  bound : ∀ th ∈ s.threads, ordinal th.streamSeq ≤ c

variable {n c cycle : Nat} {s : Execute} {b : Bundle}

/-- The stage when issue begins is sound. -/
theorem Sound.start (h : s.Sound n c) :
    Issuing.Sound c
      ⟨s.waiting ++ b.tagged, s.threads, s.units.dropWhile (isDone cycle), none⟩ := by
  refine ⟨fun f hf => ?_, fun _ => h.bound, fun th hth => Nat.le_succ_of_le (h.bound th hth),
    fun r hr => absurd hr (by simp)⟩
  rw [h.length]
  exact h.units f ((List.dropWhile_suffix _).mem hf)

theorem Sound.evaluate (h : s.Sound n c) (hn : n ≤ UInt32.size) (cycle : Nat) (b : Bundle) :
    (s.evaluate cycle b).stage.Sound n (c + 1) ∧
      ∀ r, (s.evaluate cycle b).redirect = some r → r.Sent n := by
  obtain ⟨hsteps, hindexed⟩ := evaluate_steps h.indexed (h.length ▸ hn) cycle b
  have hend := h.start.steps hsteps
  have hlength : (s.evaluate cycle b).stage.threads.length = n := hsteps.length.trans h.length
  refine ⟨⟨hindexed, hlength, ?_, hend.bound⟩, ?_⟩
  · intro f hf
    exact hlength ▸ hend.units f hf
  · intro r hr
    exact hlength ▸ hend.redirect r hr

/-- Only what was in a unit retires. -/
theorem Sound.retired_thread (h : s.Sound n c) {r : Retired}
    (hr : r ∈ (s.evaluate cycle b).retired) : r.thread.toNat < n := by
  rw [(s.evaluate_retired cycle b).1] at hr
  obtain ⟨f, hf, rfl⟩ := List.mem_map.mp hr
  exact h.units f ((List.takeWhile_prefix _).mem hf)

/-- **In a cycle each lane goes through steps that its front part has from execute.** -/
theorem lane_evaluate {k : Track} (h : s.Sound n c) (hn : n ≤ UInt32.size) (ht : k.thread.toNat < n)
    (hfresh : ∀ x, ordinal x ≤ c → k.fresh (x + 1)) (cycle : Nat) (b : Bundle) (v : Lane) :
    Lane.Steps k
      (Issuing.ahead ⟨s.waiting ++ b.tagged, s.threads, s.units.dropWhile (isDone cycle), none⟩ k v)
      (((s.evaluate cycle b).stage.issuing (s.evaluate cycle b).redirect).ahead k v) :=
  Issuing.lane_steps v h.start (h.length.symm ▸ ht) hfresh
    (evaluate_steps h.indexed (h.length ▸ hn) cycle b).1

/-- To ask for halts, or for none, does not touch the numbers. -/
theorem Sound.mark (h : s.Sound n c) (draining pending : Bool) :
    Sound n c { s with
      draining, threads := s.threads.map fun th => { th with haltPending := pending } } := by
  refine ⟨h.indexed, List.length_map .. |>.trans h.length, h.units, fun th hth => ?_⟩
  obtain ⟨th', hth', rfl⟩ := List.mem_map.mp hth
  exact h.bound th' hth'

theorem getElem?_mark (h : s.Sound n c) {t : UInt32} (ht : t.toNat < n) (pending : Bool)
    (th : ExecThread) :
    (s.threads.map fun th => { th with haltPending := pending })[t.toNat]?.getD th =
      { s.threads[t.toNat]?.getD th with haltPending := pending } := by
  rw [List.getElem?_map, List.getElem?_eq_getElem (h.length.symm ▸ ht)]
  rfl

end Execute

end InOrder
