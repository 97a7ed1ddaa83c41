import InOrder.Proofs.Stage.Flight
import InOrder.Proofs.Stage.Supply

/-!
# Turns

The line fetch serves the threads that run in turn: the one whose turn it is, or else the next
after it that runs. The threads that do not run are passed over without losing their place, as the
turn goes on to the thread behind the one that is served.

So what tells how long a thread can wait is the number of others that have their turn before it
(`LineFetch.Due`). A request for another thread makes it smaller, as long as the thread runs and so
is not passed over, and nothing that is done between two requests changes it, whoever starts or
stops to run.

* `LineFetch.requests_fair`: of as many requests in a row as there are threads, each thread that
  runs at all of them has one, and a cycle that comes to pick a thread makes a request if one runs.
-/

namespace InOrder

namespace LineFetch

variable {s : LineFetch} {t i cycle : Nat}

/-! ## The requests that are made -/

/-- The stage in a cycle as it comes to ask for the next line: what arrives has been taken up, and
the line in flight is sent if it could be. -/
def poised (s : LineFetch) (cycle : Nat) (branch prediction : Redirect) (room : Bool) : LineFetch :=
  ((s.redirect branch prediction).1.deliver cycle room).1

/-- A request for a line. -/
structure Request where
  /-- The stage as it picks a thread. -/
  stage : LineFetch
  /-- The thread that it picks. -/
  thread : Nat

/-- The request that the stage is about to make, if it is about to make one. -/
def next? (s : LineFetch) : Option Request :=
  if s.pending.isSome then none else s.pick.map fun t => ⟨s, t⟩

/-- The request that is made when the stage is used, if one is. -/
def requestOf (s : LineFetch) : Use → Option Request
  | .cycle number branch prediction room => (s.poised number branch prediction room).next?
  | .wake _ => none

/-- The requests that some uses make, in order. -/
def requests (s : LineFetch) : List Use → List Request
  | [] => []
  | u :: us => (s.requestOf u).toList ++ (s.perform u).requests us

/-- A request that is about to be made is of the stage as it stands, which has no line in flight. -/
theorem next?_eq_some_iff {r : Request} :
    s.next? = some r ↔ s.pending = none ∧ s.pick = some r.thread ∧ r.stage = s := by
  unfold next?
  cases s.pending with
  | some p => simp
  | none =>
    simp only [Option.isSome_none, Bool.false_eq_true, if_false, Option.map_eq_some_iff, true_and]
    constructor
    · rintro ⟨t, hpick, rfl⟩
      exact ⟨hpick, rfl⟩
    · rintro ⟨hpick, rfl⟩
      exact ⟨r.thread, hpick, rfl⟩

/-- **With no line in flight the stage is about to make a request if a thread runs.** -/
theorem exists_next (hpending : s.pending = none) (hrun : s.isRunning t = true) :
    ∃ r, s.next? = some r := by
  obtain ⟨t', hpick⟩ := Option.isSome_iff_exists.mp (pick_isSome hrun)
  exact ⟨⟨s, t'⟩, next?_eq_some_iff.mpr ⟨hpending, hpick, rfl⟩⟩

/-- The request that the stage is about to make is made, for a thread that runs. -/
theorem requestNext_of_next {r : Request} (h : s.next? = some r) (cycle : Nat) :
    ∃ th, s.threads[r.thread]? = some th ∧ th.state = .running ∧
      s.requestNext cycle = (s.request r.thread th cycle, [th.pc]) := by
  obtain ⟨hpending, hpick, -⟩ := next?_eq_some_iff.mp h
  exact requestNext_of_pick hpending hpick cycle

/-- No other request is made. -/
theorem requestNext_of_no_next (h : s.next? = none) (cycle : Nat) :
    s.requestNext cycle = (s, []) := by
  unfold requestNext
  cases hpending : s.pending with
  | some p => rfl
  | none =>
    cases hpick : s.pick with
    | none => rfl
    | some t => exact absurd h (by simp [next?, hpending, hpick])

theorem perform_cycle (s : LineFetch) (number : Nat) (branch prediction : Redirect) (room : Bool) :
    s.perform (.cycle number branch prediction room) =
      ((s.poised number branch prediction room).requestNext number).1 := rfl

/-- The requests from some point on are made by the uses from some point on. -/
theorem exists_uses_of_requests {uses : List Use} {before rest : List Request}
    (h : s.requests uses = before ++ rest) :
    ∃ done left, (s.performAll done).requests left = rest := by
  induction uses generalizing s before with
  | nil =>
    obtain ⟨-, rfl⟩ := List.append_eq_nil_iff.mp h.symm
    exact ⟨[], [], rfl⟩
  | cons u us ih =>
    have hlater : ∀ {before}, (s.perform u).requests us = before ++ rest →
        ∃ done left, (s.performAll done).requests left = rest := fun h => by
      obtain ⟨done, left, hleft⟩ := ih h
      exact ⟨u :: done, left, hleft⟩
    rw [requests] at h
    cases hrequest : s.requestOf u with
    | none =>
      rw [hrequest] at h
      exact hlater h
    | some r =>
      cases before with
      | nil => exact ⟨[], u :: us, h⟩
      | cons r' before =>
        rw [hrequest] at h
        exact hlater (List.cons_eq_cons.mp h).2

/-! ## What keeps the turn -/

/-- Whose turn it is, and among how many. -/
def rota (s : LineFetch) : Nat × Nat := (s.turn, s.threads.length)

/-- When the stage comes to ask for the next line, it is still the turn of the same thread, among as
many, and memory has been asked for no more lines. -/
theorem poised_keeps (s : LineFetch) (cycle : Nat) (branch prediction : Redirect) (room : Bool) :
    (s.poised cycle branch prediction room).rota = s.rota ∧
      (s.poised cycle branch prediction room).port.requests = s.port.requests := by
  obtain ⟨threads, keep, hlength, hredirect⟩ := s.redirect_keeps branch prediction
  have hrota : (s.redirect branch prediction).1.rota = s.rota := by
    rw [hredirect]
    exact congrArg (Prod.mk s.turn) hlength
  have hport : (s.redirect branch prediction).1.port = s.port := by
    rw [hredirect]
    rfl
  rw [← hrota, ← hport, poised]
  rcases deliver_cases _ cycle room with hdeliver | ⟨p, -, -, hdeliver⟩ <;> rw [hdeliver] <;>
    exact ⟨rfl, rfl⟩

theorem rota_poised (s : LineFetch) (cycle : Nat) (branch prediction : Redirect) (room : Bool) :
    (s.poised cycle branch prediction room).rota = s.rota :=
  (s.poised_keeps cycle branch prediction room).1

theorem rota_wake (s : LineFetch) (t : UInt32) : (s.wake t).1.rota = s.rota := by
  cases hth : s.thread? t with
  | none => rw [wake_of_none hth]
  | some th =>
    rw [wake_eq hth]
    exact congrArg (Prod.mk s.turn) List.length_set

/-- A use that makes no request does not change whose turn it is. -/
theorem rota_perform {u : Use} (h : s.requestOf u = none) : (s.perform u).rota = s.rota := by
  cases u with
  | cycle number branch prediction room =>
    rw [perform_cycle, requestNext_of_no_next h]
    exact rota_poised s number branch prediction room
  | wake t => exact rota_wake s t

/-- There are as many threads after a use as before. -/
theorem length_perform (s : LineFetch) (u : Use) :
    (s.perform u).threads.length = s.threads.length := by
  cases hrequest : s.requestOf u with
  | none => exact congrArg Prod.snd (rota_perform hrequest)
  | some r =>
    cases u with
    | cycle number branch prediction room =>
      obtain ⟨th, -, -, hrequested⟩ := requestNext_of_next hrequest number
      rw [perform_cycle, hrequested]
      exact List.length_set.trans (congrArg Prod.snd (rota_poised s number branch prediction room))
    | wake t => nomatch hrequest

theorem length_performAll (s : LineFetch) (uses : List Use) :
    (s.performAll uses).threads.length = s.threads.length := by
  induction uses generalizing s with
  | nil => rfl
  | cons u us ih => exact (ih (s.perform u)).trans (s.length_perform u)

/-! ## How many have their turn before -/

/-- So many threads have their turn before thread `t`. -/
def Due (s : LineFetch) (t i : Nat) : Prop :=
  i < s.threads.length ∧ (s.turn + i) % s.threads.length = t

theorem exists_due (ht : t < s.threads.length) : ∃ i, s.Due t i := by
  have hmem : t ∈ (List.range s.threads.length).map fun i => (s.turn + i) % s.threads.length :=
    mem_turns ht
  obtain ⟨i, hi, heq⟩ := List.mem_map.mp hmem
  exact ⟨i, List.mem_range.mp hi, heq⟩

theorem Due.congr {s' : LineFetch} (h : s.Due t i) (hrota : s'.rota = s.rota) : s'.Due t i := by
  obtain ⟨hturn, hlength⟩ := Prod.mk.inj hrota
  rw [Due, hturn, hlength]
  exact h

/-- A thread that runs is picked, or one that has its turn before. -/
theorem Due.pick {t' : Nat} (h : s.Due t i) (hrun : s.isRunning t = true)
    (hpick : s.pick = some t') : t' = t ∨ ∃ j < i, s.Due t' j := by
  rw [LineFetch.pick, List.find?_map, Option.map_eq_some_iff] at hpick
  obtain ⟨j, hj, rfl⟩ := hpick
  obtain ⟨-, hmem, hbefore⟩ := List.find?_range_eq_some.mp hj
  rcases Nat.lt_trichotomy j i with hlt | rfl | hgt
  · exact .inr ⟨j, hlt, List.mem_range.mp hmem, rfl⟩
  · exact .inl h.2
  · have hstopped := hbefore i hgt
    rw [Function.comp_apply, h.2, hrun] at hstopped
    exact absurd hstopped (by decide)

/-- When one that has its turn before is served, fewer have their turn before. -/
theorem Due.request {t' j : Nat} (h : s.Due t i) (hbefore : s.Due t' j) (hlt : j < i)
    (th : FetchThread) (cycle : Nat) : (s.request t' th cycle).Due t (i - (j + 1)) := by
  have hlength : (s.request t' th cycle).threads.length = s.threads.length := List.length_set
  have hturn : (s.request t' th cycle).turn = (t' + 1) % s.threads.length := rfl
  refine ⟨?_, ?_⟩
  · rw [hlength]
    exact Nat.lt_of_le_of_lt (Nat.sub_le i (j + 1)) h.1
  · calc ((s.request t' th cycle).turn + (i - (j + 1))) % (s.request t' th cycle).threads.length
        = ((t' + 1) % s.threads.length + (i - (j + 1))) % s.threads.length := by
          rw [hlength, hturn]
      _ = (t' + (1 + (i - (j + 1)))) % s.threads.length := by rw [Nat.mod_add_mod, Nat.add_assoc]
      _ = (s.turn + j + (1 + (i - (j + 1)))) % s.threads.length := by
          rw [← hbefore.2, Nat.mod_add_mod]
      _ = (s.turn + i) % s.threads.length := by
          rw [show s.turn + j + (1 + (i - (j + 1))) = s.turn + i by omega]
      _ = t := h.2

/-- **A request that a thread could have had is for it, or brings it nearer to its turn.** -/
theorem Due.perform {u : Use} {r : Request} (h : s.Due t i) (hrequest : s.requestOf u = some r)
    (hrun : r.stage.isRunning t = true) : r.thread = t ∨ ∃ i' < i, (s.perform u).Due t i' := by
  cases u with
  | wake t => nomatch hrequest
  | cycle number branch prediction room =>
    have hdue := h.congr (rota_poised s number branch prediction room)
    obtain ⟨-, hpick, hstage⟩ := next?_eq_some_iff.mp hrequest
    obtain ⟨th, -, -, hrequested⟩ := requestNext_of_next hrequest number
    rcases hdue.pick (hstage ▸ hrun) hpick with heq | ⟨j, hlt, hbefore⟩
    · exact .inl heq
    · refine .inr ⟨i - (j + 1), by omega, ?_⟩
      rw [perform_cycle, hrequested]
      exact hdue.request hbefore hlt th number

/-- **A thread is served before more requests are made than others have their turn before it**, if
it runs at each of them. -/
theorem Due.served {uses : List Use} {window : List Request} (h : s.Due t i)
    (hwindow : window <+: s.requests uses) (hlong : i < window.length)
    (hrun : ∀ r ∈ window, r.stage.isRunning t = true) : ∃ r ∈ window, r.thread = t := by
  -- Uses without a request keep `i`, and each request that is not for the thread lowers it, so `i`
  -- stays below the number of requests that are left.
  induction uses generalizing s i window with
  | nil =>
    rw [List.prefix_nil.mp hwindow] at hlong
    exact absurd hlong (Nat.not_lt_zero i)
  | cons u us ih =>
    rw [requests] at hwindow
    cases hrequest : s.requestOf u with
    | none =>
      rw [hrequest] at hwindow
      exact ih (h.congr (rota_perform hrequest)) hwindow hlong hrun
    | some r =>
      rw [hrequest] at hwindow
      rcases List.prefix_cons_iff.mp hwindow with rfl | ⟨rest, rfl, hrest⟩
      · exact absurd hlong (Nat.not_lt_zero i)
      obtain ⟨hrun₀, hruns⟩ := List.forall_mem_cons.mp hrun
      rcases h.perform hrequest hrun₀ with heq | ⟨i', hlt, hdue⟩
      · exact ⟨r, List.mem_cons_self, heq⟩
      · have hlong' : i' < rest.length :=
          Nat.lt_of_lt_of_le hlt (Nat.lt_succ_iff.mp hlong)
        obtain ⟨r', hmem, heq⟩ := ih hdue hrest hlong' hruns
        exact ⟨r', List.mem_cons_of_mem r hmem, heq⟩

/-! ## Fairness -/

/-- Memory is asked for a line by the requests of a use, and by nothing else. -/
theorem asked_perform (s : LineFetch) (u : Use) :
    (s.perform u).port.requests = s.port.requests + (s.requestOf u).toList.length := by
  cases u with
  | wake t =>
    show (s.wake t).1.port.requests = s.port.requests
    cases hth : s.thread? t with
    | none => rw [wake_of_none hth]
    | some th => rw [wake_eq hth]; rfl
  | cycle number branch prediction room =>
    have hpoised := (s.poised_keeps number branch prediction room).2
    cases hrequest : s.requestOf (.cycle number branch prediction room) with
    | none =>
      rw [perform_cycle, requestNext_of_no_next hrequest]
      exact hpoised
    | some r =>
      obtain ⟨th, -, -, hrequested⟩ := requestNext_of_next hrequest number
      rw [perform_cycle, hrequested]
      exact congrArg (· + 1) hpoised

theorem asked_performAll (s : LineFetch) (uses : List Use) :
    (s.performAll uses).port.requests = s.port.requests + (s.requests uses).length := by
  induction uses generalizing s with
  | nil => rfl
  | cons u us ih =>
    calc ((s.perform u).performAll us).port.requests
        = (s.perform u).port.requests + ((s.perform u).requests us).length := ih (s.perform u)
      _ = s.port.requests + (s.requests (u :: us)).length := by
          rw [asked_perform, requests, List.length_append, Nat.add_assoc]

/-- The stage shares its requests fairly, whatever is done to it. -/
structure Fair (s : LineFetch) : Prop where
  /-- A cycle that comes to pick a thread makes a request if one runs. -/
  prompt : ∀ number branch prediction room,
    (s.poised number branch prediction room).pending = none →
      ∀ t, (s.poised number branch prediction room).isRunning t = true →
        ∃ r, s.requestOf (.cycle number branch prediction room) = some r
  /-- A request is for the next line of a thread that runs, which then is in flight. -/
  made : ∀ number branch prediction room r,
    s.requestOf (.cycle number branch prediction room) = some r →
      r.stage = s.poised number branch prediction room ∧
        ∃ th, r.stage.threads[r.thread]? = some th ∧ th.state = .running ∧
          (s.evaluate number branch prediction room).stage = r.stage.request r.thread th number ∧
          (s.evaluate number branch prediction room).addrs = [th.pc]
  /-- There are no requests but these. -/
  counted : ∀ uses,
    (s.performAll uses).port.requests = s.port.requests + (s.requests uses).length
  /-- Of as many requests in a row as there are threads, each thread that runs at all of them has
  one. -/
  served : ∀ uses window, window <:+: s.requests uses → window.length = s.threads.length →
    ∀ t < s.threads.length, (∀ r ∈ window, r.stage.isRunning t = true) → ∃ r ∈ window, r.thread = t

/-- **Requests are shared fairly**, whatever redirects and predictions arrive and whoever is woken:
a thread that keeps running is passed over by fewer requests than there are threads. -/
theorem requests_fair (s : LineFetch) : s.Fair where
  prompt _ _ _ _ hpending _ hrun := exists_next hpending hrun
  made number branch prediction room r hrequest := by
    obtain ⟨-, -, hstage⟩ := next?_eq_some_iff.mp hrequest
    obtain ⟨th, hth, hstate, hrequested⟩ := requestNext_of_next hrequest number
    refine ⟨hstage, th, hstage ▸ hth, hstate, ?_, congrArg Prod.snd hrequested⟩
    rw [hstage]
    exact congrArg Prod.fst hrequested
  counted := s.asked_performAll
  served uses window hwindow hlength t ht hrun := by
    obtain ⟨before, behind, hsplit⟩ := hwindow
    obtain ⟨done, left, hleft⟩ := exists_uses_of_requests
      (hsplit.symm.trans (List.append_assoc before window behind))
    obtain ⟨i, hdue⟩ := exists_due (s.length_performAll done ▸ ht)
    have hlong : i < window.length := by
      rw [hlength, ← s.length_performAll done]
      exact hdue.1
    exact hdue.served ⟨behind, hleft.symm⟩ hlong hrun

/-- The stage for three threads. -/
def trio : LineFetch := new "fetch1" { host := { threads := 3 } } (.ofWords 0x80000000 [19, 115])

/-- A cycle in which nothing arrives and the slicer has room. -/
def Use.plain (number : Nat) : Use := .cycle number .empty .empty true

/-- Thread 0 stops while a line for thread 2 is in flight, and is woken again together with
thread 1. Later the slicer has no room for a line of thread 1, which a prediction then drops. -/
def relay : List Use :=
  [.wake 0, .wake 2, .plain 0, .plain 1, .cycle 2 (.live .suspend 0 0x80000008 2 1) .empty true,
    .wake 1, .wake 0, .plain 3, .plain 4, .cycle 5 .empty .empty false,
    .cycle 6 .empty (.live .prediction 1 0x80000004 1 2) false, .plain 7]

/-- Thread 2 has two requests in a row. Of the three that follow it has the last. -/
theorem requests_fair_relay :
    (trio.requests relay).map (·.thread) = [0, 2, 2, 0, 1, 2, 0] ∧
      (∀ r ∈ ((trio.requests relay).drop 3).take 3, r.stage.isRunning 2 = true) ∧
      ∃ r ∈ ((trio.requests relay).drop 3).take 3, r.thread = 2 := by
  have hwindow : ((trio.requests relay).drop 3).take 3 <:+: trio.requests relay :=
    (List.take_prefix 3 _).isInfix.trans (List.drop_suffix 3 _).isInfix
  have hrun : ∀ r ∈ ((trio.requests relay).drop 3).take 3, r.stage.isRunning 2 = true := by
    decide +kernel
  exact ⟨by decide +kernel, hrun,
    (requests_fair trio).served relay _ hwindow (by decide +kernel) 2 (by decide) hrun⟩

end LineFetch

end InOrder
