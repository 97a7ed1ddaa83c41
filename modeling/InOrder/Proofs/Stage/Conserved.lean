import InOrder.Proofs.Pipeline.Lanes

/-!
# Micro-ops that stages take in and give out

No stage makes or loses a micro-op on its way, but for the slicer, which makes them, and execute,
which retires and squashes them. Each counts what it does:

* `Slicer.numbers_evaluate`: what is cut in a cycle has the next numbers, and as many are counted.
* `Execute.ops_evaluate`: what leaves execute in a cycle is counted as retired or squashed, and what
  stays is in order.
-/

namespace InOrder

/-- The micro-ops of bundles, without their threads. -/
theorem Bundle.map_snd_flatMap_tagged (bs : List Bundle) :
    (bs.flatMap Bundle.tagged).map Prod.snd = bs.flatMap Bundle.insts := by
  rw [List.map_flatMap]
  exact congrArg (List.flatMap · bs) (funext Bundle.map_snd_tagged)

/-! ## The slicer -/

/-- What was cut between two moments has the numbers that were next. -/
def Cut.Numbers (c d : Cut) : Prop :=
  ∃ ops, d.ops = c.ops ++ ops ∧ d.nextSeq = c.nextSeq + ops.length ∧
    ops.map MicroOp.seqNum = (List.range' c.nextSeq ops.length).map UInt64.ofNat

namespace Cut.Numbers

variable {b c d : Cut}

theorem of_same (hops : d.ops = c.ops) (hnext : d.nextSeq = c.nextSeq) : c.Numbers d :=
  ⟨[], by rw [hops, List.append_nil], hnext, rfl⟩

theorem trans (h : b.Numbers c) (h' : c.Numbers d) : b.Numbers d := by
  obtain ⟨ops, hops, hnext, hnumbers⟩ := h
  obtain ⟨ops', hops', hnext', hnumbers'⟩ := h'
  refine ⟨ops ++ ops', ?_, ?_, ?_⟩
  · rw [hops', hops, List.append_assoc]
  · rw [hnext', hnext, List.length_append, Nat.add_assoc]
  · rw [List.map_append, hnumbers, hnumbers', hnext, List.length_append, ← List.map_append]
    exact congrArg (List.map _) List.range'_append_1

/-- One micro-op is cut. -/
theorem single {o : MicroOp} (hops : d.ops = c.ops ++ [o]) (hnext : d.nextSeq = c.nextSeq + 1)
    (ho : o.seqNum = UInt64.ofNat c.nextSeq) : c.Numbers d :=
  ⟨[o], hops, hnext, congrArg (fun n => [n]) ho⟩

theorem takeJump (c : Cut) (l : Line) (pc : UInt64) (inst : UInt32) (offset : Int) :
    c.Numbers (c.takeJump l pc inst offset) := by
  unfold Cut.takeJump
  dsimp only
  split <;> exact single rfl rfl rfl

theorem cutLine (predictJumps : Bool) (l : Line) :
    ∀ (room : Nat) (c : Cut), c.Numbers (cutLine predictJumps l room c).1
  | 0, c => of_same rfl rfl
  | room + 1, c => by
    have htake : ∀ inst, c.Numbers
        (InOrder.cutLine predictJumps l room (c.take l (c.cursor.getD l.pc) inst)).1 := fun inst =>
      (single (d := c.take l (c.cursor.getD l.pc) inst) rfl rfl rfl).trans
        (cutLine predictJumps l room _)
    rw [InOrder.cutLine]
    split
    · exact of_same rfl rfl
    · split
      · exact takeJump c l _ _ _
      · exact htake _

theorem cutQueue (predictJumps : Bool) (width : Nat) :
    ∀ (ls : List Line) (c : Cut), c.Numbers (cutQueue predictJumps width ls c).2
  | [], c => of_same rfl rfl
  | l :: rest, c => by
    rw [InOrder.cutQueue]
    split
    · exact of_same rfl rfl
    split
    · exact (of_same rfl rfl : c.Numbers
        { c with discarded := c.discarded + 1, cursor := none }).trans
          (cutQueue predictJumps width rest _)
    split
    · exact of_same rfl rfl
    have hline := cutLine predictJumps l (width - c.ops.length) c
    split
    · rename_i d hd
      rwa [hd] at hline
    · rename_i d hd
      rw [hd] at hline
      exact hline.trans (cutQueue predictJumps width rest d)
    · rename_i d hd
      rwa [hd] at hline

end Cut.Numbers

/-- **What is cut in a cycle has the next numbers**, and as many are counted. -/
theorem Slicer.numbers_evaluate {s : Slicer} (h : s.Entered) (hwidth : s.width < 256) (l : Line)
    (r : Redirect) (room : Bool) :
    ∃ ops, (s.evaluate l r room).bundle.toList.flatMap Bundle.insts = ops ∧
      (s.evaluate l r room).stage.nextSeq = s.nextSeq + ops.length ∧
      ops.map MicroOp.seqNum = (List.range' s.nextSeq ops.length).map UInt64.ofNat := by
  unfold evaluate
  simp only [follow_push]
  cases room with
  | false => exact ⟨[], rfl, rfl, rfl⟩
  | true =>
    let start : Cut := ⟨s.followed r, s.cursor, s.nextSeq, s.discarded, 0, [], none⟩
    have hcut := cutQueue_cut s.predictJumps s.width (s.loaded l r).input.entries start
      (entered_loaded h l r) (Nat.zero_le _) rfl
    have hnumbers : start.Numbers (s.loaded l r).cut.2 := .cutQueue ..
    obtain ⟨ops, hops, hnext, hnumbers⟩ := hnumbers
    have hlength : (s.loaded l r).cut.2.ops.length ≤ (s.loaded l r).cut.1.width := hcut.length
    have hbundle := tagged_bundle (show (s.loaded l r).cut.1.width < 256 from hwidth) hlength
    refine ⟨ops, ?_, hnext, hnumbers⟩
    simp only [if_true]
    rw [← Bundle.map_snd_flatMap_tagged, hbundle, List.map_map]
    exact (List.map_id _).trans hops

/-! ## Execute -/

/-- What issue came to between two moments, with the micro-ops that wait before and after: what is
in the units and waits is what was there, in order, but for what was squashed. -/
structure Issue.Moves (s : Issue) (os : List MicroOp) (s' : Issue) (os' : List MicroOp) :
    Prop where
  sublist : (s'.units.map (·.op) ++ os').Sublist (s.units.map (·.op) ++ os)
  count : s'.squashed + s'.units.length + os'.length = s.squashed + s.units.length + os.length

namespace Issue.Moves

variable {s s' s'' : Issue} {os os' os'' : List MicroOp}

theorem refl (s : Issue) (os : List MicroOp) : s.Moves os s os := ⟨.refl _, rfl⟩

theorem trans (h : s.Moves os s' os') (h' : s'.Moves os' s'' os'') : s.Moves os s'' os'' :=
  ⟨h'.sublist.trans h.sublist, h'.count.trans h.count⟩

theorem squash (s : Issue) (o : MicroOp) (os : List MicroOp) : s.Moves (o :: os) s.squash os where
  sublist := (List.Sublist.refl _).append (List.sublist_cons_self o os)
  count := by
    show s.squashed + 1 + s.units.length + os.length = _
    rw [List.length_cons]
    omega

theorem start (s : Issue) (doneAt : Nat) (t : UInt32) (th : ExecThread) (o : MicroOp)
    (os : List MicroOp) : s.Moves (o :: os) (s.start doneAt t th o) os where
  sublist := by
    show ((s.units ++ [(⟨t, o, doneAt⟩ : InFlight)]).map (·.op) ++ os).Sublist _
    rw [List.map_append, List.append_assoc]
    exact .refl _
  count := by
    show s.squashed + (s.units ++ [(⟨t, o, doneAt⟩ : InFlight)]).length + os.length = _
    rw [List.length_append, List.length_singleton, List.length_cons]
    omega

end Issue.Moves

/-- What is taken from a bundle is issued or squashed. -/
theorem issueOps_moves (lim : IssueLimits) (t : UInt32) (more : List MicroOp) :
    ∀ (os : List MicroOp) (s : Issue), ∃ n, (issueOps lim t os s).1.index = s.index + n ∧
      s.Moves (os ++ more) (issueOps lim t os s).1 (os.drop n ++ more)
  | [], s => ⟨0, rfl, .refl s more⟩
  | o :: rest, s => by
    have hsquash : ∃ n, (issueOps lim t rest s.squash).1.index = s.index + n ∧
        s.Moves (o :: rest ++ more) (issueOps lim t rest s.squash).1
          ((o :: rest).drop n ++ more) := by
      obtain ⟨n, hn, hmoves⟩ := issueOps_moves lim t more rest s.squash
      exact ⟨n + 1, hn.trans (Nat.add_right_comm ..), (Issue.Moves.squash s o _).trans hmoves⟩
    rw [issueOps]
    split
    · exact hsquash
    · split
      · exact hsquash
      · split
        · exact ⟨0, rfl, .refl s _⟩
        · split
          · exact ⟨1, rfl, .start s ..⟩
          · rename_i th _ _ _ th' _
            obtain ⟨n, hn, hmoves⟩ := issueOps_moves lim t more rest (s.start lim.doneAt t th' o)
            exact ⟨n + 1, hn.trans (Nat.add_right_comm ..),
              (Issue.Moves.start s lim.doneAt t th' o _).trans hmoves⟩

theorem map_snd_waitingOps (index : Nat) (b : Bundle) (rest : List Bundle) :
    (waitingOps index (b :: rest)).map Prod.snd =
      b.insts.drop index ++ rest.flatMap Bundle.insts := by
  rw [waitingOps, List.map_append, Bundle.map_snd_flatMap_tagged, List.map_map]
  exact congrArg (· ++ _) (List.map_id _)

theorem issueQueue_moves (lim : IssueLimits) : ∀ (bs : List Bundle) (s : Issue),
    s.Moves ((waitingOps s.index bs).map Prod.snd) (issueQueue lim bs s).2.1
      ((waitingOps (issueQueue lim bs s).2.1.index (issueQueue lim bs s).1).map Prod.snd)
  | [], s => .refl s _
  | b :: rest, s => by
    obtain ⟨n, hn, hmoves⟩ := issueOps_moves lim b.thread (rest.flatMap Bundle.insts)
      (b.insts.drop s.index) s
    obtain ⟨n', hn', hspent, -⟩ := issueOps_took lim b.thread [] (b.insts.drop s.index) s
    obtain ⟨s', e, he⟩ : ∃ s' e, issueOps lim b.thread (b.insts.drop s.index) s = (s', e) :=
      ⟨_, _, rfl⟩
    rw [he] at hn hmoves hn' hspent
    obtain rfl : n = n' := by
      simp only at hn hn'
      omega
    rw [← map_snd_waitingOps] at hmoves
    have hstay : s.Moves ((waitingOps s.index (b :: rest)).map Prod.snd) s'
        ((waitingOps s'.index (b :: rest)).map Prod.snd) := by
      rw [List.drop_drop, ← hn, ← map_snd_waitingOps] at hmoves
      exact hmoves
    rw [issueQueue, he]
    cases e with
    | spent =>
      have hrest := issueQueue_moves lim rest { s' with index := 0 }
      rw [hspent rfl, List.nil_append, ← Bundle.map_snd_flatMap_tagged, ← waitingOps_zero] at hmoves
      exact ⟨hrest.sublist.trans hmoves.sublist, hrest.count.trans hmoves.count⟩
    | blocked => exact hstay
    | raised r => exact hstay

namespace Execute

/-- The micro-ops of the stage: those in units and those that wait, oldest first. -/
def ops (s : Execute) : List MicroOp := s.units.map (·.op) ++ s.waiting.map Prod.snd

theorem length_ops (s : Execute) :
    s.ops.length = s.units.length + (s.waiting.map Prod.snd).length := by
  rw [ops, List.length_append, List.length_map]

/-- What is done leaves the units and is counted, and a bundle comes in behind the rest. -/
theorem ops_loaded {s : Execute} (h : s.Indexed) (cycle : Nat) (b : Bundle) :
    (s.loaded cycle b).ops.Sublist (s.ops ++ b.insts) ∧
      (s.loaded cycle b).retired + (s.loaded cycle b).ops.length =
        s.retired + s.ops.length + b.insts.length := by
  have hwaiting : (s.loaded cycle b).waiting.map Prod.snd = s.waiting.map Prod.snd ++ b.insts := by
    rw [waiting_loaded h, List.map_append, Bundle.map_snd_tagged]
  have hunits : (s.units.takeWhile (isDone cycle)).length +
      (s.units.dropWhile (isDone cycle)).length = s.units.length := by
    rw [← List.length_append, List.takeWhile_append_dropWhile]
  constructor
  · rw [ops, hwaiting, ← List.append_assoc]
    exact (((List.dropWhile_sublist _).map _).append_right _).append_right _
  · rw [length_ops, hwaiting, List.length_append, length_ops]
    show s.retired + ((s.units.takeWhile (isDone cycle)).map InFlight.retired).length +
      ((s.units.dropWhile (isDone cycle)).length + _) = _
    rw [List.length_map]
    omega

/-- What issue takes is put into a unit, or counted as squashed. -/
theorem ops_issue (s : Execute) (cycle : Nat) :
    (s.issue cycle).1.ops.Sublist s.ops ∧
      (s.issue cycle).1.squashed + (s.issue cycle).1.ops.length = s.squashed + s.ops.length := by
  have hmoves := issueQueue_moves ⟨s.draining, s.unitCount, cycle + s.latency⟩ s.input.entries
    ⟨s.threads, s.units, s.squashed, s.issueIndex, []⟩
  refine ⟨hmoves.sublist, ?_⟩
  rw [length_ops, length_ops, ← Nat.add_assoc, ← Nat.add_assoc]
  exact hmoves.count

/-- **What leaves execute in a cycle is counted as retired or squashed**, and what stays is in
order. -/
theorem ops_evaluate {s : Execute} (h : s.Indexed) (cycle : Nat) (b : Bundle) :
    (s.evaluate cycle b).stage.ops.Sublist (s.ops ++ b.insts) ∧
      (s.evaluate cycle b).stage.retired + (s.evaluate cycle b).stage.squashed +
          (s.evaluate cycle b).stage.ops.length =
        s.retired + s.squashed + s.ops.length + b.insts.length := by
  obtain ⟨hsublist, hretired⟩ := ops_loaded h cycle b
  obtain ⟨hissued, hsquashed⟩ := (s.loaded cycle b).ops_issue cycle
  obtain ⟨threads, hend⟩ := ((s.loaded cycle b).issue cycle).1.orHalt_eq
    ((s.loaded cycle b).issue cycle).2.1
  rw [stage_evaluate, hend]
  refine ⟨hissued.trans hsublist, ?_⟩
  show (s.loaded cycle b).retired + ((s.loaded cycle b).issue cycle).1.squashed +
    ((s.loaded cycle b).issue cycle).1.ops.length = _
  rw [show (s.loaded cycle b).squashed = s.squashed from rfl] at hsquashed
  omega

/-- The index stays that of a bundle that is queued. -/
theorem indexed_evaluate {s : Execute} (h : s.Indexed) (cycle : Nat) (b : Bundle) :
    (s.evaluate cycle b).stage.Indexed := by
  obtain ⟨threads, hend⟩ := ((s.loaded cycle b).issue cycle).1.orHalt_eq
    ((s.loaded cycle b).issue cycle).2.1
  rw [stage_evaluate, hend]
  exact indexed_issue (indexed_loaded h cycle b) cycle

end Execute

end InOrder
