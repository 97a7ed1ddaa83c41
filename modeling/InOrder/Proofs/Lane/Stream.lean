import InOrder.Proofs.Lane.Route

/-!
# The micro-ops of a stream

The micro-ops that are cut for a thread in one stream lead on from each other: each is where the one
before it was predicted to lead, and the first is where the stream begins. A word that would lie in
two lines is an exception. It is in neither of them as a whole, so that the slicer leaves the line
before it, and goes on with the first word of the next line (`firstWord`).

* `Line.Placed.firstWord_next`: a line that has no further word, although it is not at its end, hands
  over to the next one.
* `Lane.Delivers.step` and `Lane.Delivers.steps`: the line fetch and the slicer keep what was cut so
  far a run of this kind, and the lines and predictions of the lane ahead of it.
-/

namespace InOrder

/-! ## Words in lines -/

/-- The first address from `a` on at which a word is in one line. -/
def firstWord (size a : UInt64) : UInt64 :=
  if a.toNat % size.toNat + 4 ≤ size.toNat then a else a - a % size + size

/-- The line of an address ends before the addresses do. -/
def LineFits (size pc : UInt64) : Prop :=
  pc.toNat - pc.toNat % size.toNat + size.toNat ≤ 2 ^ 64

instance (size pc : UInt64) : Decidable (LineFits size pc) := Nat.decLe _ _

/-- Where words are aligned, they do not lie in two lines. -/
theorem firstWord_of_aligned {k : Track} (hk : k.Whole) {a : UInt64} (ha : a.toNat % 4 = 0) :
    firstWord k.lineBytes a = a := by
  have hpositive := hk.positive
  have hwords := hk.words
  have hlt := Nat.mod_lt a.toNat hpositive
  have hmod : a.toNat % k.lineBytes.toNat % 4 = 0 := by
    rw [Nat.mod_mod_of_dvd _ (Nat.dvd_of_mod_eq_zero hwords), ha]
  rw [firstWord, if_pos (by omega)]

/-- The line begins where lines do. It ends before the addresses do, if a word was cut from it. -/
structure Line.Placed (k : Track) (l : Line) : Prop extends l.Within k where
  whole : l.lineBase.toNat % k.lineBytes.toNat = 0
  ends : l.lineBase.toNat + k.lineBytes.toNat ≤ 2 ^ 64 ∨ l.lineBase = l.pc - l.pc % k.lineBytes

namespace Line.Placed

variable {k : Track} {l : Line}

theorem request (hk : k.Whole) (th : FetchThread) : (th.line k).Placed k where
  toWithin := Line.within_request hk th
  whole := by
    rw [show (th.line k).lineBase = th.lineBase k from rfl, (th.toNat_lineBase hk).1]
    exact Nat.mod_eq_zero_of_dvd (Nat.dvd_sub_mod _)
  ends := .inr rfl

/-- Where a line is entered, as an address and as a place in the line. -/
theorem toNat_pc (h : l.Placed k) (hin : (l.pc - l.lineBase).toNat < k.lineBytes.toNat) :
    l.pc.toNat = l.lineBase.toNat + (l.pc - l.lineBase).toNat ∧
      l.pc.toNat % k.lineBytes.toNat = (l.pc - l.lineBase).toNat := by
  have hoffset : l.pc.toNat = l.lineBase.toNat + (l.pc - l.lineBase).toNat := by
    have hbase := l.lineBase.toNat_lt
    have hpc := l.pc.toNat_lt
    have hsub := UInt64.toNat_sub l.pc l.lineBase
    rcases h.ends with hends | hfresh
    · omega
    · have hle := Nat.mod_le l.pc.toNat k.lineBytes.toNat
      have hstart := toNat_sub_mod l.pc k.lineBytes
      rw [← hfresh] at hstart
      omega
  refine ⟨hoffset, ?_⟩
  rw [hoffset, Nat.add_mod, h.whole, Nat.zero_add, Nat.mod_mod, Nat.mod_eq_of_lt hin]

/-- A word that is in a line is the first one from its address on. -/
theorem firstWord_pc (h : l.Placed k)
    (hin : (l.pc - l.lineBase).toNat + 4 ≤ k.lineBytes.toNat) :
    firstWord k.lineBytes l.pc = l.pc := by
  obtain ⟨-, hmod⟩ := h.toNat_pc (by omega)
  rw [firstWord, hmod, if_pos hin]

/-- A line with no further word ends before the addresses do. -/
theorem ends_of_past (h : l.Placed k) (hk : k.Whole)
    (hpast : k.lineBytes.toNat < (l.pc - l.lineBase).toNat + 4) :
    l.lineBase.toNat + k.lineBytes.toNat ≤ 2 ^ 64 := by
  have hpc := l.pc.toNat_lt
  have haligned := h.aligned
  have hwords := hk.words
  rcases Nat.lt_or_ge (l.pc - l.lineBase).toNat k.lineBytes.toNat with hin | hend
  · have hoffset := (h.toNat_pc hin).1
    omega
  · rcases h.ends with hends | hfresh
    · exact hends
    · have hlt := Nat.mod_lt l.pc.toNat hk.positive
      have hle := Nat.mod_le l.pc.toNat k.lineBytes.toNat
      have hsub := UInt64.toNat_sub l.pc l.lineBase
      have hstart := toNat_sub_mod l.pc k.lineBytes
      rw [← hfresh] at hstart
      omega

/-- The next line begins with a word. -/
theorem firstWord_end (h : l.Placed k) (hk : k.Whole)
    (hends : l.lineBase.toNat + k.lineBytes.toNat ≤ 2 ^ 64) :
    firstWord k.lineBytes (l.lineBase + k.lineBytes) = l.lineBase + k.lineBytes := by
  have hpositive := hk.positive
  have hwords := hk.words
  have hnext : (l.lineBase + k.lineBytes).toNat % k.lineBytes.toNat = 0 := by
    rw [UInt64.toNat_add]
    rcases Nat.lt_or_eq_of_le hends with hlt | heq
    · rw [Nat.mod_eq_of_lt hlt, Nat.add_mod_right, h.whole]
    · rw [heq, Nat.mod_self, Nat.zero_mod]
  rw [firstWord, hnext, if_pos (by omega)]

/-- **After a line with no further word, the first word is that of the next line.** -/
theorem firstWord_next (h : l.Placed k) (hk : k.Whole) (hword : l.wordAt? l.pc = none) :
    firstWord k.lineBytes (l.lineBase + k.lineBytes) = firstWord k.lineBytes l.pc := by
  have hpast := Line.wordAt?_eq_none h.data hword
  have hentered := h.entered
  rw [h.firstWord_end hk (h.ends_of_past hk hpast)]
  rcases Nat.lt_or_eq_of_le hentered with hin | hend
  · obtain ⟨hoffset, hmod⟩ := h.toNat_pc hin
    have hstart : l.pc - l.pc % k.lineBytes = l.lineBase := by
      refine UInt64.toNat_inj.mp ?_
      rw [toNat_sub_mod]
      omega
    rw [firstWord, hmod, if_neg (by omega), hstart]
  · have hpc : l.lineBase + k.lineBytes = l.pc := by
      rw [← UInt64.toNat_inj.mp hend, UInt64.add_comm, UInt64.sub_add_cancel]
    rw [← hpc, h.firstWord_end hk (h.ends_of_past hk hpast)]

/-- The line stays placed when a word is cut from it. -/
theorem enter_next (h : l.Placed k) (hin : (l.pc - l.lineBase).toNat + 4 ≤ k.lineBytes.toNat)
    (hfits : LineFits k.lineBytes l.pc) : (l.enter (Isa.nextWord l.pc)).Placed k where
  toWithin := h.toWithin.enter_next hin
  whole := h.whole
  ends := by
    obtain ⟨hoffset, hmod⟩ := h.toNat_pc (by omega)
    refine .inl ?_
    show l.lineBase.toNat + _ ≤ _
    unfold LineFits at hfits
    omega

end Line.Placed

/-! ## Micro-ops that lead on from each other -/

/-- Where fetch goes on after a micro-op. -/
def MicroOp.following (o : MicroOp) : UInt64 :=
  if o.predictedTaken.isSet then o.predictedTarget else Isa.nextWord o.pc

theorem MicroOp.following_of_clear {o : MicroOp} (h : o.predictedTaken = .clear) :
    o.following = Isa.nextWord o.pc := by
  rw [following, h, if_neg (by simp)]

theorem MicroOp.following_of_set {o : MicroOp} (h : o.predictedTaken = .set) :
    o.following = o.predictedTarget := by
  rw [following, h, if_pos (by simp)]

/-- Where fetch goes on from `a` when it has delivered the micro-ops. -/
def leadsTo (a : UInt64) (os : List MicroOp) : UInt64 := os.foldl (fun _ o => o.following) a

/-- Each micro-op is the first word from where the one before it leads, and the first of them is the
first word from `a` on. -/
def RunsOn (size : UInt64) : UInt64 → List MicroOp → Prop
  | _, [] => True
  | a, o :: os => o.pc = firstWord size a ∧ RunsOn size o.following os

theorem leadsTo_concat (a : UInt64) (os : List MicroOp) (o : MicroOp) :
    leadsTo a (os ++ [o]) = o.following := by
  rw [leadsTo, List.foldl_concat]

theorem RunsOn.concat {size : UInt64} {o : MicroOp} : ∀ {a : UInt64} {os : List MicroOp},
    RunsOn size a os → o.pc = firstWord size (leadsTo a os) → RunsOn size a (os ++ [o])
  | _, [], _, ho => ⟨ho, trivial⟩
  | _, _ :: _, ⟨hpc, h⟩, ho => ⟨hpc, h.concat ho⟩

/-- The micro-ops of a stream. -/
def opsOf (x : UInt64) (os : List MicroOp) : List MicroOp :=
  os.filter fun o => decide (o.streamSeq = x)

theorem opsOf_concat (os : List MicroOp) (o : MicroOp) :
    opsOf o.streamSeq (os ++ [o]) = opsOf o.streamSeq os ++ [o] := by
  rw [opsOf, opsOf, List.filter_append, List.filter_cons_of_pos (by simp), List.filter_nil]

theorem opsOf_concat_of_ne {x : UInt64} {o : MicroOp} (h : o.streamSeq ≠ x) (os : List MicroOp) :
    opsOf x (os ++ [o]) = opsOf x os := by
  rw [opsOf, List.filter_append, List.filter_cons_of_neg (by simpa using h), List.filter_nil,
    List.append_nil, opsOf]

/-! ## What is delivered -/

/-- A stream of a thread, and where it begins. -/
structure StreamStart where
  streamSeq : UInt64
  pc : UInt64
deriving DecidableEq

/-- The stream that a redirect begins. -/
def Redirect.start (r : Redirect) : StreamStart := ⟨r.newStreamSeq, r.target⟩

namespace Lane

variable {k : Track} {v w : Lane} {starts : List StreamStart} {sent : List MicroOp}

/-- In a lane of which the streams `starts` have begun and the micro-ops `sent` were cut, every
stream runs on, and what the lane holds of its stream goes on after it. -/
structure Delivers (k : Track) (starts : List StreamStart) (sent : List MicroOp) (v : Lane) :
    Prop where
  lines : ∀ l ∈ v.lines, l.Placed k
  words : ∀ o ∈ sent, o.inst = k.image.wordAt o.pc
  begun : v.fetch.streamSeq ∈ starts.map StreamStart.streamSeq
  started : ∀ o ∈ sent, o.streamSeq ∈ starts.map StreamStart.streamSeq
  older : ∀ s ∈ starts, ordinal s.streamSeq ≤ ordinal v.fetch.streamSeq
  runs : ∀ s ∈ starts, RunsOn k.lineBytes s.pc (opsOf s.streamSeq sent)
  /-- Cutting goes on after the last micro-op of the stream, or in the next line. -/
  ahead : ∀ s ∈ starts, s.streamSeq = v.fetch.streamSeq → ∃ a, v.Ahead k a ∧
    firstWord k.lineBytes a = firstWord k.lineBytes (leadsTo s.pc (opsOf s.streamSeq sent))

namespace Delivers

theorem start (k : Track) :
    (Lane.start k.image.entry).Delivers k [⟨firstSeq, k.image.entry⟩] [] where
  lines l hl := absurd hl (by simp [Lane.start])
  words o ho := absurd ho (by simp)
  begun := List.mem_singleton_self _
  started o ho := absurd ho (by simp)
  older s hs := by
    rw [List.mem_singleton.mp hs]
    exact Nat.le_refl _
  runs _ _ := trivial
  ahead s hs _ := by
    rw [List.mem_singleton.mp hs]
    exact ⟨k.image.entry, .start k k.image.entry, rfl⟩

/-- What execute does to a lane is not seen here. -/
theorem serve (h : v.Delivers k starts sent) (issued : List (UInt64 × UInt32)) (exec : ExecThread)
    (ops : List MicroOp) (redirects : List Redirect) :
    ({ v with issued, exec, ops, redirects } : Lane).Delivers k starts sent :=
  ⟨h.lines, h.words, h.begun, h.started, h.older, h.runs, h.ahead⟩

/-! ### Every step keeps what is delivered -/

/-- A step that cuts nothing leaves cutting where it was, or leads over the end of a line. -/
theorem keep (h : v.Delivers k starts sent) (hstream : w.fetch.streamSeq = v.fetch.streamSeq)
    (hlines : ∀ l ∈ w.lines, l.Placed k)
    (hahead : ∀ a, v.Ahead k a →
      ∃ a', w.Ahead k a' ∧ firstWord k.lineBytes a' = firstWord k.lineBytes a) :
    w.Delivers k starts sent := by
  refine ⟨hlines, h.words, hstream ▸ h.begun, h.started, hstream ▸ h.older, h.runs, ?_⟩
  intro s hs hcur
  obtain ⟨a, ha, hfirst⟩ := h.ahead s hs (hcur.trans hstream)
  obtain ⟨a', ha', hfirst'⟩ := hahead a ha
  exact ⟨a', ha', hfirst'.trans hfirst⟩

theorem drop (hk : k.Whole) (h : v.Delivers k starts sent) (hn : v.Numbered) {l : Line}
    {rest : List Line} (hlines : v.lines = l :: rest)
    (hdone : ¬ l.Carries v.expected ∨ l.wordAt? l.pc = none) :
    ({ v with lines := rest } : Lane).Delivers k starts sent := by
  refine h.keep rfl (fun l' hl' => h.lines l' (hlines ▸ List.mem_cons_of_mem l hl')) fun a ha => ?_
  by_cases hcarries : l.Carries v.expected
  · have hplaced := h.lines l (hlines ▸ List.mem_cons_self)
    have hnone := hdone.resolve_left (not_not_intro hcarries)
    refine ⟨l.lineBase + k.lineBytes, ha.leave hn hlines hcarries, ?_⟩
    rw [hplaced.firstWord_next hk hnone, (ha.entered hn hlines hcarries).1]
  · exact ⟨a, ha.skip hn hlines hcarries, rfl⟩

/-- A micro-op that is cut is the first word from where its stream has led. -/
theorem push (h : v.Delivers k starts sent) (hn : v.Numbered) {l : Line} {rest : List Line}
    (hlines : v.lines = l :: rest) (hcarries : l.Carries v.expected) {o : MicroOp}
    (hseq : o.streamSeq = l.streamSeq) (hpc : o.pc = l.pc)
    (hword : l.wordAt? l.pc = some o.inst) (hfetch : w.fetch = v.fetch)
    (hplaced : ∀ l ∈ w.lines, l.Placed k) (hahead : ∀ a, v.Ahead k a → w.Ahead k o.following) :
    w.Delivers k starts (sent ++ [o]) := by
  have hl := h.lines l (hlines ▸ List.mem_cons_self)
  obtain ⟨hinst, hin⟩ := hl.wordAt hword
  have hcur : o.streamSeq = v.fetch.streamSeq := hseq.trans (hcarries.1.trans hn.stream)
  refine ⟨hplaced, ?_, hfetch ▸ h.begun, ?_, hfetch ▸ h.older, ?_, ?_⟩
  · intro o' ho'
    rcases List.mem_append.mp ho' with ho' | ho'
    · exact h.words o' ho'
    · rw [List.mem_singleton.mp ho', hinst, hpc]
  · intro o' ho'
    rcases List.mem_append.mp ho' with ho' | ho'
    · exact h.started o' ho'
    · rw [List.mem_singleton.mp ho', hcur]
      exact h.begun
  · intro s hs
    by_cases hstream : o.streamSeq = s.streamSeq
    · obtain ⟨a, ha, hfirst⟩ := h.ahead s hs (hstream.symm.trans hcur)
      have hentered := (ha.entered hn hlines hcarries).1
      rw [← hstream, opsOf_concat, hstream]
      refine (h.runs s hs).concat ?_
      rw [← hfirst, ← hentered, hl.firstWord_pc hin, hpc]
    · rw [opsOf_concat_of_ne hstream]
      exact h.runs s hs
  · intro s hs hstream
    obtain ⟨a, ha, -⟩ := h.ahead s hs (hstream.trans (congrArg _ hfetch))
    have hsame : s.streamSeq = o.streamSeq := (hstream.trans (congrArg _ hfetch)).trans hcur.symm
    refine ⟨o.following, hahead a ha, ?_⟩
    rw [hsame, opsOf_concat, leadsTo_concat]

/-- A redirect begins a stream of which nothing was cut. -/
theorem follow (h : v.Delivers k starts sent) (hn : v.Numbered) {r : Redirect}
    {rest ps : List Redirect} (hr : v.redirects = r :: rest) (hps : ∀ p ∈ ps, p ∈ v.predictions) :
    ({ v with
        redirects := rest, predictions := ps
        expected := ⟨r.newStreamSeq, r.newPredictionSeq⟩
        fetch := ⟨.after r.reason, r.target, r.newStreamSeq, r.newPredictionSeq⟩ } :
      Lane).Delivers k (starts ++ [r.start]) sent := by
  have holder : ∀ s ∈ starts, s.streamSeq ≠ r.newStreamSeq := fun s hs =>
    (hn.arrive hr (h.older s hs)).2
  have hnone : opsOf r.newStreamSeq sent = [] := by
    refine List.filter_eq_nil_iff.mpr fun o ho hcur => ?_
    obtain ⟨s, hs, hstream⟩ := List.mem_map.mp (h.started o ho)
    exact holder s hs (hstream.trans (of_decide_eq_true hcur))
  have hstart : r.start.streamSeq = r.newStreamSeq := rfl
  have hmap : (starts ++ [r.start]).map StreamStart.streamSeq =
      starts.map StreamStart.streamSeq ++ [r.newStreamSeq] := List.map_append
  refine ⟨h.lines, h.words, ?_, fun o ho => ?_, fun s hs => ?_, fun s hs => ?_, fun s hs hcur => ?_⟩
  · rw [hmap]
    exact List.mem_append_right _ (List.mem_singleton_self _)
  · rw [hmap]
    exact List.mem_append_left _ (h.started o ho)
  · rcases List.mem_append.mp hs with hs | hs
    · exact (hn.arrive hr (h.older s hs)).1
    · rw [List.mem_singleton.mp hs]
      exact Nat.le_refl _
  · rcases List.mem_append.mp hs with hs | hs
    · exact h.runs s hs
    · rw [List.mem_singleton.mp hs, hstart, hnone]
      trivial
  · rcases List.mem_append.mp hs with hs | hs
    · exact absurd hcur (holder s hs)
    · rw [List.mem_singleton.mp hs, hstart, hnone]
      exact ⟨r.target, Ahead.follow hn hr hps, rfl⟩

/-- **A step that adds micro-ops and takes redirects keeps every stream running on**: the micro-ops
go on in their stream, and the redirects begin streams. -/
theorem step (hk : k.Whole) (h : v.Delivers k starts sent) (hn : v.Numbered) (hs : Step k v w)
    {made : List MicroOp} {taken : List Redirect} (hops : w.ops = v.ops ++ made)
    (hredirects : v.redirects = taken ++ w.redirects)
    (hfits : ∀ o ∈ made, LineFits k.lineBytes o.pc) :
    w.Delivers k (starts ++ taken.map Redirect.start) (sent ++ made) := by
  have hmade := congrArg List.length hops
  have htaken := congrArg List.length hredirects
  rw [List.length_append] at hmade htaken
  -- no step of execute adds a micro-op or takes a redirect
  have hserved : ∀ {o : MicroOp} {rest : List MicroOp}, v.ops = o :: rest → w.ops ≠ rest := by
    intro o rest hcons hrest
    rw [hrest, hcons, List.length_cons] at hmade
    omega
  -- most steps cut nothing and take no redirect
  have hplain : w.ops = v.ops → w.redirects = v.redirects → w.Delivers k starts sent →
      w.Delivers k (starts ++ taken.map Redirect.start) (sent ++ made) := by
    intro hsame hsame' hw
    obtain rfl : made = [] := List.self_eq_append_right.mp (hsame.symm.trans hops)
    obtain rfl : taken = [] := List.self_eq_append_left.mp (hsame'.trans hredirects)
    rwa [List.map_nil, List.append_nil, List.append_nil]
  cases hs with
  | squash o rest hcons hold => exact absurd rfl (hserved hcons)
  | issue o rest th hcons hcur hissue => exact absurd rfl (hserved hcons)
  | raise o rest th r hcons hcur hissue hfresh => exact absurd rfl (hserved hcons)
  | halt hpending hfresh =>
    rw [List.length_append, List.length_singleton] at htaken
    omega
  | drop l rest hlines hdone => exact hplain rfl rfl (h.drop hk hn hlines hdone)
  | cut l rest inst seq hlines hcarries hword hjump =>
    obtain rfl := List.append_cancel_left hops
    obtain rfl : taken = [] := List.self_eq_append_left.mp hredirects
    rw [List.map_nil, List.append_nil]
    have hl := h.lines l (hlines ▸ List.mem_cons_self)
    refine h.push hn hlines hcarries rfl rfl hword rfl (fun l' hl' => ?_) fun a ha => ?_
    · rcases List.mem_cons.mp hl' with rfl | hl'
      · exact hl.enter_next (hl.wordAt hword).2 (hfits _ (List.mem_singleton_self _))
      · exact h.lines l' (hlines ▸ List.mem_cons_of_mem l hl')
    · rw [MicroOp.following_of_clear rfl]
      exact ha.cut hn hlines hcarries _ _
  | cutJump l rest inst offset seq hlines hcarries hword hjump hfresh =>
    obtain rfl := List.append_cancel_left hops
    obtain rfl : taken = [] := List.self_eq_append_left.mp hredirects
    rw [List.map_nil, List.append_nil]
    refine h.push hn hlines hcarries rfl rfl hword rfl
      (fun l' hl' => h.lines l' (hlines ▸ List.mem_cons_of_mem l hl')) fun a _ => ?_
    rw [MicroOp.following_of_set rfl]
    exact Ahead.cutJump hn hlines hcarries rest _ _ (p := .live .prediction k.thread
      (Isa.displace l.pc offset) l.streamSeq (v.expected.predictionSeq + 1)) rfl
  | follow r rest ps hcons hps =>
    obtain rfl : made = [] := List.self_eq_append_right.mp hops
    obtain rfl : taken = [r] := List.append_cancel_right (hredirects.symm.trans hcons)
    rw [List.append_nil]
    exact h.follow hn hcons fun p hp => mem_of_passed hps hp
  | overtake p rest hpredictions =>
    exact hplain rfl rfl (h.keep rfl h.lines fun a ha => ⟨a, ha.overtake hpredictions, rfl⟩)
  | heed p rest hpredictions hruns hstream =>
    exact hplain rfl rfl (h.keep rfl h.lines fun a ha => ⟨a, ha.heed hn hpredictions hstream, rfl⟩)
  | ignore p rest hpredictions hold =>
    exact hplain rfl rfl (h.keep rfl h.lines fun a ha => ⟨a, ha.ignore hn hpredictions hold, rfl⟩)
  | forget lines l hlines hold =>
    have hplaced : ∀ l' ∈ lines, l'.Placed k := fun l' hl' =>
      h.lines l' (hlines ▸ List.mem_append_left [l] hl')
    exact hplain rfl rfl (h.keep rfl hplaced fun a ha => ⟨a, ha.forget hlines hold, rfl⟩)
  | request hruns =>
    refine hplain rfl rfl (h.keep rfl (fun l hl => ?_) fun a ha => ⟨a, ha.request, rfl⟩)
    rcases List.mem_append.mp hl with hl | hl
    · exact h.lines l hl
    · rw [List.mem_singleton.mp hl]
      exact .request hk v.fetch
  | wake => exact hplain rfl rfl (h.keep rfl h.lines fun a ha => ⟨a, ha, rfl⟩)

/-- **The streams run on after any number of steps of the line fetch and the slicer.** -/
theorem steps (hk : k.Whole) (hfresh : ∀ x, k.fresh x → x ≠ firstSeq)
    (h : v.Delivers k starts sent) (hn : v.Numbered) (hs : SupplySteps k v w) :
    ∀ {made : List MicroOp} {taken : List Redirect}, w.ops = v.ops ++ made →
      v.redirects = taken ++ w.redirects → (∀ o ∈ made, LineFits k.lineBytes o.pc) →
        w.Delivers k (starts ++ taken.map Redirect.start) (sent ++ made) := by
  induction hs with
  | refl =>
    intro made taken hops hredirects _
    obtain rfl : made = [] := List.self_eq_append_right.mp hops
    obtain rfl : taken = [] := List.self_eq_append_left.mp hredirects
    rwa [List.map_nil, List.append_nil, List.append_nil]
  | tail hpre hlast ih =>
    intro made taken hops hredirects hfits
    obtain ⟨before, hbefore⟩ := SupplySteps.ops hpre
    obtain ⟨after, hafter⟩ := hlast.ops
    obtain ⟨first, hfirst⟩ := SupplySteps.redirects hpre
    obtain ⟨last, hlast'⟩ := hlast.redirects
    obtain rfl : made = before ++ after := by
      rw [← hafter, ← hbefore, List.append_assoc] at hops
      exact (List.append_cancel_left hops).symm
    obtain rfl : taken = first ++ last := by
      rw [← hfirst, ← hlast', ← List.append_assoc] at hredirects
      exact (List.append_cancel_right hredirects).symm
    have hkept := ih hbefore.symm hfirst.symm fun o ho => hfits o (List.mem_append_left _ ho)
    have hnumbered := hn.steps hfresh (SupplySteps.steps hpre)
    rw [List.map_append, ← List.append_assoc, ← List.append_assoc]
    exact hkept.step hk hnumbered hlast.step hafter.symm hlast'.symm fun o ho =>
      hfits o (List.mem_append_right _ ho)

end Delivers

end Lane

end InOrder
