import InOrder.Proofs.Pipeline.Start
import Mathlib.Data.List.Rotate

/-!
# The delay of a register

Whatever is done to a register in its cycles, it shows at the output what stood at the input when a
cycle ended, `depth` cycles later. Here the register is compared with a ledger that forgets nothing:
`Ledger.done` has what stood at the input at the end of each cycle, `Ledger.current` what stands
there now, and `Ledger.flipped` the bits that were flipped at the output since the cycle began. The
slots of the register are the last `depth` entries, blank where there are not so many yet, and the
current one (`Ledger.inside`).

Slots that all move in a cycle need not be moved in memory. A `Ring` keeps them in a block of
`depth + 1` places and moves the place of the input instead: it goes to the place of the output,
whose payload has been seen. Its list of slots goes through the same changes (`Ring.Lists.perform`).

* `Register.delays`: after any uses a register shows what its ledger says, and a ring lists the same
  slots; and of the flips in a cycle nothing is left when the cycle has ended.
-/

namespace InOrder

/-- What is done to a register. -/
inductive Register.Use (α : Type) where
  /-- Replace what stands at the input. -/
  | write (a : α)
  /-- Change what stands at the input in place. -/
  | edit (f : α → α)
  /-- Flip a bit of what stands at the output. -/
  | flip (bit : Nat)
  /-- End the cycle. -/
  | advance

open Register (Use)

variable {α : Type}

/-- The use is a flip. -/
def Register.Use.isFlip : Use α → Bool
  | .flip _ => true
  | _ => false

/-! ## The ledger -/

/-- What was done to a register, from the first cycle on. -/
structure Ledger (α : Type) where
  /-- What stood at the input at the end of each cycle that is over. -/
  done : List α
  /-- What stands at the input. -/
  current : α
  /-- The bits that were flipped at the output in this cycle. -/
  flipped : List Nat

namespace Ledger

variable {depth : Nat} {blank : α} {l : Ledger α}

/-- The ledger after a use. A cycle begins with a blank input and no flip. -/
def note (blank : α) (l : Ledger α) : Use α → Ledger α
  | .write a => { l with current := a }
  | .edit f => { l with current := f l.current }
  | .flip bit => { l with flipped := l.flipped ++ [bit] }
  | .advance => ⟨l.done ++ [l.current], blank, []⟩

/-- The ledger of some uses of a new register. -/
def ofUses (blank : α) (uses : List (Use α)) : Ledger α := uses.foldl (note blank) ⟨[], blank, []⟩

theorem ofUses_concat (blank : α) (uses : List (Use α)) (u : Use α) :
    ofUses blank (uses ++ [u]) = (ofUses blank uses).note blank u := List.foldl_concat ..

/-- What stood at the input in the last `depth` cycles that are over. -/
def recent (depth : Nat) (blank : α) (l : Ledger α) : List α :=
  (List.replicate depth blank ++ l.done).drop l.done.length

theorem length_recent : (l.recent depth blank).length = depth := by
  rw [recent, List.length_drop, List.length_append, List.length_replicate, Nat.add_sub_cancel]

theorem exists_recent_eq_cons (h : 0 < depth) : ∃ a rest, l.recent depth blank = a :: rest :=
  List.exists_cons_of_length_pos (length_recent.symm ▸ h)

/-- When a cycle ends the oldest entry is out. -/
theorem recent_advance (h : 0 < depth) :
    (l.note blank .advance).recent depth blank = (l.recent depth blank).tail ++ [l.current] := by
  have hle : (l.done ++ [l.current]).length ≤ (List.replicate depth blank ++ l.done).length := by
    simp only [List.length_append, List.length_replicate, List.length_singleton]
    omega
  rw [note, recent, recent, ← List.append_assoc, List.drop_append_of_le_length hle,
    List.length_append, List.length_singleton, List.tail_drop]

/-- The oldest of what is recent stood at the input `depth` cycles ago. -/
theorem head_recent {c : Nat} (h : l.done.length = c + depth) :
    (l.recent depth blank).head? = l.done[c]? := by
  have hle : depth ≤ l.done.length := h ▸ Nat.le_add_left depth c
  rw [recent, List.head?_drop, List.getElem?_append_right (by simpa using hle), h,
    List.length_replicate, Nat.add_sub_cancel]

/-- In the first cycles it is blank. -/
theorem head_recent_of_lt (h : l.done.length < depth) :
    (l.recent depth blank).head? = some blank := by
  rw [recent, List.head?_drop, List.getElem?_append_left (by simpa using h),
    List.getElem?_replicate, if_pos h]

/-- Flips are forgotten when the cycle ends. -/
theorem ofUses_filter (blank : α) (uses later : List (Use α)) :
    ofUses blank (uses.filter (!·.isFlip) ++ .advance :: later) =
      ofUses blank (uses ++ .advance :: later) := by
  have hforgotten : ∀ {l l' : Ledger α}, l'.done = l.done → l'.current = l.current →
      ((uses.filter (!·.isFlip)).foldl (note blank) l').note blank .advance =
        (uses.foldl (note blank) l).note blank .advance := by
    induction uses with
    | nil =>
      intro l l' hdone hcurrent
      show (⟨l'.done ++ [l'.current], blank, []⟩ : Ledger α) = ⟨l.done ++ [l.current], blank, []⟩
      rw [hdone, hcurrent]
    | cons u uses ih =>
      intro l l' hdone hcurrent
      cases u with
      | write a => exact ih hdone rfl
      | edit f => exact ih hdone (congrArg f hcurrent)
      | flip bit => exact ih hdone hcurrent
      | advance => exact ih (by rw [note, note, hdone, hcurrent]) rfl
  rw [ofUses, List.foldl_append, List.foldl_cons, hforgotten rfl rfl, ofUses, List.foldl_append,
    List.foldl_cons]

end Ledger

/-- A line is what its slots are. -/
theorem DelayLine.eq_of_slots {l l' : DelayLine α} (hblank : l.blank = l'.blank)
    (hslots : l.slots = l'.slots) : l = l' := by
  obtain ⟨blank, output, middle, input⟩ := l
  obtain ⟨blank', output', middle', input'⟩ := l'
  obtain rfl : blank = blank' := hblank
  obtain ⟨rfl, hrest⟩ := List.cons.inj hslots
  obtain ⟨rfl, hinput⟩ := List.append_inj' hrest rfl
  obtain rfl : input = input' := List.singleton_inj.mp hinput
  rfl

/-! ## The ring -/

/-- Slots in a block of places, which are used in a circle. -/
structure Ring (α : Type) where
  /-- What an unwritten slot holds. -/
  blank : α
  slots : List α
  /-- The place of the input. -/
  head : Nat

/-- A change at a place of a block. -/
theorem modify_length_append (f : α → α) (before : List α) (x : α) (after : List α) :
    (before ++ x :: after).modify before.length f = before ++ f x :: after := by
  rw [List.modify_eq_take_drop, List.take_left, List.drop_left, List.modifyHead_cons]

theorem set_length_append (a : α) (before : List α) (x : α) (after : List α) :
    (before ++ x :: after).set before.length a = before ++ a :: after := by
  rw [List.set_append_right _ _ (Nat.le_refl _), Nat.sub_self, List.set_cons_zero]

namespace Ring

/-- The blank ring that takes `depth` cycles. -/
def new (depth : Nat) (blank : α) : Ring α := ⟨blank, List.replicate (depth + 1) blank, 0⟩

/-- The place of the output, which is the one after the input, around the circle. -/
def outputPlace (r : Ring α) : Nat := (r.head + 1) % r.slots.length

/-- The slots from output to input, around the circle. -/
def listed (r : Ring α) : List α := r.slots.rotate r.outputPlace

/-- A ring lists some slots: those after the input come first, and then those before it. -/
def Lists (r : Ring α) (slots : List α) : Prop :=
  ∃ before x after, r.slots = before ++ x :: after ∧ r.head = before.length ∧
    slots = after ++ before ++ [x]

/-- A new ring lists blank slots. -/
theorem lists_new {depth : Nat} (h : 0 < depth) (blank : α) :
    (new depth blank).Lists (DelayLine.new depth blank).slots := by
  obtain ⟨n, rfl⟩ : ∃ n, depth = n + 1 := ⟨depth - 1, by omega⟩
  refine ⟨[], blank, List.replicate (n + 1) blank, rfl, rfl, ?_⟩
  rw [DelayLine.slots_new, List.append_nil, ← List.replicate_succ']

variable {r : Ring α} {slots : List α}

/-- Around the circle the first place comes after the last. -/
theorem outputPlace_of_last {before : List α} {x : α} (hslots : r.slots = before ++ [x])
    (hhead : r.head = before.length) : r.outputPlace = 0 := by
  rw [outputPlace, hslots, hhead, List.length_append, List.length_singleton, Nat.mod_self]

theorem outputPlace_of_lt {before after : List α} {x z : α}
    (hslots : r.slots = before ++ x :: z :: after) (hhead : r.head = before.length) :
    r.outputPlace = before.length + 1 := by
  rw [outputPlace, hslots, hhead]
  exact Nat.mod_eq_of_lt (by simp)

/-- The slots from the place of the output on, to the end of the block and on from its start. -/
theorem Lists.output (h : r.Lists slots) (hlength : 2 ≤ slots.length) : ∃ before o after,
    r.slots = before ++ o :: after ∧ r.outputPlace = before.length ∧
      slots = o :: (after ++ before) := by
  obtain ⟨before, x, after, hslots, hhead, rfl⟩ := h
  cases after with
  | nil =>
    cases before with
    | nil => simp at hlength
    | cons y before =>
      exact ⟨[], y, before ++ [x], hslots, outputPlace_of_last hslots hhead, by simp⟩
  | cons z after =>
    exact ⟨before ++ [x], z, after, by simp [hslots], by simp [outputPlace_of_lt hslots hhead],
      by simp⟩

/-- A change at the place of the output, which comes after the input or is the first in the block,
is one of the first slot. -/
theorem Lists.modify_output (h : r.Lists slots) (hlength : 2 ≤ slots.length) (f : α → α) :
    ({ r with slots := r.slots.modify r.outputPlace f } : Ring α).Lists (slots.modifyHead f) := by
  obtain ⟨before, x, after, hslots, hhead, rfl⟩ := h
  cases after with
  | cons z after =>
    have hplace := outputPlace_of_lt hslots hhead
    have hafter := modify_length_append f (before ++ [x]) z after
    rw [List.length_append, List.append_assoc, List.append_assoc] at hafter
    refine ⟨before, x, f z :: after, ?_, hhead, rfl⟩
    rw [hplace, hslots]
    exact hafter
  | nil =>
    cases before with
    | nil => simp at hlength
    | cons y before =>
      have hplace := outputPlace_of_last hslots hhead
      refine ⟨f y :: before, x, [], ?_, hhead, rfl⟩
      rw [hplace, hslots]
      rfl

/-- What a ring lists is around the circle from the output on. -/
theorem Lists.listed (h : r.Lists slots) (hlength : 2 ≤ slots.length) : r.listed = slots := by
  obtain ⟨before, o, after, hslots, hplace, rfl⟩ := h.output hlength
  rw [Ring.listed, hplace, hslots, List.rotate_append_length_eq]
  rfl

end Ring

variable [Payload α]

/-- A payload with bits of it flipped, one after the other. -/
def Payload.flipAll (a : α) (bits : List Nat) : α :=
  bits.foldl (fun a bit => (Payload.flip a bit).1) a

/-- What is still inside a register: what stood at the input in the last cycles, the oldest of it
with the flips of this cycle, and what stands there now. -/
def Ledger.inside (depth : Nat) (blank : α) (l : Ledger α) : List α :=
  (l.recent depth blank).modifyHead (Payload.flipAll · l.flipped) ++ [l.current]

/-! ## The register -/

namespace Register

/-- The register after a use. -/
def perform (r : Register α) : Use α → Register α
  | .write a => r.write a
  | .edit f => r.write (f r.input)
  | .flip bit => r.setOutput (Payload.flip r.output bit).1
  | .advance => r.advance

def performAll (r : Register α) (uses : List (Use α)) : Register α := uses.foldl perform r

theorem performAll_concat (r : Register α) (uses : List (Use α)) (u : Use α) :
    r.performAll (uses ++ [u]) = (r.performAll uses).perform u := List.foldl_concat ..

theorem blank_perform (r : Register α) (u : Use α) : (r.perform u).line.blank = r.line.blank := by
  cases u with
  | advance =>
    show r.line.advance.blank = _
    unfold DelayLine.advance
    split <;> rfl
  | _ => rfl

/-- The slots of a register are what is inside by its ledger. -/
structure Follows (depth : Nat) (blank : α) (l : Ledger α) (r : Register α) : Prop where
  unwritten : r.line.blank = blank
  slots : r.line.slots = l.inside depth blank

namespace Follows

variable {depth : Nat} {blank : α} {l : Ledger α} {r : Register α}

theorem input (h : r.Follows depth blank l) : r.input = l.current := by
  have hslots : (r.output :: r.line.middle) ++ [r.input] = l.inside depth blank := h.slots
  exact List.singleton_inj.mp (List.append_inj' hslots rfl).2

theorem output (h : r.Follows depth blank l) {a : α}
    (ha : (l.recent depth blank).head? = some a) : r.output = Payload.flipAll a l.flipped := by
  obtain ⟨rest, hrecent⟩ := List.head?_eq_some_iff.mp ha
  have hslots := h.slots
  rw [Ledger.inside, hrecent] at hslots
  exact (List.cons.inj hslots).1

/-- **The ledger says what a use does to the slots.** -/
theorem perform (h : r.Follows depth blank l) (hdepth : 0 < depth) (u : Use α) :
    (r.perform u).Follows depth blank (l.note blank u) := by
  have hslots := h.slots
  obtain ⟨a, rest, hrecent⟩ : ∃ a rest, l.recent depth blank = a :: rest :=
    Ledger.exists_recent_eq_cons hdepth
  cases u with
  | write b =>
    refine ⟨h.unwritten, (DelayLine.slots_write _ _).trans ?_⟩
    rw [hslots, Ledger.inside, List.dropLast_concat]
    rfl
  | edit f =>
    refine ⟨h.unwritten, (DelayLine.slots_write _ _).trans ?_⟩
    rw [hslots, Ledger.inside, List.dropLast_concat, h.input]
    rfl
  | flip bit =>
    refine ⟨h.unwritten, (DelayLine.slots_setOutput _ _).trans ?_⟩
    have holdest : (l.note blank (.flip bit)).recent depth blank = a :: rest := hrecent
    have hflipped : Payload.flipAll a (l.flipped ++ [bit]) =
        (Payload.flip (Payload.flipAll a l.flipped) bit).1 := List.foldl_concat ..
    rw [hslots, Ledger.inside, Ledger.inside, holdest, hrecent,
      h.output (List.head?_eq_some_iff.mpr ⟨rest, hrecent⟩), ← hflipped]
    rfl
  | advance =>
    refine ⟨(r.blank_perform .advance).trans h.unwritten, (DelayLine.slots_advance _).trans ?_⟩
    have hunflipped : ∀ as : List α, as.modifyHead (Payload.flipAll · []) = as := by
      intro as
      cases as <;> rfl
    rw [hslots, h.unwritten, Ledger.inside, Ledger.inside, Ledger.recent_advance hdepth, hrecent]
    exact congrArg (· ++ [blank]) (hunflipped _).symm

end Follows

/-- A new register follows an empty ledger, and so goes on. -/
theorem follows_performAll {name : String} {edge : Edge} {depth : Nat} {blank : α}
    (h : 0 < depth) (uses : List (Use α)) :
    ((⟨name, edge, .new depth blank, none⟩ : Register α).performAll uses).Follows depth blank
      (.ofUses blank uses) := by
  obtain ⟨n, rfl⟩ : ∃ n, depth = n + 1 := ⟨depth - 1, by omega⟩
  induction uses using List.reverseRecOn with
  | nil =>
    refine ⟨rfl, (DelayLine.slots_new n blank).trans ?_⟩
    simp [Ledger.inside, Ledger.ofUses, Ledger.recent, Payload.flipAll, List.replicate_succ,
      ← List.replicate_succ']
  | append_singleton uses u ih =>
    rw [performAll_concat, Ledger.ofUses_concat]
    exact ih.perform h u

/-- The ledger says all that is in the line. -/
theorem Follows.line_eq {depth : Nat} {blank : α} {l : Ledger α} {r r' : Register α}
    (h : r.Follows depth blank l) (h' : r'.Follows depth blank l) : r.line = r'.line :=
  DelayLine.eq_of_slots (h.unwritten.trans h'.unwritten.symm) (h.slots.trans h'.slots.symm)

/-- A use does not change what a register is called. -/
theorem labels_performAll (r : Register α) (uses : List (Use α)) :
    (r.performAll uses).name = r.name ∧ (r.performAll uses).edge = r.edge := by
  induction uses using List.reverseRecOn with
  | nil => exact ⟨rfl, rfl⟩
  | append_singleton uses u ih =>
    rw [performAll_concat]
    cases u <;> exact ih

end Register

namespace Ring

/-- The ring after a use. When a cycle ends the input goes to the place of the output. -/
def perform (r : Ring α) : Use α → Ring α
  | .write a => { r with slots := r.slots.set r.head a }
  | .edit f => { r with slots := r.slots.modify r.head f }
  | .flip bit => { r with slots := r.slots.modify r.outputPlace fun a => (Payload.flip a bit).1 }
  | .advance => { r with slots := r.slots.set r.outputPlace r.blank, head := r.outputPlace }

def performAll (r : Ring α) (uses : List (Use α)) : Ring α := uses.foldl perform r

/-- **A ring goes through the changes of a line.** -/
theorem Lists.perform {ring : Ring α} {r : Register α} (h : ring.Lists r.line.slots)
    (hblank : ring.blank = r.line.blank) (u : Use α) :
    (ring.perform u).Lists (r.perform u).line.slots := by
  have hlength : 2 ≤ r.line.slots.length := by simp [DelayLine.depth]
  cases u with
  | write a =>
    obtain ⟨before, x, after, hslots, hhead, hline⟩ := h
    refine ⟨before, a, after, ?_, hhead, (DelayLine.slots_write _ _).trans ?_⟩
    · rw [Ring.perform, hslots, hhead, set_length_append]
    · rw [hline, List.dropLast_concat]
  | edit f =>
    obtain ⟨before, x, after, hslots, hhead, hline⟩ := h
    have hsplit : (r.output :: r.line.middle) ++ [r.input] = after ++ before ++ [x] := hline
    have hinput : r.input = x := List.singleton_inj.mp (List.append_inj' hsplit rfl).2
    refine ⟨before, f x, after, ?_, hhead, (DelayLine.slots_write _ _).trans ?_⟩
    · rw [Ring.perform, hslots, hhead, modify_length_append]
    · rw [hline, List.dropLast_concat, hinput]
  | flip bit => exact h.modify_output hlength fun a => (Payload.flip a bit).1
  | advance =>
    obtain ⟨before, o, after, hslots, hplace, hline⟩ := h.output hlength
    refine ⟨before, ring.blank, after, ?_, hplace, (DelayLine.slots_advance _).trans ?_⟩
    · rw [Ring.perform, hplace, hslots, set_length_append]
    · rw [hline, hblank]
      rfl

theorem lists_performAll (uses : List (Use α)) : ∀ {ring : Ring α} {r : Register α},
    ring.Lists r.line.slots → ring.blank = r.line.blank →
      (ring.performAll uses).Lists (r.performAll uses).line.slots := by
  induction uses with
  | nil => exact fun h _ => h
  | cons u uses ih =>
    intro ring r h hblank
    have hkept : (ring.perform u).blank = ring.blank := by cases u <;> rfl
    exact ih (h.perform hblank u) (hkept.trans (hblank.trans (r.blank_perform u).symm))

end Ring

/-! ## What a register shows -/

/-- A register of a delay shows what its ledger says. -/
structure Register.Shows (name : String) (edge : Edge) (depth : Nat) (blank : α) (l : Ledger α)
    (r : Register α) : Prop where
  input : r.input = l.current
  /-- When `c + depth` cycles are over, what stood at the input when cycle `c` ended, with the flips
  of this cycle. -/
  delayed : ∀ c, l.done.length = c + depth →
    ∃ a, l.done[c]? = some a ∧ r.output = Payload.flipAll a l.flipped
  first : l.done.length < depth → r.output = Payload.flipAll blank l.flipped
  empty : r.isEmpty = true ↔ ∀ a ∈ l.inside depth blank, Payload.isBubble a = true
  trace : r.trace = s!"{name} {edge.payloadLabel}=" ++
    ",".intercalate ((l.inside depth blank).map Payload.display)

theorem Register.Follows.shows {name : String} {edge : Edge} {depth : Nat} {blank : α}
    {l : Ledger α} {r : Register α} (h : r.Follows depth blank l) (hdepth : 0 < depth)
    (hname : r.name = name) (hedge : r.edge = edge) : r.Shows name edge depth blank l where
  input := h.input
  delayed c hc := by
    have hlt : c < l.done.length := by omega
    have hget : l.done[c]? = some l.done[c] := List.getElem?_eq_getElem hlt
    exact ⟨_, hget, h.output ((Ledger.head_recent hc).trans hget)⟩
  first hlt := h.output (Ledger.head_recent_of_lt hlt)
  empty := by rw [Register.isEmpty, h.slots, List.all_eq_true]
  trace := by rw [Register.trace, h.slots, hname, hedge]

/-- **A register is a queue of fixed length.** Whatever is written, changed in place and flipped in
its cycles, a new register shows at the output what stood at the input `depth` cycles ago, and what
is inside is what its ledger says. A ring of `depth + 1` slots lists the same. Of the flips in a
cycle nothing is left when it has ended: from then on the register holds what it would without. -/
theorem Register.delays {name : String} {edge : Edge} {depth : UInt32} {blank : α}
    (h : 0 < depth.toNat) : ∃ r, Register.new name edge depth blank = .ok r ∧
      ∀ uses : List (Use α),
        (r.performAll uses).Shows name edge depth.toNat blank (.ofUses blank uses) ∧
        ((Ring.new depth.toNat blank).performAll uses).listed = (r.performAll uses).line.slots ∧
        ∀ later, (r.performAll (uses ++ .advance :: later)).line =
          (r.performAll (uses.filter (!·.isFlip) ++ .advance :: later)).line := by
  obtain ⟨r, hr⟩ := Register.exists_new name edge blank h
  refine ⟨r, hr, fun uses => ?_⟩
  obtain rfl := Register.of_new_eq_ok hr
  have hfollows : ∀ uses : List (Use α),
      ((⟨name, edge, .new depth.toNat blank, none⟩ : Register α).performAll uses).Follows
        depth.toNat blank (.ofUses blank uses) := follows_performAll h
  obtain ⟨hname, hedge⟩ := labels_performAll
    (⟨name, edge, .new depth.toNat blank, none⟩ : Register α) uses
  refine ⟨(hfollows uses).shows h hname hedge, ?_, fun later => ?_⟩
  · exact (Ring.lists_performAll uses (Ring.lists_new h blank) rfl).listed
      (by simp [DelayLine.depth])
  · have hwithout := hfollows (uses.filter (!·.isFlip) ++ .advance :: later)
    rw [Ledger.ofUses_filter] at hwithout
    exact (hfollows _).line_eq hwithout

/-- A redirect that is written and changed in one cycle, and a flip before it arrives. -/
def usesOfRedirect : List (Use Redirect) :=
  [.write (.live .unpredicted 0 8 2 1), .edit fun r => { r with target := 12 }, .advance, .flip 0,
    .advance]

/-- Two cycles after it was written a redirect arrives as it was changed, and a flip then hits it
and nothing that comes after it. -/
theorem delays_redirect : ∃ r : Register Redirect,
    Register.new "cpu.eToF1" .eToF1 2 Redirect.empty = .ok r ∧
    (r.performAll usesOfRedirect).output = .live .unpredicted 0 12 2 1 ∧
    (r.performAll (usesOfRedirect ++ [.flip 9])).output = .live .noBranch 0 12 2 1 ∧
    (r.performAll (usesOfRedirect ++ [.flip 9, .advance])).output = .empty := by
  obtain ⟨r, hnew, hr⟩ := @Register.delays Redirect _ "cpu.eToF1" .eToF1 2 .empty (by decide)
  obtain ⟨a, ha, harrived⟩ := (hr usesOfRedirect).1.delayed 0 rfl
  obtain ⟨a', ha', hflipped⟩ := (hr (usesOfRedirect ++ [.flip 9])).1.delayed 0 rfl
  obtain ⟨b, hb, hafter⟩ := (hr (usesOfRedirect ++ [.flip 9, .advance])).1.delayed 1 rfl
  obtain rfl := Option.some.inj ha
  obtain rfl := Option.some.inj ha'
  obtain rfl := Option.some.inj hb
  exact ⟨r, hnew, harrived, hflipped.trans (by decide +kernel), hafter⟩

end InOrder
