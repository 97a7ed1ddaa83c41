import InOrder.Payload.Bundle
import InOrder.Payload.Line
import InOrder.Payload.Redirect
import InOrder.Queue
import InOrder.Register.Basic

/-!
# What registers and queues hold

A register holds the payloads on their way to its consumer, from the output on. Bubbles do not
count, and neither does the input, which is blank between cycles (`Register.Clean`). In a cycle the
consumer takes what is at the output, and what the producer writes comes in behind the rest
(`held_cycle`).

The stages are shared by the threads, so what they hold is tagged with thread numbers;
`share t` is what thread `t` has of it, in order.
-/

namespace InOrder

variable {α : Type}

/-! ## Registers and queues -/

section Present

variable [Payload α]

/-- The payloads that are no bubbles. -/
def present (as : List α) : List α := as.filter fun a => !Payload.isBubble a

@[simp] theorem present_append (as bs : List α) : present (as ++ bs) = present as ++ present bs :=
  List.filter_append ..

theorem mem_present {a : α} {as : List α} :
    a ∈ present as ↔ a ∈ as ∧ Payload.isBubble a = false := by
  rw [present, List.mem_filter, Bool.not_eq_eq_eq_not, Bool.not_true]

theorem present_singleton {a : α} (h : Payload.isBubble a = false) : present [a] = [a] := by
  simp [present, h]

theorem present_bubble {a : α} (h : Payload.isBubble a = true) : present [a] = [] := by
  simp [present, h]

theorem present_toList {w : Option α} (h : ∀ a, w = some a → Payload.isBubble a = false) :
    present w.toList = w.toList := by
  cases w with
  | none => rfl
  | some a => exact present_singleton (h a rfl)

theorem Queue.entries_push (q : Queue α) (a : α) :
    (q.push a).entries = q.entries ++ present [a] := by
  unfold Queue.push
  cases h : Payload.isBubble a with
  | true => rw [if_pos rfl, present_bubble h, List.append_nil]
  | false => rw [if_neg Bool.false_ne_true, present_singleton h]

namespace Register

/-- What is on its way to the output, behind what stands there. -/
def behind (r : Register α) : List α := present r.line.middle

/-- What is on its way, from the output on. -/
def held (r : Register α) : List α := present [r.output] ++ r.behind

/-- Nothing is written yet in this cycle. -/
structure Clean (r : Register α) : Prop where
  input : Payload.isBubble r.input = true
  blank : Payload.isBubble r.line.blank = true

variable {r : Register α}

theorem mem_held {a : α} :
    a ∈ r.held ↔ (a = r.output ∨ a ∈ r.line.middle) ∧ Payload.isBubble a = false := by
  rw [held, behind, ← present_append, mem_present, List.mem_append, List.mem_singleton]

theorem output_mem_held (h : Payload.isBubble r.output = false) : r.output ∈ r.held :=
  mem_held.mpr ⟨.inl rfl, h⟩

theorem mem_slots {a : α} (h : a ∈ r.held) : a ∈ r.line.slots := by
  rcases (mem_held.mp h).1 with rfl | hmiddle
  · exact List.mem_cons_self
  · exact List.mem_cons_of_mem _ (List.mem_append_left _ hmiddle)

omit [Payload α] in
theorem input_write? (r : Register α) (w : Option α) : (r.write? w).input = w.getD r.input := by
  cases w <;> rfl

theorem behind_write? (r : Register α) (w : Option α) : (r.write? w).behind = r.behind := by
  cases w <;> rfl

omit [Payload α] in
theorem blank_write? (r : Register α) (w : Option α) : (r.write? w).line.blank = r.line.blank := by
  cases w <;> rfl

/-- In a cycle everything moves one slot, and what stood at the output is gone. -/
theorem held_advance (r : Register α) : r.advance.held = r.behind ++ present [r.input] := by
  unfold advance DelayLine.advance held behind output input DelayLine.output
  cases hm : r.line.middle with
  | nil => simp [present]
  | cons a rest => rw [← present_append, ← present_append, List.singleton_append, List.cons_append]

theorem clean_advance (h : Payload.isBubble r.line.blank = true) : r.advance.Clean := by
  unfold advance DelayLine.advance
  cases hm : r.line.middle with
  | nil => exact ⟨h, h⟩
  | cons a rest => exact ⟨h, h⟩

/-- **What is written in a cycle comes in behind what is on its way.** -/
theorem held_cycle (h : r.Clean) (w : Option α) :
    (r.write? w).advance.held = r.behind ++ present w.toList := by
  rw [held_advance, behind_write?, input_write?]
  cases w with
  | none => rw [Option.getD_none, present_bubble h.input]; rfl
  | some a => rfl

theorem clean_cycle (h : r.Clean) (w : Option α) : (r.write? w).advance.Clean :=
  clean_advance (blank_write? r w ▸ h.blank)

/-- What a register with bubbles in all slots holds. -/
theorem held_of_isEmpty (h : r.isEmpty = true) : r.held = [] := by
  rw [List.eq_nil_iff_forall_not_mem]
  intro a ha
  have hlive := (mem_held.mp ha).2
  rw [List.all_eq_true.mp h a (mem_slots ha)] at hlive
  exact absurd hlive (by simp)

theorem held_blank {name : String} {edge : Edge} {depth : Nat} {blank : α} {flip : Option Flip}
    (h : Payload.isBubble blank = true) :
    (⟨name, edge, .new depth blank, flip⟩ : Register α).held = [] := by
  rw [List.eq_nil_iff_forall_not_mem]
  intro a ha
  obtain ⟨hslot, hlive⟩ := mem_held.mp ha
  have hblank : a = blank := by
    rcases hslot with rfl | hmiddle
    · rfl
    · exact List.eq_of_mem_replicate hmiddle
  rw [hblank, h] at hlive
  exact absurd hlive (by simp)

/-- The slots behind the input, from the output on. -/
def row (r : Register α) : List α := r.output :: r.line.middle

theorem held_eq (r : Register α) : r.held = present r.row := (present_append [_] _).symm

omit [Payload α] in
/-- In a cycle what is written comes in at the end. -/
theorem row_cycle (r : Register α) (w : Option α) :
    (r.write? w).advance.row = r.row.tail ++ [(r.write? w).input] := by
  have hmiddle : (r.write? w).line.middle = r.line.middle := by cases w <;> rfl
  unfold row advance DelayLine.advance output DelayLine.output
  rw [List.tail_cons, ← hmiddle]
  cases hm : (r.write? w).line.middle with
  | nil => rfl
  | cons a rest => rfl

omit [Payload α] in
/-- A cycle does not change the length of a register. -/
theorem length_row_cycle (r : Register α) (w : Option α) :
    (r.write? w).advance.row.length = r.row.length := by
  have hpos : 0 < r.row.length := Nat.succ_pos _
  rw [row_cycle, List.length_append, List.length_tail, List.length_singleton]
  omega

theorem length_held_le (r : Register α) : r.held.length ≤ r.row.length := by
  rw [held_eq]
  exact List.length_filter_le _ _

theorem mem_row {a : α} (h : r.Clean) (ha : a ∈ r.line.slots)
    (hlive : Payload.isBubble a = false) : a ∈ r.row := by
  have hslots : r.line.slots = r.row ++ [r.input] := rfl
  rw [hslots] at ha
  rcases List.mem_append.mp ha with ha | ha
  · exact ha
  · rw [List.mem_singleton.mp ha, h.input] at hlive
    exact absurd hlive (by simp)

/-- A register that holds nothing has bubbles in all slots. -/
theorem isEmpty_of_held (h : r.Clean) (hnone : r.held = []) : r.isEmpty = true := by
  refine List.all_eq_true.mpr fun a ha => ?_
  cases hlive : Payload.isBubble a with
  | true => rfl
  | false =>
    have hmem : a ∈ r.held := by
      rw [held_eq]
      exact mem_present.mpr ⟨mem_row h ha hlive, hlive⟩
    rw [hnone] at hmem
    exact absurd hmem (by simp)

/-! ### The way of what arrives next -/

/-- The slots between the output and what arrives next. -/
def lead (r : Register α) : Nat := r.row.findIdx fun a => !Payload.isBubble a

theorem lead_lt (h : r.held ≠ []) : r.lead < r.row.length := by
  obtain ⟨a, ha⟩ := List.exists_mem_of_ne_nil _ h
  rw [held_eq] at ha
  obtain ⟨hrow, hlive⟩ := mem_present.mp ha
  exact List.findIdx_lt_length_of_exists ⟨a, hrow, by simp [hlive]⟩

/-- In a cycle what arrives next comes a slot closer, if it does not stand at the output yet. -/
theorem lead_cycle (hbubble : Payload.isBubble r.output = true) (hbehind : r.behind ≠ [])
    (w : Option α) : (r.write? w).advance.lead + 1 = r.lead := by
  obtain ⟨a, ha⟩ := List.exists_mem_of_ne_nil _ hbehind
  obtain ⟨hmiddle, hlive⟩ := mem_present.mp ha
  have hlt : r.line.middle.findIdx (fun a => !Payload.isBubble a) < r.line.middle.length :=
    List.findIdx_lt_length_of_exists ⟨a, hmiddle, by simp [hlive]⟩
  rw [lead, row_cycle, row, List.tail_cons, List.findIdx_append, if_pos hlt, lead, row,
    List.findIdx_cons, hbubble]
  rfl

end Register

/-! ## Queues and the registers that lead to them -/

/-- A queue and the register that leads to it hold less than the one has places and the other
slots. -/
def Queue.Holds (q : Queue α) (r : Register α) : Prop :=
  q.entries.length + r.held.length < q.capacity + r.row.length

/-- **A queue whose producer writes only while there is room holds what arrives.** -/
theorem Queue.Holds.cycle {q q' : Queue α} {r : Register α} {w : Option α} (h : q.Holds r)
    (hr : r.Clean) (hentries : q'.entries.length ≤ q.entries.length + (present [r.output]).length)
    (hcapacity : q'.capacity = q.capacity) (hroom : ∀ a, w = some a → q'.hasRoom = true) :
    q'.Holds (r.write? w).advance := by
  unfold Queue.Holds at h ⊢
  rw [Register.length_row_cycle, hcapacity]
  cases w with
  | none =>
    have hsame : (r.write? none).advance.held = r.behind := by
      rw [Register.held_cycle hr]
      exact List.append_nil _
    rw [Register.held, List.length_append] at h
    rw [hsame]
    omega
  | some a =>
    have hlt : q'.entries.length < q'.capacity := Queue.hasRoom_iff.mp (hroom a rfl)
    have hheld := (r.write? (some a)).advance.length_held_le
    rw [Register.length_row_cycle] at hheld
    omega

end Present

/-! ## Shares of the threads -/

/-- What a thread has of a list that is shared. -/
def share (t : UInt32) (xs : List (UInt32 × α)) : List α :=
  (xs.filter fun x => x.1 = t).map (·.2)

@[simp] theorem share_nil (t : UInt32) : share t ([] : List (UInt32 × α)) = [] := rfl

@[simp] theorem share_append (t : UInt32) (xs ys : List (UInt32 × α)) :
    share t (xs ++ ys) = share t xs ++ share t ys := by
  rw [share, List.filter_append, List.map_append, share, share]

@[simp] theorem share_cons_self (t : UInt32) (a : α) (xs : List (UInt32 × α)) :
    share t ((t, a) :: xs) = a :: share t xs := by
  simp [share]

theorem share_cons_ne {t t' : UInt32} (h : t' ≠ t) (a : α) (xs : List (UInt32 × α)) :
    share t ((t', a) :: xs) = share t xs := by
  simp [share, h]

theorem share_concat (t : UInt32) (xs : List (UInt32 × α)) (a : α) :
    share t (xs ++ [(t, a)]) = share t xs ++ [a] := by
  rw [share_append, share_cons_self, share_nil]

theorem share_concat_of_ne {t t' : UInt32} (h : t' ≠ t) (xs : List (UInt32 × α)) (a : α) :
    share t (xs ++ [(t', a)]) = share t xs := by
  rw [share_append, share_cons_ne h, share_nil, List.append_nil]

/-- The lines of a thread. -/
def linesOf (t : UInt32) (ls : List Line) : List Line := ls.filter fun l => l.thread = t

@[simp] theorem linesOf_append (t : UInt32) (ls ls' : List Line) :
    linesOf t (ls ++ ls') = linesOf t ls ++ linesOf t ls' := List.filter_append ..

theorem linesOf_cons {l : Line} {t : UInt32} (h : l.thread = t) (ls : List Line) :
    linesOf t (l :: ls) = l :: linesOf t ls := List.filter_cons_of_pos (by simpa using h)

theorem linesOf_cons_of_ne {l : Line} {t : UInt32} (h : l.thread ≠ t) (ls : List Line) :
    linesOf t (l :: ls) = linesOf t ls := List.filter_cons_of_neg (by simpa using h)

/-- The redirects of a thread. -/
def redirectsOf (t : UInt32) (rs : List Redirect) : List Redirect := rs.filter fun r => r.thread = t

@[simp] theorem redirectsOf_append (t : UInt32) (rs rs' : List Redirect) :
    redirectsOf t (rs ++ rs') = redirectsOf t rs ++ redirectsOf t rs' := List.filter_append ..

theorem redirectsOf_cons {r : Redirect} {t : UInt32} (h : r.thread = t) (rs : List Redirect) :
    redirectsOf t (r :: rs) = r :: redirectsOf t rs := List.filter_cons_of_pos (by simpa using h)

theorem redirectsOf_cons_of_ne {r : Redirect} {t : UInt32} (h : r.thread ≠ t) (rs : List Redirect) :
    redirectsOf t (r :: rs) = redirectsOf t rs := List.filter_cons_of_neg (by simpa using h)

@[simp] theorem redirectsOf_nil (t : UInt32) : redirectsOf t [] = [] := rfl

/-- The micro-ops of a bundle, each with its thread. -/
def Bundle.tagged (b : Bundle) : List (UInt32 × MicroOp) := b.insts.map fun o => (b.thread, o)

theorem Bundle.tagged_of_bubble {b : Bundle} (h : Payload.isBubble b = true) : b.tagged = [] := by
  have hcount : b.count = 0 := by simpa [Payload.isBubble, Bundle.isEmpty] using h
  rw [tagged, insts, hcount]
  rfl

section OfInsts

variable {width : Nat} {ops : List MicroOp}

theorem Bundle.toNat_count_ofInsts (hwidth : width < 256) (hops : ops.length ≤ width) (t : UInt32) :
    (Bundle.ofInsts width t ops).count.toNat = ops.length := by
  rw [ofInsts, UInt8.toNat_ofNat']
  exact Nat.mod_eq_of_lt (by omega)

theorem Bundle.insts_ofInsts (hwidth : width < 256) (hops : ops.length ≤ width) (t : UInt32) :
    (Bundle.ofInsts width t ops).insts = ops := by
  rw [insts, toNat_count_ofInsts hwidth hops, ofInsts, List.take_left]

theorem Bundle.tagged_ofInsts (hwidth : width < 256) (hops : ops.length ≤ width) (t : UInt32) :
    (Bundle.ofInsts width t ops).tagged = ops.map fun o => (t, o) := by
  rw [tagged, insts_ofInsts hwidth hops, ofInsts]

end OfInsts

/-- Bubbles have no micro-ops. -/
theorem Bundle.flatMap_tagged_present (bs : List Bundle) :
    (present bs).flatMap tagged = bs.flatMap tagged := by
  induction bs with
  | nil => rfl
  | cons b rest ih =>
    rw [← List.singleton_append, present_append, List.flatMap_append, List.flatMap_append, ih]
    cases h : Payload.isBubble b with
    | true => rw [present_bubble h, List.flatMap_singleton, tagged_of_bubble h]; rfl
    | false => rw [present_singleton h]

/-! ## Predicted jumps -/

/-- How many of some micro-ops are jumps that were predicted. -/
def predicted (os : List MicroOp) : Nat := os.countP fun o => o.predictedTaken.isSet

theorem predicted_append (os os' : List MicroOp) :
    predicted (os ++ os') = predicted os + predicted os' := List.countP_append

theorem predicted_singleton (o : MicroOp) :
    predicted [o] = if o.predictedTaken.isSet then 1 else 0 := List.countP_singleton

theorem predicted_cons_le (o : MicroOp) (os : List MicroOp) :
    predicted (o :: os) ≤ predicted os + 1 := by
  rw [predicted, predicted, List.countP_cons]
  split <;> omega

theorem predicted_le_of_sublist {os os' : List MicroOp} (h : os.Sublist os') :
    predicted os ≤ predicted os' := h.countP_le

/-- A thread has no more predicted jumps than there are. -/
theorem predicted_share_le (t : UInt32) (xs : List (UInt32 × MicroOp)) :
    predicted (share t xs) ≤ predicted (xs.map Prod.snd) :=
  predicted_le_of_sublist (List.filter_sublist.map _)

theorem Bundle.map_snd_tagged (b : Bundle) : b.tagged.map Prod.snd = b.insts := by
  rw [tagged, List.map_map]
  exact List.map_id _

/-- Bundles with a predicted jump at most have no more of them than there are bundles. -/
theorem predicted_flatMap_le {bs : List Bundle} (h : ∀ b ∈ bs, predicted b.insts ≤ 1) :
    predicted ((bs.flatMap Bundle.tagged).map Prod.snd) ≤ bs.length := by
  induction bs with
  | nil => exact Nat.le_refl 0
  | cons b rest ih =>
    have hb := h b List.mem_cons_self
    have hrest := ih fun b' hb' => h b' (List.mem_cons_of_mem b hb')
    rw [List.flatMap_cons, List.map_append, predicted_append, Bundle.map_snd_tagged,
      List.length_cons]
    omega

end InOrder
