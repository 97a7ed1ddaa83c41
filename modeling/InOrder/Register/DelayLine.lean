/-!
# Delay lines

A delay line has slots in a row. What is written at the input moves one slot towards the output in
each cycle, so in a line of `depth + 1` slots it stands at the output `depth` cycles later. The
input starts each cycle blank.

`DelayLine.slots` lists the slots from the output to the input, and each operation is a list
operation there: `slots_advance` drops the first slot and appends a blank one, `slots_write`
replaces the last and `slots_setOutput` the first.
-/

namespace InOrder

/-- A row of at least two slots. -/
structure DelayLine (α : Type) where
  /-- What an unwritten slot holds. -/
  blank : α
  /-- What the consumer sees in this cycle. -/
  output : α
  /-- The slots between, from the output on. -/
  middle : List α
  /-- What the producer writes in this cycle. -/
  input : α
deriving DecidableEq

namespace DelayLine

variable {α : Type}

/-- The blank line that takes `depth` cycles, for a positive depth. -/
def new (depth : Nat) (blank : α) : DelayLine α :=
  ⟨blank, blank, List.replicate (depth - 1) blank, blank⟩

/-- The cycles from input to output. -/
def depth (l : DelayLine α) : Nat := l.middle.length + 1

/-- The slots from output to input. -/
def slots (l : DelayLine α) : List α := l.output :: (l.middle ++ [l.input])

/-- Replace what stands at the input. -/
def write (l : DelayLine α) (a : α) : DelayLine α := { l with input := a }

/-- Replace what stands at the output. -/
def setOutput (l : DelayLine α) (a : α) : DelayLine α := { l with output := a }

/-- One cycle: everything moves one slot, and the input is blank. -/
def advance (l : DelayLine α) : DelayLine α :=
  match l.middle with
  | [] => { l with output := l.input, input := l.blank }
  | a :: rest => { l with output := a, middle := rest ++ [l.input], input := l.blank }

@[simp] theorem length_slots (l : DelayLine α) : l.slots.length = l.depth + 1 := by
  simp [slots, depth]

@[simp] theorem slots_new (depth : Nat) (blank : α) :
    (new (depth + 1) blank).slots = List.replicate (depth + 2) blank := by
  simp [new, slots, List.replicate_succ, ← List.replicate_succ']

@[simp] theorem slots_advance (l : DelayLine α) : l.advance.slots = l.slots.tail ++ [l.blank] := by
  unfold advance
  split <;> simp_all [slots]

@[simp] theorem slots_write (l : DelayLine α) (a : α) :
    (l.write a).slots = l.slots.dropLast ++ [a] := by
  have h : l.output :: (l.middle ++ [l.input]) = (l.output :: l.middle) ++ [l.input] := rfl
  rw [slots, slots, h, List.dropLast_concat]
  rfl

@[simp] theorem slots_setOutput (l : DelayLine α) (a : α) :
    (l.setOutput a).slots = a :: l.slots.tail := rfl

end DelayLine

end InOrder
