/-!
# Activity

The recorder tells when the pipeline may idle. Work done in a cycle is noted once for that cycle
and forgotten `length` cycles later, long enough for a payload to reach its consumer. Apart from
that, a holder keeps the pipeline awake until its mark is taken away.

`count` is the number of cycles noted and marks held. It is kept as the operations go; the cycles
noted are `current` and those of `past`, oldest first.

A host has a word of 32 bits for the count. If it checks it, an operation that would take the count
past the word, or below zero, does not return. These are the operations with a question mark.
-/

namespace InOrder

/-- Who can hold the pipeline awake. -/
inductive Holder where
  | cpu
  | fetch1
  | fetch2
  | decode
  | execute
deriving DecidableEq, Repr

namespace Holder

/-- The holders in the order of traces. -/
def all : List Holder := [cpu, fetch1, fetch2, decode, execute]

/-- The name of a holder. -/
def name : Holder → String
  | cpu => "Cpu"
  | fetch1 => "Fetch1"
  | fetch2 => "Fetch2"
  | decode => "Decode"
  | execute => "Execute"

end Holder

/-- The work of the last cycles, and the marks. -/
structure Activity where
  name : String
  /-- Work was done in this cycle. -/
  current : Bool
  /-- Work was done in the cycles before, oldest first. -/
  past : List Bool
  /-- The marks held. -/
  marks : List Holder
  /-- Cycles noted and marks held. -/
  count : Nat
deriving DecidableEq

namespace Activity

/-- No work in the last `length` cycles. -/
def new (name : String) (length : Nat) : Activity :=
  ⟨name, false, List.replicate length false, [], 0⟩

/-- Note work in this cycle. -/
def note (a : Activity) : Activity :=
  if a.current then a else { a with current := true, count := a.count + 1 }

/-- Note work in this cycle, if there was any. -/
def noteIf (busy : Bool) (a : Activity) : Activity := if busy then a.note else a

/-- Mark a holder. -/
def mark (a : Activity) (h : Holder) : Activity :=
  if h ∈ a.marks then a else { a with marks := h :: a.marks, count := a.count + 1 }

/-- Take the mark of a holder away. -/
def unmark (a : Activity) (h : Holder) : Activity :=
  if h ∈ a.marks then { a with marks := a.marks.erase h, count := a.count - 1 } else a

/-- The holder is marked. -/
def isMarked (a : Activity) (h : Holder) : Bool := h ∈ a.marks

/-- Work is noted or a mark is held. -/
def isActive (a : Activity) : Bool := a.count != 0

/-- The next cycle: the oldest cycle is forgotten. -/
def advance (a : Activity) : Activity :=
  match a.past ++ [a.current] with
  | [] => a
  | oldest :: kept =>
    { a with current := false, past := kept, count := if oldest then a.count - 1 else a.count }

/-! ### The count in a word -/

/-- One more, if that fits in the word. -/
def oneMore? (n : Nat) : Option Nat := if n + 1 < UInt32.size then some (n + 1) else none

/-- One less, if there is one. -/
def oneLess? (n : Nat) : Option Nat := if 0 < n then some (n - 1) else none

/-- Note work in this cycle. -/
def note? (a : Activity) : Option Activity :=
  if a.current then some a
  else (oneMore? a.count).map fun count => { a with current := true, count }

/-- Mark a holder. -/
def mark? (a : Activity) (h : Holder) : Option Activity :=
  if h ∈ a.marks then some a
  else (oneMore? a.count).map fun count => { a with marks := h :: a.marks, count }

/-- Take the mark of a holder away. -/
def unmark? (a : Activity) (h : Holder) : Option Activity :=
  if h ∈ a.marks then
    (oneLess? a.count).map fun count => { a with marks := a.marks.erase h, count }
  else some a

/-- The next cycle. -/
def advance? (a : Activity) : Option Activity :=
  match a.past ++ [a.current] with
  | [] => some a
  | oldest :: kept =>
    (if oldest then oneLess? a.count else some a.count).map fun count =>
      { a with current := false, past := kept, count }

/-! ### Marks and traces -/

/-- Take all marks away. -/
def unmarkAll (a : Activity) : Activity := Holder.all.foldl unmark a

/-- The recorder in a trace. -/
def trace (a : Activity) : String :=
  s!"{a.name} activity={a.count} stages=" ++
    String.join (Holder.all.map fun h => if a.isMarked h then "E" else "-")

end Activity

end InOrder
