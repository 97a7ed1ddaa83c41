import InOrder.Payload.Basic

/-!
# Input queues

A stage keeps what it has received in a queue, oldest first. Its producer only sends while the
queue has room, but what is already on its way still arrives, so `push` never refuses; it ignores
bubbles.

A host takes the room for a whole queue at once, and stops where that is more than it can address.
-/

namespace InOrder

/-- The queue in front of a stage. -/
structure Queue (α : Type) where
  entries : List α
  /-- From how many entries on the queue has no room. -/
  capacity : Nat
deriving DecidableEq

namespace Queue

variable {α : Type}

/-- The queue with no entries. -/
def empty (capacity : Nat) : Queue α := ⟨[], capacity⟩

/-- The most bytes that a host can address at once. -/
def maxBytes : Nat := 0x7fffffffffffffff

/-- There can be room for as many entries, each of `size` bytes. -/
def canHold (size capacity : Nat) : Bool := capacity * size ≤ maxBytes

/-- The producer may send. What a stage does hangs on the room behind it, so this is not unfolded
where two cycles are compared. -/
@[irreducible] def hasRoom (q : Queue α) : Bool := q.entries.length < q.capacity

theorem hasRoom_iff {q : Queue α} : q.hasRoom = true ↔ q.entries.length < q.capacity := by
  rw [hasRoom, decide_eq_true_iff]

/-- Nothing is queued. -/
def isEmpty (q : Queue α) : Bool := q.entries.isEmpty

/-- Replace the entries. -/
def withEntries (q : Queue α) (entries : List α) : Queue α := { q with entries }

/-- Queue a payload, unless it is a bubble. -/
def push [Payload α] (q : Queue α) (a : α) : Queue α :=
  if Payload.isBubble a then q else { q with entries := q.entries ++ [a] }

/-- Take the oldest entry. -/
def pop (q : Queue α) : Option α × Queue α :=
  match q.entries with
  | [] => (none, q)
  | a :: rest => (some a, { q with entries := rest })

/-- Keep the entries that `keep` accepts. -/
def filter (q : Queue α) (keep : α → Bool) : Queue α :=
  { q with entries := q.entries.filter keep }

/-- The queue as a pair of answers, in words. -/
def describe (q : Queue α) : String :=
  s!"InputStatus \x7b can_reserve: {q.hasRoom}, is_empty: {q.isEmpty} \x7d"

end Queue

end InOrder
