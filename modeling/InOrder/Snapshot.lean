import InOrder.Edge
import InOrder.Payload.Redirect
import InOrder.Text.Column

/-!
# Drawings of a cycle

A snapshot says of each register whether its output counts as a bubble, and why the two registers
that lead back to the line fetch redirect. `Snapshot.draw` shows two of them around the stages:
next to the consumer of a register what the stages observed at the start of a cycle, next to its
producer what stood there after the cycle. Below stand the addresses that each stage handled, one
column a stage.
-/

namespace InOrder

/-- A value for each stage. -/
structure PerStage (α : Type) where
  fetch1 : α
  fetch2 : α
  decode : α
  execute : α
deriving DecidableEq, Repr

/-- The values in the order of the data flow. -/
def PerStage.toList {α : Type} (p : PerStage α) : List α := [p.fetch1, p.fetch2, p.decode, p.execute]

/-- The same change at each stage. -/
def PerStage.map {α β : Type} (f : α → β) (p : PerStage α) : PerStage β :=
  ⟨f p.fetch1, f p.fetch2, f p.decode, f p.execute⟩

/-- What stands at the outputs of the registers. -/
structure Snapshot where
  /-- The output counts as a bubble. -/
  bubble : PerEdge Bool
  /-- The reason at the output of the predictions. -/
  prediction : Reason
  /-- The reason at the output of execute. -/
  redirect : Reason
deriving DecidableEq

namespace Snapshot

/-- The mark of a register in a drawing. -/
def mark (s : Snapshot) (e : Edge) : String := if s.bubble.get e then " BB " else "data"

/-- The reasons other than none, one after the other. -/
def reasons (s : Snapshot) : String :=
  String.join (([s.prediction, s.redirect].filter (· != .noBranch)).map Reason.display)

/-- The address at a place of a column, or nothing below its end. -/
def cell (column : List String) (i : Nat) : String := column.getD i ""

/-- The rows of addresses. -/
def addressRows (addrs : PerStage (List String)) : List String :=
  let count := (addrs.toList.map List.length).foldl max 0
  (List.range count).map fun i =>
    Text.left 20 (cell addrs.fetch1 i) ++ Text.left 21 (cell addrs.fetch2 i) ++
      Text.left 18 (cell addrs.decode i) ++ cell addrs.execute i

/-- The drawing of a cycle, as lines. -/
def drawLines (tick : Nat) (observed latched : Snapshot) (addrs : PerStage (List String)) :
    List String :=
  let gap := Text.blanks
  [ String.ofList (List.replicate 65 '_'),
    s!"[SNAPSHOT] Tick: {tick}",
    gap 5 ++ Text.left 42 observed.reasons,
    gap 5 ++ observed.mark .f2ToF1 ++ gap 8 ++ latched.mark .f2ToF1 ++ gap 26 ++
      observed.mark .eToF1 ++ gap 6 ++ latched.mark .eToF1,
    gap 5 ++ "<--- f2ToF1 <-----+" ++ gap 23 ++ "<--- eToF1 <----+",
    gap 23 ++ "|" ++ gap 39 ++ "|",
    "(F1) ---> f1ToF2 ---> (F2) ---> f2ToD ---> (D) ---> dToE ---> (E)",
    gap 5 ++ latched.mark .f1ToF2 ++ gap 8 ++ observed.mark .f1ToF2 ++ gap 6 ++
      latched.mark .f2ToD ++ gap 7 ++ observed.mark .f2ToD ++ gap 5 ++
      latched.mark .dToE ++ gap 6 ++ observed.mark .dToE ] ++
    addressRows addrs ++ [""]

/-- The drawing of a cycle; an empty line ends it. -/
def draw (tick : Nat) (observed latched : Snapshot) (addrs : PerStage (List String)) : String :=
  String.join ((drawLines tick observed latched addrs).map (· ++ "\n"))

end Snapshot

end InOrder
