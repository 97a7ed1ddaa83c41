import InOrder.Decimal.Fixed
import InOrder.Edge
import InOrder.Text.Column

/-!
# Statistics

A pipeline counts its cycles, and for each register the ticks in which its output was a bubble.
`Stats.entries` gives these counts, and the share of bubbles in the time simulated, as named rows;
`Stats.render` is the table of the rows.
-/

namespace InOrder

/-- The counters of a pipeline. -/
structure Stats where
  /-- Cycles evaluated. -/
  cycles : Nat := 0
  /-- Snapshots taken, one in each cycle. -/
  snapshots : Nat := 0
  /-- Ticks in which the output of a register was a bubble. -/
  bubbleTicks : PerEdge Nat := .all 0
deriving DecidableEq

/-- A row of the statistics. -/
structure StatEntry where
  name : String
  value : Float
  description : String

/-- A count as a double, rounded to the nearest. -/
def floatOfCount (n : Nat) : Float := n.toUInt64.toFloat

namespace Stats

/-- Add ticks to the bubbles of an edge. -/
def addBubbleTicks (s : Stats) (e : Edge) (ticks : Nat) : Stats :=
  { s with bubbleTicks := s.bubbleTicks.modify e (· + ticks) }

/-- Add ticks to the bubbles of each edge that `bubble` names. -/
def addBubbles (s : Stats) (bubble : PerEdge Bool) (ticks : Nat) : Stats :=
  { s with bubbleTicks :=
      .ofFn fun e => if bubble.get e then s.bubbleTicks.get e + ticks else s.bubbleTicks.get e }

/-- The bubbles of all edges. -/
def totalBubbleTicks (s : Stats) : Nat := s.bubbleTicks.toList.foldl (· + ·) 0

/-- The share of bubbles in the time simulated, in percent; zero if no time was. -/
def bubblePercentage (s : Stats) (e : Edge) (simTicks : Nat) : Float :=
  if simTicks = 0 then 0
  else 100 * floatOfCount (s.bubbleTicks.get e) / floatOfCount simTicks

/-- The two rows of an edge. -/
def edgeEntries (s : Stats) (simTicks : Nat) (e : Edge) : List StatEntry :=
  [⟨s!"Pipereg.{e.statName}.bubble_ticks", floatOfCount (s.bubbleTicks.get e),
      s!"{e.arrow} How long is it bubble?"⟩,
   ⟨s!"Pipereg.{e.statName}.bubble_ticks_percentage", s.bubblePercentage e simTicks,
      s!"{e.arrow} BB% among total time"⟩]

/-- Every row. -/
def entries (s : Stats) (simTicks : Nat) : List StatEntry :=
  [⟨"num_cycles", floatOfCount s.cycles, "Number of cycles the pipeline was evaluated"⟩,
   ⟨"num_snapshot", floatOfCount s.snapshots, "Number of snapshots"⟩] ++
    Edge.all.flatMap (s.edgeEntries simTicks)

/-- A value in the table: whole, up to the largest 64-bit number, or with six places. -/
def valueText (x : Float) : String :=
  let d := Decimal.Dyadic.ofFloat x
  if d.isWhole then toString (min d.floor (UInt64.size - 1)) else Decimal.fixed 6 d

/-- The rows as a table. -/
def render (s : Stats) (simTicks : Nat) : String :=
  let rows := s.entries simTicks
  let width := (rows.map fun r => r.name.length).foldl max 0 + 2
  let line (r : StatEntry) : String :=
    Text.left width r.name ++ Text.right 16 (valueText r.value) ++ s!"   # {r.description}\n"
  "---------- Begin Simulation Statistics ----------\n" ++ String.join (rows.map line) ++
    "---------- End Simulation Statistics   ----------\n"

/-- The counters in a listing. -/
def describe (s : Stats) : String :=
  let bubbles := ", ".intercalate (s.bubbleTicks.toList.map toString)
  s!"PipelineStats \x7b num_cycles: {s.cycles}, num_snapshot: {s.snapshots}, " ++
    s!"bubble_ticks: [{bubbles}] \x7d"

end Stats

end InOrder
