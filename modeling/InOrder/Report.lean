import InOrder.Decimal.Shortest
import InOrder.Json.Pretty
import InOrder.Simulator

/-!
# Reports of a run

The summary of a run is written as a JSON document or as text: a line on what was retired, a line
for each flip, and the table of the statistics. Doubles have the fewest digits that read back, and
are written plainly while the point falls within sixteen digits or five zeros in front of them.
-/

namespace InOrder

open Json (Document)

/-- How doubles are laid out in reports. -/
def Report.layout : Decimal.Layout := ⟨-5, 16⟩

namespace Report

/-- A natural number in a document. -/
def natural (n : Nat) : Document := .literal (toString n)

/-- A finite, non-negative double in a document. -/
def double (x : Float) : Document :=
  .literal (layout.render (Decimal.shortest (.ofFloat x)))

/-- A flip in a document. -/
def flip (r : FlipRecord) : Document :=
  .object [("edge", .string r.edge.selector), ("tick", natural r.tick), ("bit", natural r.bit)]

/-- A row of the statistics in a document. -/
def entry (r : StatEntry) : Document :=
  .object [("name", .string r.name), ("value", double r.value), ("desc", .string r.description)]

/-- The report as a document. -/
def document (r : Report) : Document :=
  .object
    [("sim_ticks", natural r.simTicks),
     ("retired_insts", natural r.retired),
     ("commit_signature", natural r.signature.toNat),
     ("injections", .array (r.flips.map flip)),
     ("fu_fault_injected", .literal (toString r.unitFlipped)),
     ("stats", .array (r.stats.map entry))]

/-- A line on what was retired. -/
def retiredLine (r : Report) : String :=
  s!"[*] Retired {r.retired} instructions in {r.simTicks} ticks " ++
    s!"(signature {Hex.markedPadded 16 r.signature.toNat})\n"

/-- A line on a flip. -/
def flipLine (r : FlipRecord) : String :=
  s!"[*] Flipped bit {r.bit} of {r.edge.selector} at tick {r.tick}\n"

/-- The report as text, before the table of the statistics. -/
def summary (r : Report) : String := retiredLine r ++ String.join (r.flips.map flipLine)

end Report

end InOrder
