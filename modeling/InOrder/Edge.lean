/-!
# The five pipeline registers

Between the four stages stand five registers, called edges. Each has three names: the selector
that a configuration uses, the name in the statistics, and the parameter that sets its delay.
`Edge.all` is the order in which edges are listed everywhere.

`PerEdge` holds one value for each edge.
-/

namespace InOrder

/-- A pipeline register. -/
inductive Edge where
  /-- Lines from the line fetch to the slicer. -/
  | f1ToF2
  /-- Bundles from the slicer to decode. -/
  | f2ToD
  /-- Bundles from decode to execute. -/
  | dToE
  /-- Redirects from execute to the line fetch. -/
  | eToF1
  /-- Predictions from the slicer to the line fetch. -/
  | f2ToF1
deriving DecidableEq, Repr

namespace Edge

/-- The edges in the order of all listings. -/
def all : List Edge := [f1ToF2, f2ToD, dToE, eToF1, f2ToF1]

theorem mem_all (e : Edge) : e ∈ all := by cases e <;> decide

/-- Position in `all`. -/
def index : Edge → Nat
  | f1ToF2 => 0
  | f2ToD => 1
  | dToE => 2
  | eToF1 => 3
  | f2ToF1 => 4

/-- The name by which a configuration selects the edge. -/
def selector : Edge → String
  | f1ToF2 => "f1ToF2"
  | f2ToD => "f2ToD"
  | dToE => "dToE"
  | eToF1 => "eToF1"
  | f2ToF1 => "f2ToF1"

/-- The edge with this selector; letters count with their case. -/
def ofSelector? (s : String) : Option Edge := all.find? fun e => e.selector == s

/-- The name in the statistics. -/
def statName : Edge → String
  | f1ToF2 => "Cache2Fetch"
  | f2ToD => "Fetch2Decode"
  | dToE => "Decode2Execute"
  | eToF1 => "Execute2Cache"
  | f2ToF1 => "Fetch2Cache"

/-- The short label in descriptions of statistics. -/
def arrow : Edge → String
  | f1ToF2 => "[$->F]"
  | f2ToD => "[F->D]"
  | dToE => "[D->E]"
  | eToF1 => "[E->$]"
  | f2ToF1 => "[F->$]"

/-- The parameter that sets the delay. -/
def delayParameter : Edge → String
  | f1ToF2 => "fetch1ToFetch2ForwardDelay"
  | f2ToD => "fetch2ToDecodeForwardDelay"
  | dToE => "decodeToExecuteForwardDelay"
  | eToF1 => "executeBranchDelay"
  | f2ToF1 => "fetch1ToFetch2BackwardDelay"

/-- What the slots are called in traces. -/
def payloadLabel : Edge → String
  | f1ToF2 => "lines"
  | f2ToD | dToE => "insts"
  | eToF1 => "branch"
  | f2ToF1 => "prediction"

/-- The data flows against the order of the stages within one stage's reach. -/
def isBackward (e : Edge) : Bool := e == f2ToF1

/-- The edge carries redirects, of which one without a reason counts as a bubble. -/
def carriesRedirects : Edge → Bool
  | eToF1 | f2ToF1 => true
  | _ => false

end Edge

/-- A value for each edge. -/
structure PerEdge (α : Type) where
  f1ToF2 : α
  f2ToD : α
  dToE : α
  eToF1 : α
  f2ToF1 : α
deriving DecidableEq, Repr

namespace PerEdge

variable {α β : Type}

/-- The same value everywhere. -/
def all (a : α) : PerEdge α := ⟨a, a, a, a, a⟩

/-- The value of an edge. -/
def get (p : PerEdge α) : Edge → α
  | .f1ToF2 => p.f1ToF2
  | .f2ToD => p.f2ToD
  | .dToE => p.dToE
  | .eToF1 => p.eToF1
  | .f2ToF1 => p.f2ToF1

/-- The values that `f` gives. -/
def ofFn (f : Edge → α) : PerEdge α := ⟨f .f1ToF2, f .f2ToD, f .dToE, f .eToF1, f .f2ToF1⟩

/-- Apply `f` to the value of one edge. -/
def modify (p : PerEdge α) (e : Edge) (f : α → α) : PerEdge α :=
  match e with
  | .f1ToF2 => { p with f1ToF2 := f p.f1ToF2 }
  | .f2ToD => { p with f2ToD := f p.f2ToD }
  | .dToE => { p with dToE := f p.dToE }
  | .eToF1 => { p with eToF1 := f p.eToF1 }
  | .f2ToF1 => { p with f2ToF1 := f p.f2ToF1 }

/-- The values in the order of `Edge.all`. -/
def toList (p : PerEdge α) : List α := Edge.all.map p.get

@[simp] theorem get_ofFn (f : Edge → α) (e : Edge) : (ofFn f).get e = f e := by cases e <;> rfl

@[simp] theorem get_all (a : α) (e : Edge) : (all a).get e = a := by cases e <;> rfl

theorem get_modify (p : PerEdge α) (e e' : Edge) (f : α → α) :
    (p.modify e f).get e' = if e' = e then f (p.get e') else p.get e' := by
  cases e <;> cases e' <;> rfl

end PerEdge

end InOrder
