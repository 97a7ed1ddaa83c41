import InOrder.Stage.Set

/-!
# Stages that do nothing

The null stages let a pipeline be exercised by what a host writes into its registers. They hold
nothing, write nothing and retire nothing. Their two ports count how often they are looked at: the
instruction port by requests, the data port by responses. A flip in a functional unit counts as a
request of the data port, and is said to succeed from the third on.
-/

namespace InOrder

/-- Four stages that do nothing. -/
structure NullStages where
  instructions : Port := { name := "null.port" }
  data : Port := { name := "null.port" }
deriving DecidableEq

namespace NullStages

/-- How many flips are tried before one is said to succeed. -/
def triesBeforeFlip : Nat := 2

instance : StageSet NullStages where
  names _ := ⟨"n1", "n2", "n3", "n4"⟩
  drained _ := ⟨true, true, true, true⟩
  traces _ := ⟨"n1", "n2", "n3", "n4"⟩
  evaluate s _ _ :=
    { stages := s, writes := {}, retired := [], addrs := ⟨[], [], [], []⟩, busy := false
      events := [] }
  pollQueue s now := (s, [.queuePolled now])
  flipUnit s :=
    let data := s.data.request
    ({ s with data }, triesBeforeFlip < data.requests, [])
  wake s _ := (s, [])
  drain s := s
  resume s := s
  instPort s :=
    let instructions := s.instructions.request
    (instructions, { s with instructions })
  dataPort s :=
    let data := s.data.respond
    (data, { s with data })
  units? _ := none
  retired _ := 0
  signature _ := 0
  inRange _ := true

end NullStages

end InOrder
