import InOrder.Payload.Basic

/-!
# Micro-ops and bundles

A bundle is a row of slots for micro-ops of one thread, of which the first `count` are in use. The
row keeps its width, so that every image of it can be decoded; a corrupted count may exceed the
width, and then all slots are in use.
-/

namespace InOrder

/-- An instruction on its way through the pipeline. -/
structure MicroOp where
  bubble : Flag
  pc : UInt64
  /-- Number in fetch order. -/
  seqNum : UInt64
  /-- Stream that the instruction was fetched in. -/
  streamSeq : UInt64
  inst : UInt32
  /-- Fetch was redirected after this instruction. -/
  predictedTaken : Flag
  /-- Where fetch was redirected to. -/
  predictedTarget : UInt64
deriving DecidableEq

namespace MicroOp

/-- The unused slot. -/
def empty : MicroOp := ⟨.set, 0, 0, 0, 0, .clear, 0⟩

/-- Bytes in the image of a micro-op. -/
def imageBytes : Nat := 38

/-- The bit image. -/
def encode (o : MicroOp) : List UInt8 :=
  o.bubble.raw :: (Bytes.ofUInt64 o.pc ++ Bytes.ofUInt64 o.seqNum ++ Bytes.ofUInt64 o.streamSeq ++
    Bytes.ofUInt32 o.inst ++ (o.predictedTaken.raw :: Bytes.ofUInt64 o.predictedTarget))

/-- The micro-op at the start of a byte string. -/
def decode (bs : List UInt8) : MicroOp :=
  { bubble := ⟨Bytes.u8At bs 0⟩
    pc := Bytes.u64At bs 1
    seqNum := Bytes.u64At bs 9
    streamSeq := Bytes.u64At bs 17
    inst := Bytes.u32At bs 25
    predictedTaken := ⟨Bytes.u8At bs 29⟩
    predictedTarget := Bytes.u64At bs 30 }

/-- The stream and the number. -/
def display (o : MicroOp) : String := s!"{o.streamSeq}.{o.seqNum}"

end MicroOp

/-- A row of micro-ops of one thread. -/
structure Bundle where
  /-- Slots in use, as latched; it may exceed the width. -/
  count : UInt8
  thread : UInt32
  slots : List MicroOp
deriving DecidableEq

namespace Bundle

/-- The bundle of `width` unused slots. -/
def empty (width : Nat) : Bundle := ⟨0, 0, List.replicate width .empty⟩

/-- The number of slots. -/
def width (b : Bundle) : Nat := b.slots.length

/-- No slot is in use. -/
def isEmpty (b : Bundle) : Bool := b.count == 0

/-- No further micro-op fits. -/
def isFull (b : Bundle) : Bool := b.slots.length ≤ b.count.toNat

/-- The micro-ops in use, in program order. -/
def insts (b : Bundle) : List MicroOp := b.slots.take b.count.toNat

/-- Put a micro-op into the next slot; `none` if the bundle is full. -/
def push? (b : Bundle) (o : MicroOp) : Option Bundle :=
  if b.count.toNat < b.slots.length then
    some { b with count := b.count + 1, slots := b.slots.set b.count.toNat o }
  else none

/-- Change the micro-ops in use. -/
def mapInsts (b : Bundle) (f : MicroOp → MicroOp) : Bundle :=
  { b with slots := b.insts.map f ++ b.slots.drop b.count.toNat }

/-- The bundle of these micro-ops of a thread in a row of `width` slots. -/
def ofInsts (width : Nat) (thread : UInt32) (ops : List MicroOp) : Bundle :=
  ⟨UInt8.ofNat ops.length, thread, ops ++ List.replicate (width - ops.length) .empty⟩

/-- The bit image: 5 bytes, then the slots. -/
def encode (b : Bundle) : List UInt8 :=
  b.count :: (Bytes.ofUInt32 b.thread ++ b.slots.flatMap MicroOp.encode)

/-- The bundle of any byte string, with as many slots as fit whole. -/
def decode (bs : List UInt8) : Bundle :=
  { count := Bytes.u8At bs 0
    thread := Bytes.u32At bs 1
    slots := (List.range ((bs.length - 5) / MicroOp.imageBytes)).map fun i =>
      MicroOp.decode (bs.drop (5 + MicroOp.imageBytes * i)) }

/-- The micro-ops in use, or a dash for an empty slot. -/
def display (b : Bundle) : String :=
  if b.isEmpty then "-" else ",".intercalate (b.insts.map MicroOp.display)

end Bundle

instance : Payload Bundle where
  isBubble := Bundle.isEmpty
  countsAsBubble := Bundle.isEmpty
  encode := Bundle.encode
  decode := Bundle.decode
  display := Bundle.display

end InOrder
