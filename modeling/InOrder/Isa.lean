/-!
# Instruction classes

The pipeline tells three kinds of 32-bit instruction word apart: a jump with its byte offset, a
call to the environment that suspends the thread, and everything else.

A jump carries a 21-bit signed offset whose lowest bit is zero. Its other bits stand in four
fields: bit 20 on top, then bits 10 to 1, bit 11, and bits 19 to 12; below them are the
destination register and the opcode. `jumpImmediate` gathers the fields, `encodeJump` scatters
them.
-/

namespace InOrder.Isa

/-- Bytes in one instruction word. -/
def wordBytes : Nat := 4

/-- The opcode of a jump, in the low seven bits. -/
def jumpOpcode : UInt32 := 0b1101111

/-- The word that suspends its thread. -/
def suspendWord : UInt32 := 0x73

/-- The low seven bits of a word. -/
def opcode (inst : UInt32) : UInt32 := inst &&& 0x7f

/-- The offset field of a jump, put back in order. -/
def jumpImmediate (inst : UInt32) : BitVec 21 :=
  let w := inst.toBitVec
  w.extractLsb' 31 1 ++ w.extractLsb' 12 8 ++ w.extractLsb' 20 1 ++ w.extractLsb' 21 10 ++ 0#1

/-- The jump to register `rd` by `offset`. Only bits 20 to 1 of the offset and the low five bits
of the register fit. -/
def encodeJump (rd : UInt32) (offset : Int) : UInt32 :=
  let o := BitVec.ofInt 21 offset
  ⟨o.extractLsb' 20 1 ++ o.extractLsb' 1 10 ++ o.extractLsb' 11 1 ++ o.extractLsb' 12 8 ++
    rd.toBitVec.extractLsb' 0 5 ++ jumpOpcode.toBitVec.extractLsb' 0 7⟩

/-- What the pipeline makes of an instruction. -/
inductive Kind where
  /-- Continue `offset` bytes from the jump's own address. -/
  | jump (offset : Int)
  /-- Stop fetching for the thread. -/
  | suspend
  /-- Continue at the next word. -/
  | plain
deriving DecidableEq

/-- The kind of an instruction word. -/
def classify (inst : UInt32) : Kind :=
  if opcode inst = jumpOpcode then .jump (jumpImmediate inst).toInt
  else if inst = suspendWord then .suspend
  else .plain

/-- `base + offset` in 64-bit addresses. -/
def displace (base : UInt64) (offset : Int) : UInt64 := base + ⟨BitVec.ofInt 64 offset⟩

/-- The address of the next word. -/
def nextWord (pc : UInt64) : UInt64 := pc + 4

end InOrder.Isa
