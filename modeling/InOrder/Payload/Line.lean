import InOrder.Payload.Basic

/-!
# Fetched lines

A line is a run of instruction bytes with the address of its first byte, the address from which
fetch entered it, and the stream and prediction numbers of its thread when it was requested.
-/

namespace InOrder

/-- A line from the instruction cache. -/
structure Line where
  bubble : Flag
  thread : UInt32
  /-- Where fetch entered the line. -/
  pc : UInt64
  /-- Address of the first byte of `data`. -/
  lineBase : UInt64
  streamSeq : UInt64
  predictionSeq : UInt64
  data : List UInt8
deriving DecidableEq

namespace Line

/-- The empty slot. -/
def empty : Line := ⟨.set, 0, 0, 0, 0, 0, []⟩

/-- The bytes from where fetch entered the line. -/
def fetched (l : Line) : List UInt8 := l.data.drop (l.pc.toNat - l.lineBase.toNat)

/-- The word at an address, if all four of its bytes lie in the line. -/
def wordAt? (l : Line) (pc : UInt64) : Option UInt32 :=
  let offset := (pc - l.lineBase).toNat
  if offset + 4 ≤ l.data.length then some (Bytes.u32At l.data offset) else none

/-- The bit image: 37 bytes of fields, then the data. -/
def encode (l : Line) : List UInt8 :=
  l.bubble.raw :: (Bytes.ofUInt32 l.thread ++ Bytes.ofUInt64 l.pc ++ Bytes.ofUInt64 l.lineBase ++
    Bytes.ofUInt64 l.streamSeq ++ Bytes.ofUInt64 l.predictionSeq ++ l.data)

/-- The line of any byte string. -/
def decode (bs : List UInt8) : Line :=
  { bubble := ⟨Bytes.u8At bs 0⟩
    thread := Bytes.u32At bs 1
    pc := Bytes.u64At bs 5
    lineBase := Bytes.u64At bs 13
    streamSeq := Bytes.u64At bs 21
    predictionSeq := Bytes.u64At bs 29
    data := bs.drop 37 }

/-- Numbers, entry and length, or a dash for an empty slot. -/
def display (l : Line) : String :=
  if l.bubble.isSet then "-"
  else s!"{l.streamSeq}.{l.predictionSeq}/{Hex.marked l.pc.toNat}({l.data.length})"

end Line

instance : Payload Line where
  isBubble l := l.bubble.isSet
  countsAsBubble l := l.bubble.isSet
  encode := Line.encode
  decode := Line.decode
  display := Line.display

end InOrder
