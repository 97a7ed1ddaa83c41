import InOrder.Bytes

/-!
# Program image

A program is a run of bytes at a base address, read-only and zero everywhere else.
`Image.ofWords` lays out instruction words in little-endian order; `Image.read` is defined at
every address.
-/

namespace InOrder

/-- Instruction memory. -/
structure Image where
  /-- Address of the first byte. -/
  base : UInt64
  /-- The bytes from `base` on. -/
  bytes : Array UInt8
deriving DecidableEq

namespace Image

/-- The image of `words` at `base`. -/
def ofWords (base : UInt64) (words : List UInt32) : Image :=
  ⟨base, (words.flatMap Bytes.ofUInt32).toArray⟩

/-- Where every thread starts. -/
def entry (m : Image) : UInt64 := m.base

/-- The address after the last byte. -/
def endAddress (m : Image) : UInt64 := m.base + UInt64.ofNat m.bytes.size

/-- The number of whole instruction words. -/
def wordCount (m : Image) : Nat := m.bytes.size / 4

/-- No byte at all. -/
def isEmpty (m : Image) : Bool := m.bytes.isEmpty

/-- The byte at an address, zero outside the image. -/
def byteAt (m : Image) (addr : UInt64) : UInt8 :=
  if addr < m.base then 0 else m.bytes.getD (addr - m.base).toNat 0

/-- `len` bytes from `addr` on; addresses wrap. -/
def read (m : Image) (addr : UInt64) (len : Nat) : List UInt8 :=
  (List.range len).map fun i => m.byteAt (addr + UInt64.ofNat i)

@[simp] theorem length_read (m : Image) (addr : UInt64) (len : Nat) :
    (m.read addr len).length = len := by
  simp [read]

end Image

end InOrder
