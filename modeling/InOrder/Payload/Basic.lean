import InOrder.Bytes
import InOrder.Text.Hex

/-!
# Payloads of pipeline registers

Whatever sits in a pipeline register has a bit image: a byte string that `decode` turns back into a
payload, whatever the bits are. So flipping one bit of the image is defined for every payload,
bubbles included: `flip?` gives the payload of the flipped image, and `none` for a bit outside it.

A register counts as empty when its payload `isBubble`; the statistics count a cycle as a bubble
when the payload `countsAsBubble`, which is more often for redirects.
-/

namespace InOrder

/-- A truth value in a latch of one byte. Its value is the lowest bit; the other seven are carried
along. -/
structure Flag where
  raw : UInt8
deriving DecidableEq, Repr

namespace Flag

/-- The latch that holds false. -/
def clear : Flag := ⟨0⟩

/-- The latch that holds true. -/
def set : Flag := ⟨1⟩

/-- The value of the latch. -/
def isSet (f : Flag) : Bool := f.raw &&& 1 != 0

@[simp] theorem isSet_clear : clear.isSet = false := by decide

@[simp] theorem isSet_set : set.isSet = true := by decide

end Flag

/-- Data that can sit in a pipeline register. -/
class Payload (α : Type) where
  /-- The slot is empty. -/
  isBubble : α → Bool
  /-- The slot is empty for the statistics. -/
  countsAsBubble : α → Bool
  /-- The bit image. -/
  encode : α → List UInt8
  /-- The payload of any byte string. -/
  decode : List UInt8 → α
  /-- The payload in traces. -/
  display : α → String

namespace Payload

variable {α : Type} [Payload α]

/-- The number of bits in the image. -/
def bitCount (p : α) : Nat := 8 * (encode p).length

/-- The byte with bit `i` flipped, for `i < 8`. -/
def flipByte (b : UInt8) (i : Nat) : UInt8 := b ^^^ (1 <<< UInt8.ofNat i)

/-- The byte string with one bit flipped; bits count from the lowest of the first byte. -/
def flipImage? (image : List UInt8) (bit : Nat) : Option (List UInt8) :=
  match image[bit / 8]? with
  | some b => some (image.set (bit / 8) (flipByte b (bit % 8)))
  | none => none

/-- The payload with one bit of its image flipped. -/
def flip? (p : α) (bit : Nat) : Option α := (flipImage? (encode p) bit).map decode

/-- The payload with one bit of its image flipped, and whether there is such a bit. -/
def flip (p : α) (bit : Nat) : α × Bool :=
  match flip? p bit with
  | some q => (q, true)
  | none => (p, false)

end Payload

end InOrder
