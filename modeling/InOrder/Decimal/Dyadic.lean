/-!
# Exact value of a double

A finite, non-negative double is `mantissa * 2 ^ exponent` for naturals and an integer exponent.
All decimal text is made from this exact value: `Dyadic.num` and `Dyadic.den` are its numerator
and denominator.
-/

namespace InOrder.Decimal

/-- The number `mantissa * 2 ^ exponent`. -/
structure Dyadic where
  mantissa : Nat
  exponent : Int
deriving DecidableEq

namespace Dyadic

/-- The magnitude of the finite double with these bits. -/
def ofBits (bits : UInt64) : Dyadic :=
  let fraction : Nat := bits.toNat % Nat.pow 2 52
  let biased : Nat := bits.toNat / Nat.pow 2 52 % Nat.pow 2 11
  if biased = 0 then ⟨fraction, -1074⟩ else ⟨fraction + Nat.pow 2 52, (biased : Int) - 1075⟩

/-- The magnitude of a finite double. -/
def ofFloat (x : Float) : Dyadic := ofBits x.toBits

/-- Numerator of the value. -/
def num (d : Dyadic) : Nat := d.mantissa * Nat.pow 2 d.exponent.toNat

/-- Denominator of the value, a power of two. -/
def den (d : Dyadic) : Nat := Nat.pow 2 (-d.exponent).toNat

/-- The value is a natural number. -/
def isWhole (d : Dyadic) : Bool := d.num % d.den == 0

/-- The value without its fraction. -/
def floor (d : Dyadic) : Nat := d.num / d.den

end Dyadic

end InOrder.Decimal
