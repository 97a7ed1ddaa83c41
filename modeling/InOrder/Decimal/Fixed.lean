import InOrder.Decimal.Dyadic
import InOrder.Decimal.Nearest

/-!
# A fixed number of decimal places

`fixed places d` rounds the exact value to `places` decimals. A value half-way between two
neighbours goes to the one whose last digit is even.
-/

namespace InOrder.Decimal

/-- `d` with `places` digits after the point. -/
def fixed (places : Nat) (d : Dyadic) : String :=
  let scaled := nearest (d.num * Nat.pow 10 places) d.den
  let fraction := Nat.toDigits 10 (scaled % Nat.pow 10 places)
  toString (scaled / Nat.pow 10 places) ++ "." ++
    String.ofList (List.replicate (places - fraction.length) '0' ++ fraction)

end InOrder.Decimal
