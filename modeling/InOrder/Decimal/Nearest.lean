/-!
# Rounding to the nearest

`nearest` rounds a fraction to a natural number, and `nearestDouble` a natural number to a double,
which has 53 significant bits. A value half-way between two neighbours goes to the even one.
-/

namespace InOrder.Decimal

/-- The natural nearest to `num / den`; of two equally near the even one. -/
def nearest (num den : Nat) : Nat :=
  let q := num / den
  let r := 2 * (num % den)
  if r < den then q else if den < r then q + 1 else q + q % 2

/-- The double nearest to `n`, if there were no limit to its size. -/
def nearestDouble (n : Nat) : Nat :=
  let unit := Nat.pow 2 (Nat.log2 n - 52)
  nearest n unit * unit

/-- From here on a magnitude rounds to no finite double: half a unit above the largest of them. -/
def doubleLimit : Nat := Nat.pow 2 1024 - Nat.pow 2 970

end InOrder.Decimal
