import InOrder.Decimal.Dyadic

/-!
# The fewest digits that read back

`shortest d` is the decimal with the fewest digits that rounds to the double `d`, and of those the
one nearest to it. For one digit, two digits and so on, the two neighbours of the exact value on
that decimal grid are tested against the interval of values that round to the double; the first
grid with a hit wins. `Layout` says how such a decimal is laid out: plainly while the point
falls near the digits, and with a power of ten otherwise.
-/

namespace InOrder.Decimal

/-- The number `digits * 10 ^ exponent`. -/
structure Numeral where
  digits : Nat
  exponent : Int
deriving DecidableEq

/-- The values that round to a double lie between `low / scale` and `high / scale`; the ends
belong to them when the mantissa is even. -/
structure Interval where
  low : Nat
  high : Nat
  scale : Nat
  closed : Bool

/-- The values that round to `d`: half a unit on each side, a quarter below a power of two, where
the doubles below lie twice as close. -/
def Dyadic.interval (d : Dyadic) : Interval :=
  let unit := Nat.pow 2 d.exponent.toNat
  let below := if d.mantissa = Nat.pow 2 52 ∧ -1074 < d.exponent then 1 else 2
  { low := (4 * d.mantissa - below) * unit
    high := (4 * d.mantissa + 2) * unit
    scale := 4 * d.den
    closed := d.mantissa % 2 == 0 }

/-- The fraction `num / den` lies in the interval. -/
def Interval.contains (i : Interval) (num den : Nat) : Bool :=
  let lo := i.low * den
  let x := num * i.scale
  let hi := i.high * den
  if i.closed then lo ≤ x && x ≤ hi else lo < x && x < hi

/-- The power of ten of the first digit of `num / den`, for a positive value. -/
def leadingPower (num den : Nat) : Int :=
  if den ≤ num then ((Nat.toDigits 10 (num / den)).length : Int) - 1
  else
    let guess := (Nat.toDigits 10 (den / num)).length
    if den ≤ num * Nat.pow 10 (guess - 1) then -((guess : Int) - 1) else -(guess : Int)

/-- The decimal nearest to `d` of those with `n` digits that lie in its interval. -/
def Dyadic.onGrid? (d : Dyadic) (n : Nat) : Option Numeral :=
  let k := leadingPower d.num d.den - (n : Int) + 1
  let up := Nat.pow 10 k.toNat
  let down := Nat.pow 10 (-k).toNat
  let num := d.num * down
  let den := d.den * up
  let lower := num / den
  let i := d.interval
  let hitLow := i.contains (lower * up) down
  let hitHigh := i.contains ((lower + 1) * up) down
  let rest := 2 * (num % den)
  if hitLow && (!hitHigh || rest < den || (rest == den && lower % 2 == 0)) then some ⟨lower, k⟩
  else if hitHigh then some (if lower + 1 = Nat.pow 10 n then ⟨1, k + n⟩ else ⟨lower + 1, k⟩)
  else none

/-- The decimal with the fewest digits that rounds to `d`; seventeen always suffice. -/
def shortest (d : Dyadic) : Numeral :=
  if d.num = 0 then ⟨0, 0⟩
  else ((List.range 17).findSome? fun n => d.onGrid? (n + 1)).getD ⟨d.floor, 0⟩

/-- Where decimals are written plainly, as bounds on the number of digits before the point. -/
structure Layout where
  /-- The point stands at least this far to the right of the first digit. -/
  least : Int
  /-- The point stands at most this far to the right of the first digit. -/
  most : Int

/-- `x` in the given layout. A whole number written plainly ends in a point and a zero; the power of
ten always has a sign. -/
def Layout.render (l : Layout) (x : Numeral) : String :=
  let ds := Nat.toDigits 10 x.digits
  let point := (ds.length : Int) + x.exponent
  if 0 ≤ x.exponent ∧ point ≤ l.most then
    String.ofList (ds ++ List.replicate x.exponent.toNat '0') ++ ".0"
  else if 0 < point ∧ point ≤ l.most then
    String.ofList (ds.take point.toNat) ++ "." ++ String.ofList (ds.drop point.toNat)
  else if l.least < point ∧ point ≤ 0 then
    "0." ++ String.ofList (List.replicate (-point).toNat '0' ++ ds)
  else
    let fraction := if ds.length = 1 then "" else "." ++ String.ofList (ds.drop 1)
    let sign := if point ≤ 0 then "-" else "+"
    String.ofList (ds.take 1) ++ fraction ++ "e" ++ sign ++ toString (point - 1).natAbs

end InOrder.Decimal
