import InOrder.Decimal.Nearest

/-!
# JSON values, read up to their first fault

A JSON text is read once, from left to right, and whoever uses the value decides what to look at:
a member that is of no interest only has to be well formed. So a fault in the text does not make
the whole text unreadable. It stays where it stands, in the value or as the way a container ends,
and it is reported only if the user of the value gets that far.

* `Json.use` is the fault met by a reader that wanted something else than the value at hand.
* `Json.skip` is the fault met by a reader that passes over the value.

The two differ for a number cut short by the end of the text and for the escapes of a string,
which a reader that passes over them does not pair up.
-/

namespace InOrder

/-- What is wrong with a JSON text. -/
inductive Json.Fault where
  /-- The text is not JSON, or a number in it is too large. -/
  | malformed
  /-- The text is JSON, and a value in it is not what belongs there. -/
  | unsuitable
  /-- The text ends before the value does. -/
  | truncated
deriving DecidableEq, Repr

/-- The number `± significand * 10 ^ scale`. The significand has the digits that are kept of the
number, which are as many as fit in 64 bits. -/
structure Json.Number where
  negative : Bool
  significand : Nat
  scale : Int
  /-- Written with neither a point nor an exponent. -/
  whole : Bool
deriving DecidableEq

/-- How the members of an object end. -/
inductive Json.Ending where
  /-- With the closing brace. -/
  | closed
  /-- With a fault after the last member. -/
  | stopped (fault : Json.Fault)
  /-- With a comma that no member follows. -/
  | dangling (fault : Json.Fault)
deriving DecidableEq

/-- A value, with the faults of its text in their places. -/
inductive Json where
  | null
  | bool (value : Bool)
  | number (value : Json.Number)
  /-- A string: its text or the fault met on using it, and the fault met on passing over it. -/
  | string (text : Except Json.Fault (List Char)) (skipped : Option Json.Fault)
  /-- The elements, the last of which may be broken, and the fault of the whole. -/
  | array (items : List Json) (fault : Option Json.Fault)
  /-- The members in order, and how they end. -/
  | object (members : List (Except Json.Fault (List Char) × Json)) (ending : Json.Ending)
  /-- The text ends where the value should begin. -/
  | missing
  /-- No value: the fault met on using it and on passing over it. -/
  | broken (used skipped : Json.Fault)

namespace Json

/-- The largest scale at which a number can round to a finite double. -/
def largestScale : Int := 308

/-- The number rounds to no finite double. It is judged in two steps: the significand and the power
of ten are rounded to doubles, and then their product is. -/
def Number.exceedsDouble (n : Number) : Bool :=
  if n.significand = 0 ∨ n.scale < 0 then false
  else if largestScale < n.scale then true
  else
    Decimal.doubleLimit ≤
      Decimal.nearestDouble n.significand * Decimal.nearestDouble (Nat.pow 10 n.scale.toNat)

/-- The fault met by a reader that cannot use the number. -/
def Number.use (n : Number) : Fault :=
  if n.exceedsDouble then .malformed else .unsuitable

/-- The fault met by a reader that cannot use the value. -/
def use : Json → Fault
  | .number n => n.use
  | .string (.error f) _ => f
  | .missing => .truncated
  | .broken u _ => u
  | _ => .unsuitable

/-- The fault at the end of an object. -/
def Ending.fault : Ending → Option Fault
  | .closed => none
  | .stopped f | .dangling f => some f

/-- The fault met on passing over the value. -/
def skip : Json → Option Fault
  | .string _ skipped => skipped
  | .array _ fault => fault
  | .object _ ending => ending.fault
  | .missing => some .truncated
  | .broken _ s => some s
  | _ => none

/-- A natural number up to `bound`, written without point and exponent. -/
def natural (bound : Nat) : Json → Except Fault Nat
  | .number n =>
    if n.whole = true ∧ n.negative = false ∧ n.scale = 0 ∧ n.significand ≤ bound then
      .ok n.significand
    else .error n.use
  | v => .error v.use

/-- A truth value. -/
def truth : Json → Except Fault Bool
  | .bool b => .ok b
  | v => .error v.use

/-- A text. -/
def text : Json → Except Fault String
  | .string (.ok cs) _ => .ok (String.ofList cs)
  | v => .error v.use

end Json

end InOrder
