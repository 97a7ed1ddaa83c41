/-!
# Classes of characters

A class of characters is given by the code points at which it begins and ends, alternately and in
increasing order. So a code point belongs to the class exactly when an odd number of these bounds
lies at or below it.
-/

namespace InOrder.Text

/-- The code point lies in the class with these bounds. -/
def liesWithin (bounds : Array Nat) (n : Nat) : Bool := bounds.countP (· ≤ n) % 2 == 1

end InOrder.Text
