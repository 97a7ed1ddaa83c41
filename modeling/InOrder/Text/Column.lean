/-!
# Columns

Text is padded with blanks to a width counted in characters. A text that is wider than its column
is never cut.
-/

namespace InOrder.Text

/-- `n` blanks. -/
def blanks (n : Nat) : String := String.ofList (List.replicate n ' ')

/-- `s` at the left of a column of `width` characters. -/
def left (width : Nat) (s : String) : String := s ++ blanks (width - s.length)

/-- `s` at the right of a column of `width` characters. -/
def right (width : Nat) (s : String) : String := blanks (width - s.length) ++ s

end InOrder.Text
