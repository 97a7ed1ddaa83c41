/-!
# White space and lines

White space is the Unicode property `White_Space`, which has 25 characters. `trim` takes it off
both ends. `lines` cuts a text at each line feed; a carriage return belongs to the line end only
when it stands directly before the line feed, so that a return that ends the last line without a
line feed is kept.
-/

namespace InOrder.Text

/-- A character of the property `White_Space`. -/
def isBlank (c : Char) : Bool :=
  let n := c.toNat
  (9 ≤ n && n ≤ 13) || n == 0x20 || n == 0x85 || n == 0xa0 || n == 0x1680 ||
    (0x2000 ≤ n && n ≤ 0x200a) || n == 0x2028 || n == 0x2029 || n == 0x202f || n == 0x205f ||
    n == 0x3000

/-- Drop the white space at the start. -/
def trimStart (cs : List Char) : List Char := cs.dropWhile isBlank

/-- Drop the white space at the end. -/
def trimEnd (cs : List Char) : List Char := (cs.reverse.dropWhile isBlank).reverse

/-- Drop the white space at both ends. -/
def trim (cs : List Char) : List Char := trimEnd (trimStart cs)

/-- The line held backwards in `held`, which a line feed has ended. -/
def closeLine : List Char → List Char
  | '\r' :: held => held.reverse
  | held => held.reverse

/-- The lines of `cs`, after the characters of `held` (backwards) on the current line. -/
def linesFrom (held : List Char) : List Char → List (List Char)
  | [] => if held.isEmpty then [] else [held.reverse]
  | c :: cs => if c = '\n' then closeLine held :: linesFrom [] cs else linesFrom (c :: held) cs

/-- The lines of a text. A line feed at the very end opens no further line. -/
def lines (cs : List Char) : List (List Char) := linesFrom [] cs

end InOrder.Text
