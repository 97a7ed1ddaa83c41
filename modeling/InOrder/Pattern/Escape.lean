import InOrder.Text.Blank
import InOrder.Text.Hex

/-!
# Characters and escapes of a pattern

A pattern is a regular expression, of which only its form is of interest here. What form it may
have depends on switches that it can set for parts of itself.

Patterns match whole characters, and no tables of character properties are at hand. So with
`unicode` on no character can be matched in any case, and there are no classes of digits, blanks
and word characters and no edges of words. With `unicode` off these exist for ASCII, but nothing
that could match part of a character: no byte above 127, no complement of a class, and no dot.
-/

namespace InOrder.Pattern

/-- The switches under which a part of a pattern stands. -/
structure Switches where
  /-- Characters match in upper and lower case. -/
  anyCase : Bool := false
  /-- Classes and edges are those of Unicode. -/
  unicode : Bool := true
  /-- White space and comments are passed over. -/
  spaced : Bool := false
deriving DecidableEq, Repr

namespace Switches

/-- A character may stand by itself; `byte` says that it is written as a byte. -/
def allowsChar (s : Switches) (c : Char) (byte : Bool) : Bool :=
  if s.unicode then !s.anyCase else !byte || c.toNat < 128

/-- A character may be a member of a class. -/
def allowsMember (s : Switches) (c : Char) : Bool :=
  if s.unicode then !s.anyCase else c.toNat < 128

/-- The class of digits, of blanks or of word characters may stand, or of all `others`. -/
def allowsShorthand (s : Switches) (others : Bool) : Bool := !s.unicode && !others

/-- A class may have a named class as a member, or all `others`. -/
def allowsNamed (s : Switches) (others : Bool) : Bool :=
  if s.unicode then !s.anyCase else !others

end Switches

/-! ### White space and comments -/

/-- Drop white space and comments. A comment runs from `#` to the end of the line. -/
def dropSpace : (comment : Bool) → List Char → List Char
  | _, [] => []
  | true, c :: r => dropSpace (c != '\n') r
  | false, c :: r =>
    if Text.isBlank c then dropSpace false r
    else if c = '#' then dropSpace true r
    else c :: r

/-- Pass over white space and comments if they do not count. -/
def Switches.skip (s : Switches) (cs : List Char) : List Char :=
  if s.spaced then dropSpace false cs else cs

/-! ### Escapes -/

/-- What an escape stands for. -/
inductive Escape where
  /-- A character; `byte` says that it is written as a byte. -/
  | char (value : Char) (byte : Bool)
  /-- The class of digits, of blanks or of word characters, or of all others. -/
  | shorthand (others : Bool)
  /-- The start or the end of the text. -/
  | textEdge
  /-- The edge of a word, or any other place. -/
  | wordEdge
deriving DecidableEq, Repr

/-- The escape that is made of one character. Punctuation and controls stand for themselves; a
letter or a digit that has no meaning is refused. -/
def escapeOf? (c : Char) : Option Escape :=
  match c with
  | 'd' | 's' | 'w' => some (.shorthand false)
  | 'D' | 'S' | 'W' => some (.shorthand true)
  | 'A' | 'z' => some .textEdge
  | 'b' | 'B' | '<' | '>' => some .wordEdge
  | 'a' => some (.char '\x07' false)
  | 't' => some (.char '\t' false)
  | 'n' => some (.char '\n' false)
  | 'v' => some (.char '\x0b' false)
  | 'f' => some (.char '\x0c' false)
  | 'r' => some (.char '\r' false)
  | c => if c.toNat < 128 ∧ c.isAlphanum = false then some (.char c false) else none

/-- The number with the digits of `value` and the next `n` hexadecimal digits. -/
def digits? (s : Switches) : (n value : Nat) → List Char → Option (Nat × List Char)
  | 0, value, cs => some (value, cs)
  | _ + 1, _, [] => none
  | n + 1, value, c :: r =>
    match Hex.value? c with
    | some d => digits? s n (16 * value + d) (s.skip r)
    | none => none

/-- The character that the next `n` hexadecimal digits number. -/
def coded? (s : Switches) (n : Nat) (cs : List Char) : Option (Char × List Char) :=
  match digits? s n 0 (s.skip cs) with
  | some (v, r) => if v.isValidChar then some (Char.ofNat v, r) else none
  | none => none

/-- The escape whose backslash stands before `cs`, and what follows it. -/
def escape? (s : Switches) : List Char → Option (Escape × List Char)
  | [] => none
  | 'x' :: r => (coded? s 2 r).map fun (c, r) => (.char c true, r)
  | 'u' :: r => (coded? s 4 r).map fun (c, r) => (.char c false, r)
  | 'U' :: r => (coded? s 8 r).map fun (c, r) => (.char c false, r)
  | c :: r => (escapeOf? c).map fun e => (e, r)

end InOrder.Pattern
