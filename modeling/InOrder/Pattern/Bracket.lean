import InOrder.Pattern.Escape

/-!
# Classes in brackets

A class in brackets lists characters, ranges, named classes and further classes in brackets, and
may join such lists by the operators `&&`, `--` and `~~`. A caret after the bracket means the
complement. Hyphens at the start stand for themselves, and so does a closing bracket that is the
first of all.

Reading a class gives its depth, by which patterns are limited. Items that stand side by side make
up a row: a row of one item is as deep as the item, and a longer one is a level deeper than its
deepest item.
-/

namespace InOrder.Pattern

/-- Items side by side. -/
structure Row where
  size : Nat := 0
  /-- The depth of the deepest item. -/
  deepest : Nat := 0
deriving DecidableEq, Repr

namespace Row

/-- Put an item of depth `d` at the end. -/
def add (r : Row) (d : Nat) : Row := ⟨r.size + 1, max r.deepest d⟩

/-- The depth of the row. -/
def depth (r : Row) : Nat := if r.size ≤ 1 then r.deepest else r.deepest + 1

end Row

/-- A list of members, and the depth of what stands before it up to the last operator. -/
structure Listing where
  row : Row := {}
  left : Option Nat := none
deriving DecidableEq, Repr

namespace Listing

/-- Put an item of depth `d` at the end. -/
def add (l : Listing) (d : Nat) : Listing := { l with row := l.row.add d }

/-- The depth of all that was listed; an operator is a level above its sides. -/
def depth (l : Listing) : Nat :=
  match l.left with
  | some d => max d l.row.depth + 1
  | none => l.row.depth

/-- Begin the right side of an operator. -/
def operator (l : Listing) : Listing := { left := some l.depth }

end Listing

/-! ### Members -/

/-- The names of the named classes. -/
def classNames : List String :=
  ["alnum", "alpha", "ascii", "blank", "cntrl", "digit", "graph", "lower", "print", "punct",
   "space", "upper", "word", "xdigit"]

/-- What follows the name of a named class and its end. -/
def nameEnd? (cs : List Char) : Option (List Char) :=
  match cs.dropWhile (· != ':') with
  | ':' :: ']' :: r =>
    if classNames.contains (String.ofList (cs.takeWhile (· != ':'))) then some r else none
  | _ => none

/-- A named class after its bracket: whether all others are meant, and what follows. -/
def namedClass? : List Char → Option (Bool × List Char)
  | ':' :: '^' :: r => (nameEnd? r).map fun r => (true, r)
  | ':' :: r => (nameEnd? r).map fun r => (false, r)
  | _ => none

/-- A single member: the character, unless it is a class, and what follows. -/
def member? (s : Switches) : List Char → Option (Option Char × List Char)
  | [] => none
  | '\\' :: r =>
    match escape? s r with
    | some (.char c _, r) => if s.allowsMember c then some (some c, r) else none
    | some (.shorthand others, r) => if s.allowsShorthand others then some (none, r) else none
    | _ => none
  | c :: r => if s.allowsMember c then some (some c, r) else none

/-- The character that decides whether a hyphen before `cs` makes a range. Where white space does
not count, the first character after it and after a number sign is taken. -/
def ahead (s : Switches) (cs : List Char) : Option Char :=
  if s.spaced then
    match Text.trimStart cs with
    | '#' :: r => (Text.trimStart r).head?
    | r => r.head?
  else cs.head?

/-- A member or a range, and what follows. A hyphen before a closing bracket or another hyphen makes
no range. -/
def range? (s : Switches) (cs : List Char) : Option (List Char) :=
  match member? s cs with
  | none => none
  | some (first, r) =>
    match s.skip r with
    | '-' :: r =>
      if ahead s r = some ']' ∨ ahead s r = some '-' then some ('-' :: r)
      else match first, member? s (s.skip r) with
        | some a, some (some b, r) => if a ≤ b then some r else none
        | _, _ => none
    | r => some r

/-! ### Brackets -/

/-- Where in a class the next character stands. -/
inductive Place where
  | first
  /-- After the hyphens at the start. -/
  | hyphens
  | later
deriving DecidableEq, Repr

/-- What follows an opening bracket and a caret. -/
def opened? (s : Switches) (cs : List Char) : Option (List Char) :=
  match s.skip cs with
  | '^' :: r => if s.unicode then some r else none
  | r => some r

/-- The depth of a class from `cs` on, and what follows it. The listing is that of the innermost
open bracket, and `outer` has those around it. -/
def bracketFrom (s : Switches) :
    (fuel : Nat) → Place → Listing → (outer : List Listing) → List Char →
    Option (Nat × List Char)
  | 0, _, _, _, _ => none
  | fuel + 1, place, l, outer, cs =>
    match place, s.skip cs with
    | _, [] => none
    | .first, '-' :: r | .hyphens, '-' :: r =>
      if s.allowsMember '-' then bracketFrom s fuel .hyphens (l.add 0) outer r else none
    | .first, ']' :: r =>
      if s.allowsMember ']' then bracketFrom s fuel .later (l.add 0) outer r else none
    | _, '[' :: r =>
      match namedClass? r with
      | some (others, r) =>
        if s.allowsNamed others then bracketFrom s fuel .later (l.add 0) outer r else none
      | none =>
        match opened? s r with
        | some r => bracketFrom s fuel .first {} (l :: outer) r
        | none => none
    | _, ']' :: r =>
      match outer with
      | [] => some (l.depth + 1, r)
      | around :: outer => bracketFrom s fuel .later (around.add (l.depth + 1)) outer r
    | _, '&' :: '&' :: r | _, '-' :: '-' :: r | _, '~' :: '~' :: r =>
      bracketFrom s fuel .later l.operator outer r
    | _, cs =>
      match range? s cs with
      | some r => bracketFrom s fuel .later (l.add 0) outer r
      | none => none

/-- The depth of the class whose bracket stands before `cs`, and what follows it. Each round takes a
character at least. -/
def bracket? (s : Switches) (cs : List Char) : Option (Nat × List Char) :=
  match opened? s cs with
  | some r => bracketFrom s (r.length + 1) .first {} [] r
  | none => none

end InOrder.Pattern
