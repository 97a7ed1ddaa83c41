import InOrder.Pattern.Bracket
import InOrder.Text.Letter

/-!
# Well-formed patterns

`isWellFormed` says whether a text is a pattern: groups and classes are closed, no group looks
around, each repetition has something to repeat, each escape exists, the names of groups differ,
the switches admit what stands under them, and nothing is nested deeper than 250 levels.

A counted repetition is never complete, since a pattern here is written between braces and ends at
the first that closes. So an opening brace outside of a class is always at fault.

Switches that are set in a group hold to its end.
-/

namespace InOrder.Pattern

/-- How deep a pattern may be. -/
def depthLimit : Nat := 250

/-! ### Levels -/

/-- What has been read of a group: the alternatives that are finished, and the items of the one that
is not. -/
structure Level where
  alternatives : Row := {}
  row : Row := {}
  /-- The depth of the last item, if it can be repeated. -/
  last : Option Nat := none
deriving DecidableEq, Repr

namespace Level

/-- Put an item of depth `d` at the end. -/
def add (l : Level) (d : Nat) : Level := { l with row := l.row.add d, last := some d }

/-- Put the setting of switches at the end. -/
def addSetting (l : Level) : Level := { l with row := l.row.add 0, last := none }

/-- Repeat the last item. -/
def repeated? (l : Level) : Option Level :=
  l.last.map fun d =>
    { l with row := { l.row with deepest := max l.row.deepest (d + 1) }, last := some (d + 1) }

/-- Begin another alternative. -/
def split (l : Level) : Level := { alternatives := l.alternatives.add l.row.depth }

/-- The depth of the whole. -/
def depth (l : Level) : Nat := (l.alternatives.add l.row.depth).depth

end Level

/-! ### Switches and names -/

/-- The letters of the switches, of which not all matter here, and the hyphen that turns off those
after it. -/
def switchLetters : List Char := ['i', 'm', 's', 'U', 'u', 'R', 'x', '-']

/-- The letters up to a colon or a closing parenthesis, whether it was a colon, and what follows. No
letter stands twice, and the hyphen is not the last; `seen` has the letters before, backwards. -/
def switches? (seen : List Char) : List Char → Option (List Char × Bool × List Char)
  | [] => none
  | c :: r =>
    if c = ':' ∨ c = ')' then
      if seen.head? = some '-' then none else some (seen.reverse, c == ':', r)
    else if switchLetters.contains c ∧ seen.contains c = false then switches? (c :: seen) r
    else none

/-- Set a switch by the letters. -/
def setting (letters : List Char) (letter : Char) (old : Bool) : Bool :=
  if (letters.takeWhile (· != '-')).contains letter then true
  else if letters.contains letter then false
  else old

/-- Set the switches by the letters. -/
def Switches.set (s : Switches) (letters : List Char) : Switches :=
  { anyCase := setting letters 'i' s.anyCase
    unicode := setting letters 'u' s.unicode
    spaced := setting letters 'x' s.spaced }

/-- The name of a group: a letter or a low line, and then also digits, points and brackets. -/
def isName : List Char → Bool
  | [] => false
  | c :: r =>
    (c == '_' || Text.isLetter c) &&
      r.all fun c => c == '_' || c == '.' || c == '[' || c == ']' || Text.isAlphanumeric c

/-! ### Reading -/

/-- What has been read of a pattern. -/
structure State where
  switches : Switches := {}
  /-- The innermost open group, or the whole. -/
  level : Level := {}
  /-- The groups around it, from the inside, and the switches in them. -/
  outer : List (Switches × Level) := []
  /-- The names of the groups so far. -/
  names : List (List Char) := []
deriving DecidableEq, Repr

namespace State

/-- Put an item of depth `d` at the end, if it is admitted. -/
def add? (st : State) (admitted : Bool) (d : Nat) (r : List Char) : Option (State × List Char) :=
  if admitted then some ({ st with level := st.level.add d }, r) else none

/-- Open a group with its switches. -/
def enter (st : State) (s : Switches) : State :=
  { st with switches := s, level := {}, outer := (st.switches, st.level) :: st.outer }

/-- Open a group with a name. -/
def named? (st : State) (cs : List Char) : Option (State × List Char) :=
  let name := cs.takeWhile (· != '>')
  match cs.dropWhile (· != '>') with
  | _ :: r =>
    if isName name ∧ st.names.contains name = false then
      some ({ st.enter st.switches with names := name :: st.names }, r)
    else none
  | [] => none

/-- Set switches, for a group or for what follows in the group at hand. -/
def setting? (st : State) (cs : List Char) : Option (State × List Char) :=
  match switches? [] cs with
  | some (letters, true, r) => some (st.enter (st.switches.set letters), r)
  | some ([], false, _) => none
  | some (letters, false, r) =>
    some ({ st with switches := st.switches.set letters, level := st.level.addSetting }, r)
  | none => none

/-- What an opening parenthesis before `cs` begins. -/
def open? (st : State) (cs : List Char) : Option (State × List Char) :=
  match st.switches.skip cs with
  | '?' :: 'P' :: '<' :: r => st.named? r
  | '?' :: '<' :: '=' :: _ | '?' :: '<' :: '!' :: _ => none
  | '?' :: '<' :: r => st.named? r
  | '?' :: r => st.setting? r
  | r => some (st.enter st.switches, r)

/-- Close the innermost group. -/
def close? (st : State) (r : List Char) : Option (State × List Char) :=
  match st.outer with
  | (s, l) :: outer =>
    some ({ st with switches := s, level := l.add (st.level.depth + 1), outer }, r)
  | [] => none

/-- Repeat the last item; a question mark that follows belongs to the repetition. -/
def repeat? (st : State) (r : List Char) : Option (State × List Char) :=
  st.level.repeated?.map fun l =>
    ({ st with level := l }, match r with
      | '?' :: r => r
      | r => r)

/-- An escape whose backslash stands before `cs`. -/
def escaped? (st : State) (cs : List Char) : Option (State × List Char) :=
  match escape? st.switches cs with
  | some (.char c byte, r) => st.add? (st.switches.allowsChar c byte) 0 r
  | some (.shorthand others, r) => st.add? (st.switches.allowsShorthand others) 0 r
  | some (.textEdge, r) => st.add? true 0 r
  | some (.wordEdge, r) => st.add? (!st.switches.unicode) 0 r
  | none => none

/-- What the character `c` before `r` adds. -/
def step? (st : State) (c : Char) (r : List Char) : Option (State × List Char) :=
  match c with
  | '(' => st.open? r
  | ')' => st.close? r
  | '|' => some ({ st with level := st.level.split }, r)
  | '[' =>
    match bracket? st.switches r with
    | some (d, r) => st.add? true d r
    | none => none
  | '?' | '*' | '+' => st.repeat? r
  | '\x7b' => none
  | '\\' => st.escaped? r
  | '.' => st.add? st.switches.unicode 0 r
  | '^' | '$' => st.add? true 0 r
  | c => st.add? (st.switches.allowsChar c false) 0 r

/-- Read to the end. -/
def readFrom : (fuel : Nat) → State → List Char → Option State
  | 0, _, _ => none
  | fuel + 1, st, cs =>
    match st.switches.skip cs with
    | [] => some st
    | c :: r =>
      match st.step? c r with
      | some (st, r) => readFrom fuel st r
      | none => none

end State

/-- The text is a pattern. Each step takes a character at least. -/
def isWellFormed (cs : List Char) : Bool :=
  match State.readFrom (cs.length + 1) {} cs with
  | some st => st.outer.isEmpty && st.level.depth ≤ depthLimit
  | none => false

end InOrder.Pattern
