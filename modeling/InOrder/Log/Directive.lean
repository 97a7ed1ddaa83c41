import InOrder.Event
import InOrder.Pattern.WellFormed

/-!
# Directives of a log filter

A directive says up to which level the events are shown that it speaks of. It is a level alone, for
all events; or the start of a target, with or without a level after an equals sign; and between the
two there may be a selector in brackets, with the name of a context, the name of a field between
braces, or both. Without a level everything is shown.

* A level is a name in letters of either case, or a number from zero, which shows nothing, to five,
  which shows everything.
* Events stand in no context here, and their only field is the message. So a selector with a
  context or with the value of a field selects nothing, and one with another field selects no
  event. A value has to be a pattern or a number all the same; it ends at another equals sign.

White space around a directive is passed over when its parts are found, but it is not taken off:
parts are found by their distance in bytes from the first character that is not blank, and taken at
that distance from the first character of all.
-/

namespace InOrder.Log

/-- Up to which rank the events are shown that the directive speaks of. -/
structure Directive where
  /-- The start of the targets spoken of; all if absent. -/
  target : Option (List Char)
  /-- The field that an event must have to be spoken of. -/
  field : Option (List Char)
  /-- The rank of the last level shown; zero shows nothing. -/
  rank : Nat
deriving DecidableEq, Repr

/-! ### Levels -/

/-- The rank of a directive without a level. -/
def everything : Nat := Level.trace.rank

/-- The names of the ranks. -/
def rankNames : List (List Char × Nat) :=
  [(['o', 'f', 'f'], 0), (['e', 'r', 'r', 'o', 'r'], 1), (['w', 'a', 'r', 'n'], 2),
   (['i', 'n', 'f', 'o'], 3), (['d', 'e', 'b', 'u', 'g'], 4), (['t', 'r', 'a', 'c', 'e'], 5)]

/-- A rank from decimal digits after an optional plus sign. -/
def rankNumber? (cs : List Char) : Option Nat :=
  let ds := match cs with
    | '+' :: ds => ds
    | ds => ds
  if ds ≠ [] ∧ ds.all Char.isDigit = true then
    let n := ds.foldl (fun n c => 10 * n + (c.toNat - 48)) 0
    if n ≤ everything then some n else none
  else none

/-- The rank that a text names. -/
def rank? (cs : List Char) : Option Nat :=
  match rankNumber? cs with
  | some n => some n
  | none => (rankNames.find? fun r => r.1 == cs.map Char.toLower).map (·.2)

/-- The rank after an equals sign, where it may be absent. -/
def rankAfterSign? : List Char → Option Nat
  | [] => some everything
  | cs => rank? cs

/-! ### Parts by distance -/

/-- Drop the characters that stand in the first `n` bytes. -/
def dropBytes : Nat → List Char → List Char
  | 0, cs => cs
  | _, [] => []
  | n, c :: cs => dropBytes (n - c.utf8Size) cs

/-- The characters that stand in the first `n` bytes. -/
def takeBytes : Nat → List Char → List Char
  | 0, _ => []
  | _, [] => []
  | n, c :: cs => c :: takeBytes (n - c.utf8Size) cs

/-- The characters from one distance to another. -/
def slice (cs : List Char) (start stop : Nat) : List Char :=
  takeBytes (stop - start) (dropBytes start cs)

/-! ### Values of fields -/

/-- Digits with a sign before them or without. -/
def isScale (cs : List Char) : Bool :=
  let ds := match cs with
    | '+' :: ds | '-' :: ds => ds
    | ds => ds
  !ds.isEmpty && ds.all Char.isDigit

/-- What may follow the digits of a numeral: an exponent. -/
def endsNumeral : List Char → Bool
  | [] => true
  | 'e' :: cs | 'E' :: cs => isScale cs
  | _ => false

/-- A decimal numeral, with digits on one side of the point at least. -/
def isNumeral (cs : List Char) : Bool :=
  let whole := cs.takeWhile Char.isDigit
  match cs.dropWhile Char.isDigit with
  | '.' :: r =>
    !(whole.isEmpty && (r.takeWhile Char.isDigit).isEmpty) && endsNumeral (r.dropWhile Char.isDigit)
  | r => !whole.isEmpty && endsNumeral r

/-- The numbers that have no digits, in letters of either case. -/
def numberNames : List (List Char) := ["inf".toList, "infinity".toList, "nan".toList]

/-- A number after a plus sign, which as a pattern would have nothing to repeat. All other numbers
are patterns. -/
def isPlusNumber : List Char → Bool
  | '+' :: cs => isNumeral cs || numberNames.contains (cs.map Char.toLower)
  | _ => false

/-- The value in the text of a field: what stands between the first equals sign and the next. -/
def fieldValue? (field : List Char) : Option (List Char) :=
  match field.dropWhile (· != '=') with
  | _ :: r => some (r.takeWhile (· != '='))
  | [] => none

/-- The text names a field, and its value, if it has one, can be a value. -/
def isField (field : List Char) : Bool :=
  !field.isEmpty && (fieldValue? field).all fun v => isPlusNumber v || Pattern.isWellFormed v

/-! ### Reading a directive -/

/-- What a text between two commas is. -/
inductive Part where
  | invalid
  /-- A directive that selects nothing. -/
  | idle
  | directive (d : Directive)
deriving DecidableEq, Repr

/-- A selector: a context is named, and the text between the braces. -/
structure Selector where
  context : Bool
  field : Option (List Char)

/-- The directive of a target, a selector and a rank. The value of a field selects nothing. -/
def Selector.part (s : Selector) (target : Option (List Char)) (rank : Nat) : Part :=
  if s.context ∨ (s.field.any fun f => (fieldValue? f).isSome) = true then .idle
  else .directive ⟨target, s.field, rank⟩

/-- The part that ends in the level from `start` on. -/
def levelPart (cs : List Char) (start : Nat) (s : Selector) (target : Option (List Char)) : Part :=
  match rankAfterSign? (dropBytes start cs) with
  | some n => s.part target n
  | none => .invalid

/-- What the text after the closing bracket makes of the directive; it begins at distance `pos`. -/
def afterSelector (cs : List Char) (pos : Nat) (s : Selector) (target : Option (List Char)) :
    List Char → Part
  | [] => s.part target everything
  | '=' :: _ => levelPart cs (pos + 1) s target
  | _ => .invalid

/-- The rest of a field that begins at `start`. -/
def fieldPart (cs : List Char) (target : Option (List Char)) (context : Bool) (start : Nat) :
    (pos : Nat) → List Char → Part
  | pos, '\x7d' :: ']' :: r =>
    let field := slice cs start pos
    if isField field then afterSelector cs (pos + 2) ⟨context, some field⟩ target r else .invalid
  | _, '\x7d' :: _ => .invalid
  | pos, c :: r => fieldPart cs target context start (pos + c.utf8Size) r
  | _, [] => .invalid

/-- The rest of a selector that begins at `start`. -/
def selectorPart (cs : List Char) (target : Option (List Char)) (start : Nat) :
    (pos : Nat) → List Char → Part
  | pos, ']' :: r => afterSelector cs (pos + 1) ⟨true, none⟩ target r
  | pos, '\x7b' :: r => fieldPart cs target (pos != start) (pos + 1) (pos + 1) r
  | pos, c :: r => selectorPart cs target start (pos + c.utf8Size) r
  | _, [] => .invalid

/-- The rest of a target, or of a level that stands alone. -/
def targetPart (cs : List Char) : (pos : Nat) → List Char → Part
  | pos, '=' :: _ => levelPart cs (pos + 1) ⟨false, none⟩ (some (slice cs 0 pos))
  | pos, '[' :: r => selectorPart cs (some (slice cs 0 pos)) (pos + 1) (pos + 1) r
  | pos, c :: r => targetPart cs (pos + c.utf8Size) r
  | _, [] =>
    match rank? cs with
    | some n => .directive ⟨none, none, n⟩
    | none => .directive ⟨some cs, none, everything⟩

/-- A character with which a target can start. -/
def startsTarget (c : Char) : Bool :=
  Text.isAlphanumeric c || c == '-' || c == ':' || c == '_'

/-- What a text between two commas is. -/
def part (cs : List Char) : Part :=
  match Text.trim cs with
  | [] => .invalid
  | '[' :: r => selectorPart cs none 1 1 r
  | c :: r => if startsTarget c then targetPart cs c.utf8Size r else .invalid

/-! ### Precedence -/

/-- The directive speaks of events with this target and these fields. Nothing is known of the
fields when a log is asked for an event beforehand; then any field will do. -/
def Directive.speaksOf (d : Directive) (target : List Char) (fields : Option (List (List Char))) :
    Bool :=
  (match d.target with
    | some t => t.isPrefixOf target
    | none => true) &&
  (match d.field, fields with
    | some f, some fs => fs.contains f
    | _, _ => true)

/-- The length of the target; a directive for all targets comes below all others. -/
def Directive.reach (d : Directive) : Nat :=
  match d.target with
  | some t => t.length + 1
  | none => 0

/-- Of two directives that speak of the same event the one decides that names more of the target,
then one that names a field, and at last the one whose field is greater. -/
def Directive.outranks (a b : Directive) : Bool :=
  if a.reach ≠ b.reach then b.reach < a.reach
  else match a.field, b.field with
    | some x, some y => y < x
    | some _, none => true
    | none, _ => false

end InOrder.Log
