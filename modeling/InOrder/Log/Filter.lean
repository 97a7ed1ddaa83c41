import InOrder.Log.Directive

/-!
# Log filters

A filter is a list of directives. Of those that speak of an event the most specific one decides
whether it is shown. `Filter.selection` works this out once for each channel, which is all that
events differ in, so that a long run does not look at directives again.

An event is written as a line: its level in five columns, and its message, in which the characters
by which a terminal is controlled are shielded.
-/

namespace InOrder.Log

/-- Directives, no two for the same target and field. -/
structure Filter where
  directives : List Directive
deriving DecidableEq, Repr

namespace Filter

/-- Add a directive in place of one for the same target and field. -/
def add (f : Filter) (d : Directive) : Filter :=
  ⟨d :: f.directives.filter fun e => e.target != d.target || e.field != d.field⟩

/-- Add the directives of parts; `none` if one is invalid. -/
def addParts (f : Filter) : List (List Char) → Option Filter
  | [] => some f
  | p :: ps =>
    match part p with
    | .invalid => none
    | .idle => addParts f ps
    | .directive d => addParts (f.add d) ps

/-- The filter that a text spells, with commas between its parts; empty parts are ignored. -/
def parse? (text : List Char) : Option Filter :=
  addParts ⟨[]⟩ ((text.splitOn ',').filter (! ·.isEmpty))

/-- Warnings, and what is worse. -/
def standard : Filter := ⟨[⟨none, none, Level.warn.rank⟩]⟩

/-- The filter of a setting; one that is absent or invalid is the standard. -/
def ofSetting : Option String → Filter
  | some text => (parse? text.toList).getD standard
  | none => standard

/-- The directive that decides on events with this target and these fields. -/
def deciding (f : Filter) (target : List Char) (fields : Option (List (List Char))) :
    Option Directive :=
  (f.directives.filter fun d => d.speaksOf target fields).foldl
    (fun best d => match best with
      | none => some d
      | some b => if d.outranks b then some d else some b) none

/-- The rank of the last level shown of events with this target and these fields. -/
def rankOf (f : Filter) (target : List Char) (fields : Option (List (List Char))) : Nat :=
  match f.deciding target fields with
  | some d => d.rank
  | none => 0

end Filter

/-- The fields of every event. -/
def eventFields : List (List Char) := ["message".toList]

/-- What a filter makes of the channels, in the order of `Channel.all`. -/
structure Selection where
  /-- The rank of the last level of which events are shown. -/
  shown : Array Nat
  /-- The rank of the last level of which events are asked for beforehand. -/
  asked : Array Nat

/-- What the filter makes of the channels. -/
def Filter.selection (f : Filter) : Selection :=
  { shown := (Channel.all.map fun c => f.rankOf c.target.toList (some eventFields)).toArray
    asked := (Channel.all.map fun c => f.rankOf c.target.toList none).toArray }

/-- The event is shown. -/
def Selection.shows (s : Selection) (e : Event) : Bool :=
  e.level.rank ≤ s.shown.getD e.channel.index 0 &&
    (!e.isAskedFor || e.level.rank ≤ s.asked.getD e.channel.index 0)

/-! ### Lines -/

/-- One character of a message: those that begin or make up a control sequence of a terminal are
written by their code. -/
def shield (c : Char) : List Char :=
  let n := c.toNat
  if n = 0x1b ∨ n = 7 ∨ n = 8 ∨ n = 0xc ∨ n = 0x7f then
    ['\\', 'x'] ++ Hex.ofByte (UInt8.ofNat n)
  else if 0x80 ≤ n ∧ n ≤ 0x9f then ['\\', 'u', '\x7b'] ++ Hex.digits n ++ ['\x7d']
  else [c]

/-- A line of a log: the level in five columns, then the message. -/
def line (level : Level) (message : String) : String :=
  Text.right 5 level.name ++ " " ++ String.ofList (message.toList.flatMap shield) ++ "\n"

/-- Append the lines of the events that are shown. -/
def append (s : Selection) (out : String) (events : List Event) : String :=
  events.foldl (fun out e =>
    if s.shows e then out ++ String.join (e.messages.map (line e.level)) else out) out

end InOrder.Log
