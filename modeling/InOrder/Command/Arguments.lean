import InOrder.Text.Hex

/-!
# Command line arguments

A command line is `run` or `check` with a file, and options. An option with a value takes it from
the next argument or after an equals sign; a one-letter option also takes what follows the letter.
An argument that starts with a hyphen is never the value of an option before it, a hyphen alone is
an ordinary argument, and after two hyphens alone all arguments are ordinary. An option given
twice is refused, except the debug flags, which add up; those after the command replace those
before it.

`Invocation.parse?` gives nothing for a command line that is refused.
-/

namespace InOrder.Command

/-- The arguments of a run. -/
structure RunArguments where
  program : String
  config : Option String
  /-- The limit of the run, in ticks. -/
  maxTicks : Option Nat
  /-- The tick at which a drain is asked for. -/
  drainAt : Option Nat
  /-- The report is written as JSON. -/
  json : Bool
deriving DecidableEq, Repr

/-- What is to be done. -/
inductive Action where
  | run (arguments : RunArguments)
  /-- Check a configuration file. -/
  | check (config : String)
deriving DecidableEq, Repr

/-- A command line that is not refused. -/
inductive Invocation where
  /-- Tell the version. -/
  | version
  | act (action : Action) (debugFlags : List String)
deriving DecidableEq, Repr

/-- An argument by its form. -/
inductive Token where
  /-- Two hyphens alone. -/
  | rest
  /-- A long option, and its value if an equals sign follows the name. -/
  | long (name : List Char) (value : Option (List Char))
  /-- One-letter options after a hyphen. -/
  | short (letters : List Char)
  | ordinary (text : List Char)
deriving DecidableEq, Repr

/-- The form of an argument. -/
def Token.ofText (cs : List Char) : Token :=
  match cs with
  | ['-', '-'] => .rest
  | '-' :: '-' :: cs =>
    let name := cs.takeWhile (· != '=')
    match cs.dropWhile (· != '=') with
    | _ :: value => .long name (some value)
    | [] => .long name none
  | ['-'] => .ordinary cs
  | '-' :: letters => .short letters
  | cs => .ordinary cs

/-- The options seen so far. -/
structure Seen where
  debugFlags : Option (List String) := none
  config : Option String := none
  maxTicks : Option Nat := none
  drainAt : Option Nat := none
  json : Bool := false
  /-- The ordinary arguments, in order. -/
  ordinary : List String := []

/-- An option that takes a value. -/
inductive Setting where
  | debugFlags
  | config
  | maxTicks
  | drainAt
deriving DecidableEq, Repr

/-- A 64-bit natural number in decimal digits after an optional plus sign. -/
def tick? (cs : List Char) : Option Nat :=
  let ds := match cs with
    | '+' :: ds => ds
    | ds => ds
  if ds ≠ [] ∧ ds.all Char.isDigit = true then
    let n := ds.foldl (fun n c => 10 * n + (c.toNat - 48)) 0
    if n < UInt64.size then some n else none
  else none

/-- A path, which is not empty. -/
def path? (cs : List Char) : Option String :=
  if cs.isEmpty then none else some (String.ofList cs)

/-- A value for an option that has none yet. -/
def once {α : Type} (present value : Option α) : Option (Option α) :=
  match present, value with
  | none, some v => some (some v)
  | _, _ => none

/-- Take in the value of an option. -/
def Seen.set? (s : Seen) (o : Setting) (value : List Char) : Option Seen :=
  match o with
  | .debugFlags =>
    let flags := (value.splitOn ',').map String.ofList
    some { s with debugFlags := some (s.debugFlags.getD [] ++ flags) }
  | .config => (once s.config (path? value)).map fun config => { s with config }
  | .maxTicks => (once s.maxTicks (tick? value)).map fun maxTicks => { s with maxTicks }
  | .drainAt => (once s.drainAt (tick? value)).map fun drainAt => { s with drainAt }

/-- The options that a command knows. -/
structure Grammar where
  long : List (String × Setting)
  short : List (Char × Setting)
  /-- The report may be asked for as JSON. -/
  json : Bool

/-- The option that goes everywhere. -/
def Grammar.common : List (String × Setting) := [("debug-flags", .debugFlags)]

/-- The options of `run`. -/
def Grammar.run : Grammar :=
  { long := common ++
      [("config", .config), ("max-ticks", .maxTicks), ("drain-at", .drainAt)]
    short := [('c', .config)]
    json := true }

/-- The options of `check`, and those before a command. -/
def Grammar.check : Grammar := { long := common, short := [], json := false }

/-- The long option of this name. -/
def Grammar.long? (g : Grammar) (name : List Char) : Option Setting :=
  (g.long.find? (·.1.toList == name)).map (·.2)

/-- The one-letter option of this letter. -/
def Grammar.short? (g : Grammar) (letter : Char) : Option Setting :=
  (g.short.find? (·.1 == letter)).map (·.2)

/-- What an argument asks of the reader. -/
inductive Progress where
  /-- Go on with these options. -/
  | go (seen : Seen)
  /-- The value of an option is still to come. -/
  | awaits (setting : Setting)
  /-- All further arguments are ordinary. -/
  | rest
  /-- An ordinary argument. -/
  | ordinary (text : List Char)
  | refused

/-- The progress of options that may be refused. -/
def Progress.ofOption : Option Seen → Progress
  | some s => .go s
  | none => .refused

/-- What one argument asks. -/
def Grammar.read (g : Grammar) (s : Seen) (arg : String) : Progress :=
  match Token.ofText arg.toList with
  | .rest => .rest
  | .ordinary text => .ordinary text
  | .long name value =>
    match g.long? name, value with
    | some o, some value => .ofOption (s.set? o value)
    | some o, none => .awaits o
    | none, value =>
      if g.json ∧ name = "json".toList ∧ value = none ∧ s.json = false then .go { s with json := true }
      else .refused
  | .short [] => .refused
  | .short (letter :: more) =>
    match g.short? letter, more with
    | none, _ => .refused
    | some o, [] => .awaits o
    | some o, '=' :: value => .ofOption (s.set? o value)
    | some o, value => .ofOption (s.set? o value)

/-- The value that an argument is for the option before it. -/
def value? (arg : String) : Option (List Char) :=
  match Token.ofText arg.toList with
  | .ordinary text => some text
  | _ => none

/-- Read the arguments of a command. `awaited` is the option whose value comes next. -/
def Grammar.readAll (g : Grammar) : (awaited : Option Setting) → List String → Seen → Option Seen
  | none, [], s => some s
  | some _, [], _ => none
  | some o, arg :: args, s =>
    match value? arg with
    | none => none
    | some v =>
      match s.set? o v with
      | some s => g.readAll none args s
      | none => none
  | none, arg :: args, s =>
    match g.read s arg with
    | .go s => g.readAll none args s
    | .awaits o => g.readAll (some o) args s
    | .rest => some { s with ordinary := s.ordinary ++ args }
    | .ordinary text => g.readAll none args { s with ordinary := s.ordinary ++ [String.ofList text] }
    | .refused => none

/-- The one path among the ordinary arguments. -/
def Seen.path? (s : Seen) : Option String :=
  match s.ordinary with
  | [p] => if p.isEmpty then none else some p
  | _ => none

/-- The invocation of a command with its arguments, after the debug flags before it. -/
def ofCommand? (before : List String) (name : List Char) (args : List String) :
    Option Invocation := do
  if name = "run".toList then
    let s ← Grammar.run.readAll none args {}
    let program ← s.path?
    return .act (.run ⟨program, s.config, s.maxTicks, s.drainAt, s.json⟩) (s.debugFlags.getD before)
  else if name = "check".toList then
    let s ← Grammar.check.readAll none args {}
    let config ← s.path?
    return .act (.check config) (s.debugFlags.getD before)
  else none

/-- The argument asks for the version. -/
def asksVersion (arg : String) : Bool :=
  match Token.ofText arg.toList with
  | .long name none => name = "version".toList
  | .short ('V' :: _) => true
  | _ => false

/-- Read the arguments up to the command and after it. -/
def parseFrom? : (awaited : Option Setting) → List String → Seen → Option Invocation
  | _, [], _ => none
  | some o, arg :: args, s =>
    match value? arg with
    | none => none
    | some v =>
      match s.set? o v with
      | some s => parseFrom? none args s
      | none => none
  | none, arg :: args, s =>
    if asksVersion arg then some .version
    else match Grammar.check.read s arg with
      | .go s => parseFrom? none args s
      | .awaits o => parseFrom? (some o) args s
      | .ordinary name => ofCommand? (s.debugFlags.getD []) name args
      | .rest | .refused => none

/-- The invocation that the arguments spell; nothing if they are refused. -/
def Invocation.parse? (args : List String) : Option Invocation := parseFrom? none args {}

end InOrder.Command
