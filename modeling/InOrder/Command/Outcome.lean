import InOrder.Command.Arguments
import InOrder.Config.Decode
import InOrder.Log.Filter
import InOrder.Program.Load
import InOrder.Report

/-!
# What a command line does

`Command.outcome` is the whole program as a function: of the arguments, the setting of the log
filter and the content of files it gives the exit code and what is printed. The log and the results
go to the same output, in the order in which they arise.
-/

namespace InOrder.Command

open Log (Filter Selection)

/-- The name and the version of the program. -/
def versionLine : String := "minorfi 0.3.0\n"

/-- How a command ends. -/
structure Outcome where
  code : Nat
  stdout : String
  stderr : String
deriving DecidableEq, Repr

/-- The content of files by path. -/
abbrev Files := String → Except ReadFault (List UInt8)

/-! ### Debug flags -/

/-- The debug flags, by name, with the channel and the level that each one shows. -/
def debugChannels : List (String × Channel × Level) :=
  [("MinorTrace", .components, .debug), ("Bubble", .bubbles, .debug), ("PrintAllFU", .units, .debug),
   ("Drain", .draining, .trace), ("Quiesce", .idling, .debug), ("ForwardInstData", .bundles, .debug),
   ("Fault", .faults, .trace)]

/-- The directive of a debug flag; the case of its letters does not matter. -/
def flagDirective? (flag : String) : Option Log.Directive :=
  let lower (s : String) : List Char := s.toList.map Char.toLower
  (debugChannels.find? fun d => lower d.1 == lower flag).map
    fun (_, channel, level) => ⟨some channel.target.toList, none, level.rank⟩

/-- Add the directives of debug flags. The answer has a warning for each that is unknown. -/
def addFlags (f : Filter) : List String → Filter × String
  | [] => (f, "")
  | flag :: flags =>
    match flagDirective? flag with
    | some d => addFlags (f.add d) flags
    | none =>
      let (f, warnings) := addFlags f flags
      (f, s!"[!] unknown debug flag {flag}; ignoring\n" ++ warnings)

/-! ### A run -/

/-- What is told of a program that was loaded. -/
def loadedEvent (path : String) (image : Image) : Event :=
  if Program.isBinary path then .binaryLoaded image.wordCount path
  else .textLoaded image.wordCount image.entry path

/-- Run to a limit, and append the log to `out`. -/
def runTo (log : Selection) (limit : Nat) (s : Simulator Stages) (out : String) :
    Simulator Stages × String :=
  let (s, out) := s.advance (fun out r => Log.append log out r.events) limit out
  (s, Log.append log out [s.stopEvent])

/-- Run to a limit, with a drain on the way if one is asked for. -/
def runPhases (log : Selection) (drainAt : Option Nat) (limit : Nat) (s : Simulator Stages)
    (out : String) : Simulator Stages × String :=
  match drainAt with
  | none => runTo log limit s out
  | some tick =>
    let (s, out) := runTo log (min tick limit) s out
    let (s, done, events) := s.drain
    let out := Log.append log out events
    if done then (s, out ++ s!"[*] Drained immediately at tick {s.tick}\n")
    else
      let (s, out) := runTo log limit s out
      (s, out ++ s!"[*] Drain requested at tick {tick}; {s.host.signals} completion signal(s) " ++
        s!"by tick {s.tick}\n")

/-- What is printed at the end of a run. -/
def results (json : Bool) (s : Simulator Stages) : String :=
  if json then s.report.document.render ++ "\n"
  else s.report.summary ++ s.pipeline.stats.render s.tick

/-- Run a program. The answer has what is printed, and the error that ended it. -/
def run (log : Selection) (files : Files) (a : RunArguments) : String × Option SetupError :=
  let config := match a.config with
    | some path => Config.load path (files path)
    | none => .ok {}
  match config with
  | .error e => ("", some e)
  | .ok config =>
    match Program.load a.program (files a.program) with
    | .error e => ("", some e)
    | .ok image =>
      let limit := a.maxTicks.getD config.host.maxTicks.toNat
      let out := Log.append log "" [loadedEvent a.program image, .runStarted a.program limit]
      match Simulator.new config (Stages.new Pipeline.owner config image) with
      | .error e => (out, some e)
      | .ok (s, built) =>
        let (s, woken) := s.wakeAll
        let (s, out) := runPhases log a.drainAt limit s (Log.append log out (built ++ woken))
        (out ++ results a.json s, none)

/-- Check a configuration. -/
def check (files : Files) (path : String) : String × Option SetupError :=
  match Config.load path (files path) with
  | .error e => ("", some e)
  | .ok _ => (s!"{path}: ok\n", none)

/-- What an action prints, and the error that ended it. -/
def perform (log : Selection) (files : Files) : Action → String × Option SetupError
  | .run a => run log files a
  | .check path => check files path

/-- The files that an action reads, in order. -/
def Action.paths : Action → List String
  | .run a => a.config.toList ++ [a.program]
  | .check path => [path]

/-- The outcome of an action: an error ends it with code one. -/
def actOutcome (setting : Option String) (files : Files) (action : Action) (flags : List String) :
    Outcome :=
  let (f, warnings) := addFlags (.ofSetting setting) flags
  match perform f.selection files action with
  | (out, none) => ⟨0, out, warnings⟩
  | (out, some e) => ⟨1, out, warnings ++ s!"\n[!] FATAL: {e.message}\n"⟩

/-- The outcome of a command line. One that is refused ends with code two. -/
def outcome (setting : Option String) (files : Files) (args : List String) : Outcome :=
  match Invocation.parse? args with
  | none => ⟨2, "", "error: invalid arguments\n"⟩
  | some .version => ⟨0, versionLine, ""⟩
  | some (.act action flags) => actOutcome setting files action flags

end InOrder.Command
