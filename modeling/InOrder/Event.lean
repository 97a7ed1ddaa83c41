import InOrder.Snapshot
import InOrder.Text.Blank

/-!
# Events

What happens in a run is told as a list of events, in order. An event has a channel and a level,
by which a log is filtered, and its messages. Most events hold plain data, and their wording is
made only for those that are shown; the component trace holds its lines as a suspended
computation for the same reason.
-/

namespace InOrder

/-- How much an event matters; a filter shows a level and those before it. -/
inductive Level where
  | error
  | warn
  | info
  | debug
  | trace
deriving DecidableEq, Repr

namespace Level

/-- Position, from the most important. -/
def rank : Level → Nat
  | error => 1
  | warn => 2
  | info => 3
  | debug => 4
  | trace => 5

/-- The name in a log. -/
def name : Level → String
  | error => "ERROR"
  | warn => "WARN"
  | info => "INFO"
  | debug => "DEBUG"
  | trace => "TRACE"

end Level

/-- What an event is about. -/
inductive Channel where
  | faults
  | components
  | bubbles
  | units
  | bundles
  | draining
  | idling
  | loader
  | simulator
  | lineFetch
  | execution
  | command
deriving DecidableEq, Repr

/-- The channels in the order of their declaration. -/
def Channel.all : List Channel :=
  [.faults, .components, .bubbles, .units, .bundles, .draining, .idling, .loader, .simulator,
   .lineFetch, .execution, .command]

/-- Position in `Channel.all`. -/
def Channel.index : Channel → Nat
  | faults => 0
  | components => 1
  | bubbles => 2
  | units => 3
  | bundles => 4
  | draining => 5
  | idling => 6
  | loader => 7
  | simulator => 8
  | lineFetch => 9
  | execution => 10
  | command => 11

/-- The name by which a filter selects the channel. -/
def Channel.target : Channel → String
  | faults => "minorfi::fault"
  | components => "minorfi::trace"
  | bubbles => "minorfi::bubble"
  | units => "minorfi::print_all_fu"
  | bundles => "minorfi::forward_inst_data"
  | draining => "minorfi::drain"
  | idling => "minorfi::quiesce"
  | loader => "minorfi_core::sim::loader"
  | simulator => "minorfi_core::sim::simulator"
  | lineFetch => "minorfi_core::core::pipeline::stages::fetch1"
  | execution => "minorfi_core::core::pipeline::stages::execute"
  | command => "minorfi"

/-- Something that happened. -/
inductive Event where
  /-- A flip was asked for at a tick that has passed. -/
  | flipTooLate (register : String) (tick now : Nat)
  /-- A flip was scheduled when the pipeline was built. -/
  | flipScheduled (register : String) (tick bit : Nat)
  /-- A bit of a register was flipped. -/
  | flipped (register : String) (now bit : Nat)
  /-- A flip was due at a bit that the register's payload does not have. -/
  | flipOutside (register : String) (now bit bits : Nat)
  /-- A flip was due at a tick without an evaluation. -/
  | flipMissed (register : String) (now tick : Nat)
  /-- The load and store queue was asked for a fault. -/
  | queuePolled (now : Nat)
  /-- A bit of an instruction in a functional unit was flipped. -/
  | unitFlipped (stage : String) (bit : Nat) (pc : UInt64)
  /-- Execute sent a redirect. -/
  | redirected (stage : String) (redirect : Redirect)
  /-- A redirect named a thread that does not exist. -/
  | unknownThread (stage : String) (thread : UInt32)
  /-- A thread was woken. -/
  | woken (stage : String) (thread : UInt32) (pc : UInt64)
  /-- The state of all components, a line each. -/
  | components (lines : Thunk (List String))
  /-- A cycle was drawn. -/
  | drawn (tick : Nat) (observed latched : Snapshot) (addrs : PerStage (List UInt64))
  /-- The functional units were listed, a line each. -/
  | units (lines : List String)
  /-- The width of a bundle was told. -/
  | bundleWidth (width : Nat)
  /-- The pipeline suspended itself. -/
  | idle
  /-- A drain was asked for. -/
  | drainAsked
  /-- The pipeline is not empty: the parts that hold something. -/
  | undrained (busy : List String)
  /-- A drain goes on. -/
  | stillDraining
  /-- A drain is complete. -/
  | drainComplete
  /-- The host was told of a complete drain. -/
  | drainSignalled (tick : Nat)
  /-- The pipeline was resumed. -/
  | resumed
  /-- A run has ended. -/
  | runStopped (tick cycles retired : Nat)
  /-- A binary program was loaded. -/
  | binaryLoaded (words : Nat) (path : String)
  /-- A text program was loaded. -/
  | textLoaded (words : Nat) (entry : UInt64) (path : String)
  /-- A run begins. -/
  | runStarted (program : String) (limit : Nat)

namespace Event

/-- Channel and level of an event. -/
def kind : Event → Channel × Level
  | flipTooLate .. | flipOutside .. | flipMissed .. => (.faults, .warn)
  | flipScheduled .. | flipped .. | unitFlipped .. => (.faults, .info)
  | queuePolled .. => (.faults, .trace)
  | redirected .. => (.execution, .debug)
  | unknownThread .. => (.lineFetch, .warn)
  | woken .. => (.lineFetch, .debug)
  | components .. => (.components, .debug)
  | drawn .. => (.bubbles, .debug)
  | units .. => (.units, .debug)
  | bundleWidth .. => (.bundles, .debug)
  | idle => (.idling, .debug)
  | drainAsked | stillDraining | drainComplete | drainSignalled .. | resumed => (.draining, .debug)
  | undrained .. => (.draining, .trace)
  | runStopped .. => (.simulator, .info)
  | binaryLoaded .. | textLoaded .. => (.loader, .info)
  | runStarted .. => (.command, .info)

/-- Channel of an event. -/
def channel (e : Event) : Channel := e.kind.1

/-- Level of an event. -/
def level (e : Event) : Level := e.kind.2

/-- The event is costly to put into words, so a log is asked beforehand whether it would show an
event of this channel and level. -/
def isAskedFor : Event → Bool
  | components .. | drawn .. | units .. | undrained .. => true
  | _ => false

/-- A text without the white space at its end. -/
def trimmed (s : String) : String := String.ofList (Text.trimEnd s.toList)

/-- The messages of an event, usually one. -/
def messages : Event → List String
  | flipTooLate r tick now => [s!"{r}: injection tick {tick} already passed (now {now}), ignored"]
  | flipScheduled r tick bit => [s!"registered flip of bit {bit} on {r} at tick {tick}"]
  | flipped r now bit => [s!"tick {now}: flipped bit {bit} of {r}"]
  | flipOutside r now bit bits =>
    [s!"tick {now}: bit {bit} outside {bits}-bit image of {r}, nothing flipped"]
  | flipMissed r now tick =>
    [s!"tick {now}: injection into {r} scheduled for tick {tick} was missed"]
  | queuePolled now => [s!"tick {now}: LSQ empty, nothing to corrupt"]
  | unitFlipped stage bit pc =>
    [s!"{stage}: flipped bit {bit} of in-flight {Hex.marked pc.toNat}"]
  | redirected stage r => [s!"{stage}: {r.display} for thread {r.thread}"]
  | unknownThread stage thread => [s!"{stage}: branch for unknown thread {thread}"]
  | woken stage thread pc => [s!"{stage}: waking thread {thread} at {Hex.marked pc.toNat}"]
  | components lines => lines.get
  | drawn tick observed latched addrs =>
    let texts := addrs.map fun column => column.map fun a => Hex.marked a.toNat
    ["\n" ++ trimmed (Snapshot.draw tick observed latched texts)]
  | units lines => [trimmed ("\n".intercalate lines)]
  | bundleWidth width => [s!"Instruction Width: {width}"]
  | idle => ["Suspending as the processor is idle"]
  | drainAsked =>
    ["Draining pipeline by halting inst fetches. Execution should drain naturally"]
  | undrained busy => ["Pipeline undrained stages state: " ++ " ".intercalate busy]
  | stillDraining => ["Still draining"]
  | drainComplete => ["Signalling end of draining"]
  | drainSignalled tick => [s!"tick {tick}: drain done"]
  | resumed => ["Drain resume"]
  | runStopped tick cycles retired =>
    [s!"stopped at tick {tick} after {cycles} cycles ({retired} retired)"]
  | binaryLoaded words path => [s!"loaded {words} words from {path}"]
  | textLoaded words entry path =>
    [s!"loaded {words} words at {Hex.marked entry.toNat} from {path}"]
  | runStarted program limit => [s!"running {program} until tick {limit}"]

end Event

end InOrder
