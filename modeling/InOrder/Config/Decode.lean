import InOrder.Config.Basic
import InOrder.Json.Reader

/-!
# Configurations from JSON

A section is an object of fields, each under one of two names, in any order; a field that is
absent keeps its value, an unknown one only has to be well formed, and one given twice is refused.
A section may also be an array of its fields in their order, shorter than the section but not
longer. The values of absent fields are written down twice: as the defaults of a section that is
absent, and field by field for a section that is given (`HostConfig.unset` and so on).

`Config.decode` looks at the parts of a value in the order of the text, so the first fault in the
text is the one reported.
-/

namespace InOrder

/-- A field of a record: its names, and how a value is put into the record. -/
structure Field (σ : Type) where
  name : String
  other : String
  put : Json → σ → Except Json.Fault σ

/-- The field goes by this name. -/
def Field.isCalled {σ : Type} (f : Field σ) (key : List Char) : Bool :=
  f.name.toList == key || f.other.toList == key

namespace Json

variable {σ : Type}

/-- Put the members of an object into `s`; `seen` has the fields already given. -/
def members (fields : List (Field σ)) :
    List String → List (Except Fault (List Char) × Json) → σ → Except Fault σ
  | _, [], s => .ok s
  | seen, (key, v) :: rest, s =>
    match key with
    | .error f => .error f
    | .ok key =>
      match fields.find? (·.isCalled key) with
      | none =>
        match v.skip with
        | some f => .error f
        | none => members fields seen rest s
      | some field =>
        if seen.contains field.name then .error .unsuitable
        else match field.put v s with
          | .error f => .error f
          | .ok s => members fields (field.name :: seen) rest s

/-- Put the elements of an array into the fields in turn. -/
def elements : List (Field σ) → List Json → Option Fault → σ → Except Fault σ
  | _, [], none, s => .ok s
  | _, [], some f, _ => .error f
  | [], _ :: _, _, _ => .error .malformed
  | field :: fields, v :: vs, fault, s =>
    match field.put v s with
    | .error f => .error f
    | .ok s => elements fields vs fault s

/-- Override the fields of `s` by those of the value. -/
def record (fields : List (Field σ)) (v : Json) (s : σ) : Except Fault σ :=
  match v with
  | .object ms ending =>
    match members fields [] ms s, ending.fault with
    | .error f, _ => .error f
    | .ok _, some f => .error f
    | .ok s, none => .ok s
  | .array vs fault => elements fields vs fault s
  | v => .error v.use

/-- A value by its name; the name may stand alone or be the one key, with the value null, of an
object. Nothing else is looked at further. -/
def named {α : Type} (values : List (String × α)) (v : Json) : Except Fault α :=
  let find (key : List Char) : Except Fault α :=
    match values.find? (·.1.toList == key) with
    | some (_, a) => .ok a
    | none => .error .unsuitable
  match v with
  | .string (.ok cs) _ => find cs
  | .string (.error f) _ => .error f
  | .missing => .error .truncated
  | .object [] (.stopped f) | .object [] (.dangling f) => .error f
  | .object ((key, v) :: rest) ending =>
    match key with
    | .error f => .error f
    | .ok key =>
      match find key with
      | .error f => .error f
      | .ok a =>
        match v, rest, ending with
        | .null, [], .closed => .ok a
        | .null, [], .stopped f => .error f
        | .null, _, _ => .error .malformed
        | v, _, _ => .error v.use
  | _ => .error .malformed

end Json

/-- A field that holds a natural number up to `bound`. -/
def Field.natural {σ : Type} (name other : String) (bound : Nat) (set : Nat → σ → σ) : Field σ :=
  ⟨name, other, fun v s => (v.natural bound).map (set · s)⟩

/-- A field that holds a 32-bit word. -/
def Field.word {σ : Type} (name other : String) (set : UInt32 → σ → σ) : Field σ :=
  .natural name other (UInt32.size - 1) fun n => set (UInt32.ofNat n)

/-- A field that holds a 64-bit word. -/
def Field.long {σ : Type} (name other : String) (set : UInt64 → σ → σ) : Field σ :=
  .natural name other (UInt64.size - 1) fun n => set (UInt64.ofNat n)

/-- A field that holds a truth value. -/
def Field.truth {σ : Type} (name other : String) (set : Bool → σ → σ) : Field σ :=
  ⟨name, other, fun v s => v.truth.map (set · s)⟩

/-- What the fields of a host section are that it does not give. -/
def HostConfig.unset : HostConfig := { clockPeriod := 1, threads := 1, maxTicks := 1000000 }

/-- What the fields of a pipeline section are that it does not give. -/
def PipelineConfig.unset : PipelineConfig :=
  { delays := { f1ToF2 := 1, f2ToD := 1, dToE := 1, eToF1 := 1, f2ToF1 := 1 }
    width := 2
    idling := false
    lineQueue := 2
    decodeQueue := 2
    executeQueue := 2
    lineBytes := 16
    fetchLatency := 1
    executeLatency := 1
    units := 2
    predictJumps := false }

/-- What the fields of a fault section are that it does not give. -/
def FaultConfig.unset : FaultConfig :=
  { register := "", tick := 0, bit := 0, unit := false, unitMode := .oneShot, unitBit := 0 }

/-- The fields of the host section. -/
def HostConfig.fields : List (Field HostConfig) :=
  [.long "clock_period" "clockPeriod" fun n s => { s with clockPeriod := n },
   .word "num_threads" "numThreads" fun n s => { s with threads := n },
   .long "max_ticks" "maxTicks" fun n s => { s with maxTicks := n }]

/-- The field that sets the delay of an edge. -/
def PipelineConfig.delayField (name : String) (e : Edge) : Field PipelineConfig :=
  .word name e.delayParameter fun n s => { s with delays := s.delays.modify e fun _ => n }

/-- The fields of the pipeline section. -/
def PipelineConfig.fields : List (Field PipelineConfig) :=
  [delayField "fetch1_to_fetch2_forward_delay" .f1ToF2,
   delayField "fetch1_to_fetch2_backward_delay" .f2ToF1,
   delayField "fetch2_to_decode_forward_delay" .f2ToD,
   delayField "decode_to_execute_forward_delay" .dToE,
   delayField "execute_branch_delay" .eToF1,
   .word "decode_input_width" "decodeInputWidth" fun n s => { s with width := n },
   .truth "enable_idling" "enableIdling" fun b s => { s with idling := b },
   .long "fetch2_input_buffer_size" "fetch2InputBufferSize" fun n s => { s with lineQueue := n },
   .long "decode_input_buffer_size" "decodeInputBufferSize"
     fun n s => { s with decodeQueue := n },
   .long "execute_input_buffer_size" "executeInputBufferSize"
     fun n s => { s with executeQueue := n },
   .word "fetch_line_bytes" "fetch1LineWidth" fun n s => { s with lineBytes := n },
   .long "icache_latency" "icacheLatency" fun n s => { s with fetchLatency := n },
   .long "execute_latency" "executeLatency" fun n s => { s with executeLatency := n },
   .long "num_functional_units" "numFunctionalUnits" fun n s => { s with units := n },
   .truth "predict_jumps" "predictJumps" fun b s => { s with predictJumps := b }]

/-- The names of the modes. -/
def UnitMode.names : List (String × UnitMode) := [("OneShot", .oneShot), ("Repeat", .repeating)]

/-- The fields of the fault section. -/
def FaultConfig.fields : List (Field FaultConfig) :=
  [⟨"inject_comp", "injectComp", fun v s => v.text.map fun t => { s with register := t }⟩,
   .long "inject_time" "injectTime" fun n s => { s with tick := n },
   .long "inject_loc" "injectLoc" fun n s => { s with bit := n },
   .truth "inject_fu" "injectFaultToFu" fun b s => { s with unit := b },
   ⟨"fu_injection", "fuInjectionMode",
     fun v s => (v.named UnitMode.names).map fun m => { s with unitMode := m }⟩,
   .long "fu_inject_loc" "fuInjectLoc" fun n s => { s with unitBit := n }]

/-- The sections. -/
def Config.fields : List (Field Config) :=
  [⟨"general", "general",
     fun v s => (v.record HostConfig.fields .unset).map fun h => { s with host := h }⟩,
   ⟨"pipeline", "pipeline",
     fun v s => (v.record PipelineConfig.fields .unset).map fun p => { s with pipeline := p }⟩,
   ⟨"fault_injection", "faultInjection",
     fun v s => (v.record FaultConfig.fields .unset).map fun f => { s with faults := f }⟩]

/-- The configuration that a text spells, whatever its values. -/
def Config.decode (text : List Char) : Except Json.Fault Config :=
  match Json.read text with
  | (v, rest) =>
    match v.record Config.fields {}, rest with
    | .error f, _ => .error f
    | .ok _, .error f => .error f
    | .ok c, .ok rest =>
      match Json.trailing rest with
      | some f => .error f
      | none => .ok c

/-- The configuration of a text, if it keeps every bound. -/
def Config.parse (text : List Char) : Except SetupError Config := do
  let c ← (Config.decode text).mapError .badConfig
  c.check
  return c

/-- The configuration of a file with the given content. -/
def Config.load (path : String) (content : Except ReadFault (List UInt8)) :
    Except SetupError Config :=
  match content with
  | .error f => .error (.unreadable path f)
  | .ok bytes =>
    match String.fromUTF8? (ByteArray.mk bytes.toArray) with
    | none => .error (.unreadable path .notText)
    | some text => Config.parse text.toList

end InOrder
