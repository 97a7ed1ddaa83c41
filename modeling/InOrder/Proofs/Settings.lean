import InOrder.Config.Decode
import InOrder.Proofs.Json.Reading

/-!
# The settings of a configuration

A setting is of some `ValueKind`, has two names, one of each style, and a place in the record of
its section (`Settings`). The settings of the three sections are listed here with their names as the
documentation has them. The tables that the reader of a section looks its names up in are made of
the same settings (`HostConfig.fields_eq` and so on).

* `ValueKind.reads`: a text that spells a value of a kind is read as this value.
* `Settings.find?_field`: either name of a setting leads to the setting.
-/

namespace InOrder

/-! ## Values -/

/-- What a setting holds. -/
inductive ValueKind where
  | word
  | long
  | truth
  | text
  | mode

/-- The name of a mode in a configuration. -/
def UnitMode.label : UnitMode → String
  | .oneShot => "OneShot"
  | .repeating => "Repeat"

namespace ValueKind

/-- The values of a kind. -/
abbrev Carrier : ValueKind → Type
  | word => UInt32
  | long => UInt64
  | truth => Bool
  | text => String
  | mode => UnitMode

/-- A string that spells the text `s`. -/
def IsString (s : String) (cs : List Char) : Prop :=
  ∃ body, Json.Quoted body s.toList ∧ cs = '"' :: (body ++ ['"'])

/-- The text `cs` spells the value. A mode is spelt by its name, or by an object in which this is
the key of a null. -/
def Spells : (k : ValueKind) → k.Carrier → List Char → Prop
  | word, n, cs => cs = Nat.toDigits 10 n.toNat
  | long, n, cs => cs = Nat.toDigits 10 n.toNat
  | truth, b, cs => cs = if b then ['t', 'r', 'u', 'e'] else ['f', 'a', 'l', 's', 'e']
  | text, s, cs => IsString s cs
  | mode, m, cs => IsString m.label cs ∨
    ∃ key, Json.Quoted key m.label.toList ∧ Json.IsObject [⟨key, ['n', 'u', 'l', 'l']⟩] cs

/-- Take a value of the kind. -/
def read : (k : ValueKind) → Json → Except Json.Fault k.Carrier
  | word, v => (v.natural (UInt32.size - 1)).map UInt32.ofNat
  | long, v => (v.natural (UInt64.size - 1)).map UInt64.ofNat
  | truth, v => v.truth
  | text, v => v.text
  | mode, v => v.named UnitMode.names

theorem natural_of_le {n bound : Nat} (h : n ≤ bound) :
    (Json.number ⟨false, n, 0, true⟩).natural bound = .ok n :=
  if_pos ⟨rfl, rfl, rfl, h⟩

theorem named_label (m : UnitMode) : (Json.string (.ok m.label.toList) none).named UnitMode.names =
    .ok m ∧ (Json.object [(.ok m.label.toList, .null)] .closed).named UnitMode.names = .ok m := by
  cases m <;> exact ⟨rfl, rfl⟩

/-- **What a text spells is what is read.** -/
theorem reads : ∀ {k : ValueKind} {x : k.Carrier} {cs : List Char}, k.Spells x cs →
    Json.Reads cs fun v => k.read v = .ok x
  | word, n, cs, h => by
    obtain rfl : cs = Nat.toDigits 10 n.toNat := h
    have hlt : n.toNat < UInt32.size := n.toNat_lt
    refine (Json.reads_numeral (Nat.lt_trans hlt (by decide))).mono ?_
    rintro _ rfl
    rw [read, natural_of_le (Nat.le_sub_one_of_lt hlt)]
    exact congrArg Except.ok (UInt32.ofNat_toNat)
  | long, n, cs, h => by
    obtain rfl : cs = Nat.toDigits 10 n.toNat := h
    have hlt : n.toNat < UInt64.size := n.toNat_lt
    refine (Json.reads_numeral hlt).mono ?_
    rintro _ rfl
    rw [read, natural_of_le (Nat.le_sub_one_of_lt hlt)]
    exact congrArg Except.ok (UInt64.ofNat_toNat)
  | truth, true, cs, h => by
    obtain rfl : cs = ['t', 'r', 'u', 'e'] := h
    exact Json.reads_true.mono fun _ hv => hv ▸ rfl
  | truth, false, cs, h => by
    obtain rfl : cs = ['f', 'a', 'l', 's', 'e'] := h
    exact Json.reads_false.mono fun _ hv => hv ▸ rfl
  | text, s, cs, h => by
    obtain ⟨body, hbody, rfl⟩ := h
    refine (Json.reads_string hbody.skimmed).mono ?_
    rintro _ ⟨t, rfl, ht⟩
    rw [ht _ hbody]
    exact congrArg Except.ok String.ofList_toList
  | mode, m, cs, .inl h => by
    obtain ⟨body, hbody, rfl⟩ := h
    refine (Json.reads_string hbody.skimmed).mono ?_
    rintro _ ⟨t, rfl, ht⟩
    rw [ht _ hbody]
    exact (named_label m).1
  | mode, m, cs, .inr h => by
    obtain ⟨key, hkey, hobject⟩ := h
    refine (Json.reads_object hobject (List.forall_mem_singleton.mpr hkey.skimmed)
      (List.forall_mem_singleton.mpr (Json.reads_null.mono fun _ _ => trivial))).mono ?_
    rintro _ ⟨es, rfl, hes⟩
    obtain _ | @⟨_, ⟨e, v⟩, _, _, ⟨htext, hvalue⟩, hnil⟩ := hes
    cases hnil
    obtain rfl : e = .ok m.label.toList := htext _ hkey
    obtain rfl : v = .null := Json.reads_null.of_readAs hvalue
    exact (named_label m).2

end ValueKind

/-! ## Sections -/

/-- The settings `ι` of a section, and their places in its record. -/
class Settings (ι : Type) (σ : outParam Type) where
  kind : ι → ValueKind
  /-- The name in the style of the section's fields. -/
  snake : ι → String
  /-- The other name. -/
  camel : ι → String
  /-- All settings, as they are laid out. -/
  all : List ι
  get : (i : ι) → σ → (kind i).Carrier
  put : (i : ι) → (kind i).Carrier → σ → σ
  mem_all : ∀ i, i ∈ all
  /-- No two settings share a name. -/
  distinct : ∀ i ∈ all, ∀ j ∈ all,
    snake j = snake i ∨ snake j = camel i ∨ camel j = snake i ∨ camel j = camel i → j = i
  get_put_self : ∀ i x s, get i (put i x s) = x
  get_put_of_ne : ∀ i j x s, i ≠ j → get j (put i x s) = get j s
  ext : ∀ s s', (∀ i, get i s = get i s') → s = s'

namespace Settings

variable {ι σ : Type} [Settings ι σ]

/-- The names of a setting. -/
def names (i : ι) : List String := [snake i, camel i]

/-- The field of a setting. -/
def field (i : ι) : Field σ := ⟨snake i, camel i, fun v s => ((kind i).read v).map (put i · s)⟩

theorem isCalled_field {i : ι} {key : List Char} :
    (field i).isCalled key = true ↔ ∃ name ∈ names i, name.toList = key := by
  simp [Field.isCalled, field, names]

/-- Two settings that share a name are one. -/
theorem eq_of_names {i j : ι} {name : String} (hi : name ∈ names i) (hj : name ∈ names j) :
    j = i := by
  refine distinct i (mem_all i) j (mem_all j) ?_
  simp only [names, List.mem_cons, List.not_mem_nil, or_false] at hi hj
  rcases hi with rfl | rfl <;> rcases hj with h | h <;> simp [h]

/-- **Either name of a setting leads to the setting.** -/
theorem find?_field {i : ι} {name : String} (hname : name ∈ names i) :
    ((all : List ι).map field).find? (·.isCalled name.toList) = some (field i) := by
  cases hfind : ((all : List ι).map field).find? (·.isCalled name.toList) with
  | none =>
    have hcalled : (field i).isCalled name.toList = true := isCalled_field.mpr ⟨name, hname, rfl⟩
    exact absurd hcalled
      (List.find?_eq_none.mp hfind _ (List.mem_map.mpr ⟨i, mem_all i, rfl⟩))
  | some f =>
    obtain ⟨j, -, rfl⟩ := List.mem_map.mp (List.mem_of_find?_eq_some hfind)
    have hcalled := List.find?_some hfind
    obtain ⟨name', hname', heq⟩ := isCalled_field.mp hcalled
    obtain rfl : name' = name := String.toList_inj.mp heq
    rw [eq_of_names hname hname']

/-- Another name leads nowhere. -/
theorem find?_eq_none {key : List Char} (hkey : ∀ i : ι, ∀ name ∈ names i, name.toList ≠ key) :
    ((all : List ι).map field).find? (·.isCalled key) = none := by
  refine List.find?_eq_none.mpr fun f hf hcalled => ?_
  obtain ⟨i, -, rfl⟩ := List.mem_map.mp hf
  obtain ⟨name, hname, heq⟩ := isCalled_field.mp hcalled
  exact hkey i name hname heq

end Settings

/-! ## The sections of a configuration -/

theorem PerEdge.ext_get {α : Type} {p q : PerEdge α} (h : ∀ e, p.get e = q.get e) : p = q := by
  cases p
  cases q
  congr 1
  · exact h .f1ToF2
  · exact h .f2ToD
  · exact h .dToE
  · exact h .eToF1
  · exact h .f2ToF1

/-- The settings of the host. -/
inductive HostSetting where
  | clockPeriod
  | threads
  | maxTicks
deriving DecidableEq

/-- The settings of the pipeline. -/
inductive PipelineSetting where
  | delay (e : Edge)
  | width
  | idling
  | lineQueue
  | decodeQueue
  | executeQueue
  | lineBytes
  | fetchLatency
  | executeLatency
  | units
  | predictJumps
deriving DecidableEq

/-- The settings of the faults. -/
inductive FaultSetting where
  | register
  | tick
  | bit
  | unit
  | unitMode
  | unitBit
deriving DecidableEq

instance : Settings HostSetting HostConfig where
  kind
    | .clockPeriod | .maxTicks => .long
    | .threads => .word
  snake
    | .clockPeriod => "clock_period"
    | .threads => "num_threads"
    | .maxTicks => "max_ticks"
  camel
    | .clockPeriod => "clockPeriod"
    | .threads => "numThreads"
    | .maxTicks => "maxTicks"
  all := [.clockPeriod, .threads, .maxTicks]
  get
    | .clockPeriod, s => s.clockPeriod
    | .threads, s => s.threads
    | .maxTicks, s => s.maxTicks
  put
    | .clockPeriod, n, s => { s with clockPeriod := n }
    | .threads, n, s => { s with threads := n }
    | .maxTicks, n, s => { s with maxTicks := n }
  mem_all i := by cases i <;> decide
  distinct := by decide
  get_put_self i x s := by cases i <;> rfl
  get_put_of_ne i j x s hne := by cases i <;> cases j <;> first | rfl | exact absurd rfl hne
  ext s s' h := by
    cases s
    cases s'
    congr 1
    · exact h .clockPeriod
    · exact h .threads
    · exact h .maxTicks

instance : Settings PipelineSetting PipelineConfig where
  kind
    | .delay _ | .width | .lineBytes => .word
    | .idling | .predictJumps => .truth
    | .lineQueue | .decodeQueue | .executeQueue | .fetchLatency | .executeLatency | .units => .long
  snake
    | .delay .f1ToF2 => "fetch1_to_fetch2_forward_delay"
    | .delay .f2ToF1 => "fetch1_to_fetch2_backward_delay"
    | .delay .f2ToD => "fetch2_to_decode_forward_delay"
    | .delay .dToE => "decode_to_execute_forward_delay"
    | .delay .eToF1 => "execute_branch_delay"
    | .width => "decode_input_width"
    | .idling => "enable_idling"
    | .lineQueue => "fetch2_input_buffer_size"
    | .decodeQueue => "decode_input_buffer_size"
    | .executeQueue => "execute_input_buffer_size"
    | .lineBytes => "fetch_line_bytes"
    | .fetchLatency => "icache_latency"
    | .executeLatency => "execute_latency"
    | .units => "num_functional_units"
    | .predictJumps => "predict_jumps"
  camel
    | .delay .f1ToF2 => "fetch1ToFetch2ForwardDelay"
    | .delay .f2ToF1 => "fetch1ToFetch2BackwardDelay"
    | .delay .f2ToD => "fetch2ToDecodeForwardDelay"
    | .delay .dToE => "decodeToExecuteForwardDelay"
    | .delay .eToF1 => "executeBranchDelay"
    | .width => "decodeInputWidth"
    | .idling => "enableIdling"
    | .lineQueue => "fetch2InputBufferSize"
    | .decodeQueue => "decodeInputBufferSize"
    | .executeQueue => "executeInputBufferSize"
    | .lineBytes => "fetch1LineWidth"
    | .fetchLatency => "icacheLatency"
    | .executeLatency => "executeLatency"
    | .units => "numFunctionalUnits"
    | .predictJumps => "predictJumps"
  all := [.delay .f1ToF2, .delay .f2ToF1, .delay .f2ToD, .delay .dToE, .delay .eToF1, .width,
    .idling, .lineQueue, .decodeQueue, .executeQueue, .lineBytes, .fetchLatency, .executeLatency,
    .units, .predictJumps]
  get
    | .delay e, s => s.delays.get e
    | .width, s => s.width
    | .idling, s => s.idling
    | .lineQueue, s => s.lineQueue
    | .decodeQueue, s => s.decodeQueue
    | .executeQueue, s => s.executeQueue
    | .lineBytes, s => s.lineBytes
    | .fetchLatency, s => s.fetchLatency
    | .executeLatency, s => s.executeLatency
    | .units, s => s.units
    | .predictJumps, s => s.predictJumps
  put
    | .delay e, n, s => { s with delays := s.delays.modify e fun _ => n }
    | .width, n, s => { s with width := n }
    | .idling, b, s => { s with idling := b }
    | .lineQueue, n, s => { s with lineQueue := n }
    | .decodeQueue, n, s => { s with decodeQueue := n }
    | .executeQueue, n, s => { s with executeQueue := n }
    | .lineBytes, n, s => { s with lineBytes := n }
    | .fetchLatency, n, s => { s with fetchLatency := n }
    | .executeLatency, n, s => { s with executeLatency := n }
    | .units, n, s => { s with units := n }
    | .predictJumps, b, s => { s with predictJumps := b }
  mem_all
    | .delay e => by cases e <;> decide
    | .width | .idling | .lineQueue | .decodeQueue | .executeQueue | .lineBytes | .fetchLatency
    | .executeLatency | .units | .predictJumps => by decide
  distinct := by decide +kernel
  get_put_self
    | .delay e, n, s => (s.delays.get_modify e e fun _ => n).trans (if_pos rfl)
    | .width, _, _ | .idling, _, _ | .lineQueue, _, _ | .decodeQueue, _, _ | .executeQueue, _, _
    | .lineBytes, _, _ | .fetchLatency, _, _ | .executeLatency, _, _ | .units, _, _
    | .predictJumps, _, _ => rfl
  get_put_of_ne i j x s hne := by
    cases i with
    | delay e =>
      cases j with
      | delay e' =>
        refine (s.delays.get_modify e e' fun _ => x).trans (if_neg fun heq => ?_)
        exact hne (congrArg PipelineSetting.delay heq.symm)
      | _ => rfl
    | _ => cases j <;> first | rfl | exact absurd rfl hne
  ext s s' h := by
    cases s
    cases s'
    congr 1
    · exact PerEdge.ext_get (fun e => h (.delay e))
    · exact h .width
    · exact h .idling
    · exact h .lineQueue
    · exact h .decodeQueue
    · exact h .executeQueue
    · exact h .lineBytes
    · exact h .fetchLatency
    · exact h .executeLatency
    · exact h .units
    · exact h .predictJumps

instance : Settings FaultSetting FaultConfig where
  kind
    | .register => .text
    | .tick | .bit | .unitBit => .long
    | .unit => .truth
    | .unitMode => .mode
  snake
    | .register => "inject_comp"
    | .tick => "inject_time"
    | .bit => "inject_loc"
    | .unit => "inject_fu"
    | .unitMode => "fu_injection"
    | .unitBit => "fu_inject_loc"
  camel
    | .register => "injectComp"
    | .tick => "injectTime"
    | .bit => "injectLoc"
    | .unit => "injectFaultToFu"
    | .unitMode => "fuInjectionMode"
    | .unitBit => "fuInjectLoc"
  all := [.register, .tick, .bit, .unit, .unitMode, .unitBit]
  get
    | .register, s => s.register
    | .tick, s => s.tick
    | .bit, s => s.bit
    | .unit, s => s.unit
    | .unitMode, s => s.unitMode
    | .unitBit, s => s.unitBit
  put
    | .register, t, s => { s with register := t }
    | .tick, n, s => { s with tick := n }
    | .bit, n, s => { s with bit := n }
    | .unit, b, s => { s with unit := b }
    | .unitMode, m, s => { s with unitMode := m }
    | .unitBit, n, s => { s with unitBit := n }
  mem_all i := by cases i <;> decide
  distinct := by decide
  get_put_self i x s := by cases i <;> rfl
  get_put_of_ne i j x s hne := by cases i <;> cases j <;> first | rfl | exact absurd rfl hne
  ext s s' h := by
    cases s
    cases s'
    congr 1
    · exact h .register
    · exact h .tick
    · exact h .bit
    · exact h .unit
    · exact h .unitMode
    · exact h .unitBit

/-! ## The tables of the reader -/

theorem Field.natural_eq {α σ : Type} (name other : String) (bound : Nat) (ofNat : Nat → α)
    (set : α → σ → σ) : Field.natural name other bound (fun n => set (ofNat n)) =
      ⟨name, other, fun v s => ((v.natural bound).map ofNat).map (set · s)⟩ := by
  have hput : ∀ (v : Json) (s : σ), (v.natural bound).map (fun n => set (ofNat n) s) =
      ((v.natural bound).map ofNat).map (set · s) := fun v s => by
    cases v.natural bound <;> rfl
  simp only [Field.natural, hput]

theorem Field.word_eq {σ : Type} (name other : String) (set : UInt32 → σ → σ) :
    Field.word name other set = ⟨name, other, fun v s => (ValueKind.word.read v).map (set · s)⟩ :=
  Field.natural_eq name other _ UInt32.ofNat set

theorem Field.long_eq {σ : Type} (name other : String) (set : UInt64 → σ → σ) :
    Field.long name other set = ⟨name, other, fun v s => (ValueKind.long.read v).map (set · s)⟩ :=
  Field.natural_eq name other _ UInt64.ofNat set

/-- The reader of the host section knows its settings. -/
theorem HostConfig.fields_eq :
    HostConfig.fields = (Settings.all : List HostSetting).map Settings.field := by
  simp only [HostConfig.fields, Field.word_eq, Field.long_eq]
  rfl

/-- The reader of the pipeline section knows its settings. -/
theorem PipelineConfig.fields_eq :
    PipelineConfig.fields = (Settings.all : List PipelineSetting).map Settings.field := by
  simp only [PipelineConfig.fields, PipelineConfig.delayField, Field.word_eq, Field.long_eq]
  rfl

/-- The reader of the fault section knows its settings. -/
theorem FaultConfig.fields_eq :
    FaultConfig.fields = (Settings.all : List FaultSetting).map Settings.field := by
  simp only [FaultConfig.fields, Field.long_eq]
  rfl

end InOrder
