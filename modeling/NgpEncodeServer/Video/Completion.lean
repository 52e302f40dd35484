import NgpEncodeServer.Foundation.Completion
import NgpEncodeServer.Video.Wakeups

/-!
# Calls of `FrameQueue` and `FrameMap` return

The cleanup of a `get_delete` can leave inserters asleep in front of free places.  What a lost
wakeup costs is time: every wait of the queue and of the map has a timeout, so that no call of
either of them hangs, whatever the others do.
-/

namespace Ngp

variable {α : Type*}

/-- Calls of the queue that have all returned are calls of the bounded queue, made one after the
other. -/
theorem FrameQueue.calls_of_completes {n : ℕ} {as : List (Monitor.Action (QueueOp α))}
    {s : FrameQueue.Threads α} (h : frameQueueMonitor.Completes [] n as s) (hcalls : s.calls = 0) :
    ∃ q : FrameQueue α, q.queue = s.shared ∧ FrameQueue.Calls s.returned q := by
  apply (h.finished hcalls).steps rfl
  · intro op q hready
    exact FrameQueue.callStep_of_ready hready
  · intro op q hready
    exact FrameQueue.callStep_of_not_ready hready

/-- Calls of the map that have all returned are calls of the bounded map, made one after the
other. -/
theorem FrameMap.calls_of_completes {n : ℕ} {as : List (Monitor.Action (MapOp α))}
    {s : FrameMap.Threads α} (h : frameMapMonitor.Completes .empty n as s) (hcalls : s.calls = 0) :
    ∃ m : FrameMap α, m.map = s.shared ∧ FrameMap.Calls s.returned m := by
  apply (h.finished hcalls).steps rfl
  · intro op m hready
    exact FrameMap.callStep_of_ready hready
  · intro op m hready
    exact FrameMap.callStep_of_not_ready hready

/-- For any number of threads and every interleaving of their steps, timeouts and spurious wakeups,
for `FrameQueue` and for `FrameMap`: the calls take a bounded number of steps, which only calls and
spurious wakeups add to; some call can go on as long as one is in progress; none is lost and none
returns twice; all calls in progress can return without a step from outside; and once all have
returned they are calls of the bounded container, made one after the other. -/
theorem frameCalls_complete :
    (∀ (n : ℕ) (as : List (Monitor.Action (QueueOp α))) (s : FrameQueue.Threads α),
      frameQueueMonitor.step.run (Monitor.init [] n) as = some s →
        frameQueueMonitor.Completes [] n as s ∧
          (s.calls = 0 →
            ∃ q : FrameQueue α, q.queue = s.shared ∧ FrameQueue.Calls s.returned q)) ∧
    ∀ (n : ℕ) (as : List (Monitor.Action (MapOp α))) (s : FrameMap.Threads α),
      frameMapMonitor.step.run (Monitor.init .empty n) as = some s →
        frameMapMonitor.Completes .empty n as s ∧
          (s.calls = 0 →
            ∃ m : FrameMap α, m.map = s.shared ∧ FrameMap.Calls s.returned m) := by
  constructor
  · intro n as s hrun
    have hcompletes := Monitor.completes_run hrun
    exact ⟨hcompletes, FrameQueue.calls_of_completes hcompletes⟩
  · intro n as s hrun
    have hcompletes := Monitor.completes_run hrun
    exact ⟨hcompletes, FrameMap.calls_of_completes hcompletes⟩

/-- A popper sleeps while the element goes to another one; the inserter that the cleanup has left
asleep in front of the empty map returns as well. -/
theorem frameCalls_complete_asleep :
    (∃ s, frameQueueMonitor.step.run (Monitor.init [] 3) FrameQueue.pushWakes = some s ∧
      s.calls = 2 ∧ frameQueueMonitor.Completes [] 3 FrameQueue.pushWakes s) ∧
    ∃ s, frameMapMonitor.step.run (Monitor.init .empty 3) (FrameMap.freesOne 1000) = some s ∧
      FrameMap.Leaves 0 1 s ∧ ∃ bs s', frameMapMonitor.step.run s bs = some s' ∧ s'.calls = 0 := by
  constructor
  · exact ⟨_, rfl, rfl, (frameCalls_complete.1 3 FrameQueue.pushWakes _ rfl).1⟩
  · have hany : (frameMapMonitor.step.run (Monitor.init .empty 3) (FrameMap.freesOne 1000)).any
        (FrameMap.Leaves 0 1) = true := by decide +kernel
    obtain ⟨s, hrun, hleaves⟩ := (Option.any_eq_true _ _).mp hany
    obtain ⟨bs, s', hbs, -, hcalls, -⟩ := (frameCalls_complete.2 3 _ s hrun).1.finish
    exact ⟨s, hrun, hleaves, bs, s', hbs, hcalls⟩

end Ngp
