import NgpEncodeServer.Foundation.Monitor
import NgpEncodeServer.Video.FrameQueue

/-!
# `FrameQueue` with its mutex and condition variables

`frameQueueMonitor` is `FrameQueue` as the code has it: a list without a bound of its own, a mutex
and the two condition variables `m_pusher` and `m_popper`, with `push` and `pop` in steps of one
atomic action each.  The result is that any number of threads see the bounded queue of `FrameQueue`:
`push` and `pop` take effect one after the other, in the order of their critical sections, and what
is popped is what was pushed, in the order in which it was pushed.
-/

namespace Ngp

/-- The calls of a `FrameQueue`. -/
inductive QueueOp (α : Type*) where
  | push (el : α)
  | pop
  deriving DecidableEq, Repr

/-- The condition variables of a `FrameQueue`. -/
inductive QueueCond where
  /-- `m_pusher`. -/
  | pusher
  /-- `m_popper`. -/
  | popper
  deriving DecidableEq, Repr

variable {α : Type*}

/-- `FrameQueue::push` and `FrameQueue::pop`.  The slot is the `unique_ptr` of the caller: the one a
`push` moves from, and the one a `pop` returns. -/
def frameQueueMonitor : Monitor (List α) (QueueOp α) (Option α) QueueCond where
  ready
    | .push _, queue => queue.length < kFrameQueueMaxSize
    | .pop, queue => 0 < queue.length
  body
    | .push el, queue => (queue ++ [el], none)
    | .pop, [] => ([], none)
    | .pop, item :: queue => (queue, some item)
  slot
    | .push el => some el
    | .pop => none
  waitsOn
    | .push _ => .pusher
    | .pop => .popper
  wakes
    | .push _ => .popper
    | .pop => .pusher
  wakesAll _ := false

namespace FrameQueue

/-- A call of a queue that has returned or thrown. -/
abbrev Entry (α : Type*) := Monitor.Entry (QueueOp α) (Option α)

/-- The element that a call pushed. -/
def pushedBy (e : Entry α) : Option α :=
  match e.op, e.ok with
  | .push el, true => some el
  | _, _ => none

/-- The element that a call popped. -/
def poppedBy (e : Entry α) : Option α :=
  match e.op, e.ok with
  | .pop, true => e.slot
  | _, _ => none

/-- A call that throws pushes nothing. -/
@[simp] theorem pushedBy_throws (op : QueueOp α) (slot : Option α) :
    pushedBy ⟨op, slot, false⟩ = none := by
  cases op <;> rfl

/-- A call that throws pops nothing. -/
@[simp] theorem poppedBy_throws (op : QueueOp α) (slot : Option α) :
    poppedBy ⟨op, slot, false⟩ = none := by
  cases op <;> rfl

/-- The elements pushed, in the order of the critical sections. -/
def pushed (log : List (Entry α)) : List α := log.filterMap pushedBy

/-- The elements popped, in the order of the critical sections. -/
def popped (log : List (Entry α)) : List α := log.filterMap poppedBy

/-- One call of `push` or `pop` on the bounded queue, as one step: it takes effect, or it throws
`LockTimeout`, changes nothing and leaves the element with its caller. -/
inductive CallStep (q : FrameQueue α) : Entry α → FrameQueue α → Prop
  | push {el : α} {q' : FrameQueue α} (h : q.push el = .ok q') :
      CallStep q ⟨.push el, none, true⟩ q'
  | pushTimeout {el : α} (h : q.push el = .error .lockTimeout) :
      CallStep q ⟨.push el, some el, false⟩ q
  | pop {item : α} {q' : FrameQueue α} (h : q.pop = .ok (item, q')) :
      CallStep q ⟨.pop, some item, true⟩ q'
  | popTimeout (h : q.pop = .error .lockTimeout) : CallStep q ⟨.pop, none, false⟩ q

/-- A sequence of calls on the bounded queue, starting with the empty one. -/
abbrev Calls (log : List (Entry α)) (q : FrameQueue α) : Prop :=
  Monitor.Steps CallStep .empty log q

/-- A call of the monitor is a call of the bounded queue, when its predicate holds. -/
theorem callStep_of_ready {op : QueueOp α} {q : FrameQueue α}
    (hready : frameQueueMonitor.ready op q.queue = true) :
    ∃ q' : FrameQueue α, q'.queue = (frameQueueMonitor.body op q.queue).1 ∧
      CallStep q ⟨op, (frameQueueMonitor.body op q.queue).2, true⟩ q' := by
  cases op with
  | push el =>
    obtain ⟨q', hq'⟩ := exists_push_eq_ok (of_decide_eq_true hready) el
    exact ⟨q', (push_eq_ok hq').2, .push hq'⟩
  | pop =>
    have hne : q.queue ≠ [] := List.ne_nil_of_length_pos (of_decide_eq_true hready)
    obtain ⟨⟨item, q'⟩, hq'⟩ := exists_pop_eq_ok hne
    have hqueue := pop_eq_ok hq'
    refine ⟨q', ?_, ?_⟩
    · rw [hqueue]
      rfl
    · rw [hqueue]
      exact .pop hq'

/-- A call of the monitor that gives up is one of the bounded queue that throws. -/
theorem callStep_of_not_ready {op : QueueOp α} {q : FrameQueue α}
    (hready : frameQueueMonitor.ready op q.queue = false) :
    CallStep q ⟨op, frameQueueMonitor.slot op, false⟩ q := by
  cases op with
  | push el =>
    refine .pushTimeout ?_
    unfold FrameQueue.push
    rw [dif_neg (of_decide_eq_false hready)]
  | pop =>
    have hnil : q.queue = [] := by
      rw [← List.length_eq_zero_iff]
      exact Nat.eq_zero_of_not_pos (of_decide_eq_false hready)
    refine .popTimeout ?_
    cases hpop : q.pop with
    | error e => rw [(pop_eq_error hpop).1]
    | ok r =>
      have hqueue : q.queue = r.1 :: r.2.queue := pop_eq_ok hpop
      rw [hnil] at hqueue
      cases hqueue

/-- What has been popped and what is in the queue is what has been pushed, in order. -/
theorem fifo {log : List (Entry α)} {q : FrameQueue α} (h : Calls log q) :
    popped log ++ q.queue = pushed log := by
  induction h with
  | nil => rfl
  | snoc _ hstep ih =>
    unfold popped pushed at ih ⊢
    rw [List.filterMap_append, List.filterMap_append]
    cases hstep with
    | push h =>
      rw [(push_eq_ok h).2]
      simp [poppedBy, pushedBy, ← ih]
    | pop h =>
      rw [pop_eq_ok h] at ih
      simp [poppedBy, pushedBy, ← ih]
    | pushTimeout | popTimeout => simp [ih]

/-- For any number of threads and every interleaving of their steps: the queue never holds more than
`kFrameQueueMaxSize` elements; what the pops have taken, in the order of their critical sections,
and then the contents are what the pushes have put in, in the order of theirs; the calls return in
this order, and all of them have when the mutex is free.  The calls are a sequential execution of
the bounded queue.  A call that throws `LockTimeout` has found its predicate false in its last test
and changed nothing, and an element to be pushed is still with its caller. -/
theorem frameQueue_linearizable {n : ℕ} {as : List (Monitor.Action (QueueOp α))}
    {s : Monitor.State (List α) (QueueOp α) (Option α)}
    (hrun : frameQueueMonitor.step.run (Monitor.init [] n) as = some s) :
    s.shared.length ≤ kFrameQueueMaxSize ∧
      popped s.log ++ s.shared = pushed s.log ∧
      s.returned <+: s.log ∧ (s.holder = none → s.returned = s.log) ∧
      (∃ q : FrameQueue α, q.queue = s.shared ∧ Calls s.log q) ∧
      ∀ i c, s.threads[i]? = some (some c) → c.point = .unlocking false →
        frameQueueMonitor.GivesUp [] n as i c.op ∧ ∀ el, c.op = .push el → c.slot = some el := by
  obtain ⟨hseq, hreturned, hfree⟩ := Monitor.run_atomic hrun
  obtain ⟨q, hq, hcalls⟩ : ∃ q : FrameQueue α, q.queue = s.shared ∧ Calls s.log q :=
    hseq.steps rfl (fun _ _ hready => callStep_of_ready hready)
      (fun _ _ hready => callStep_of_not_ready hready)
  refine ⟨?_, ?_, hreturned, hfree, ⟨q, hq, hcalls⟩, ?_⟩
  · rw [← hq]
    exact q.size_le
  · rw [← hq]
    exact fifo hcalls
  · intro i c hc hat
    obtain ⟨hgives, hslot⟩ := Monitor.givesUp_run hrun hc hat
    refine ⟨hgives, fun el hop => ?_⟩
    rw [hslot, hop]
    rfl

/-- A pop blocks on the empty queue, a push notifies it, and another pop overtakes it: after the
timeout it gives up. -/
def overtaken : List (Monitor.Action (QueueOp ℕ)) :=
  [.call 0 .pop, .acquire 0, .test 0,
    .call 1 (.push 7), .acquire 1, .test 1, .act 1, .notify 1 (some 0), .unlock 1,
    .call 2 .pop, .acquire 2, .test 2, .act 2, .notify 2 none, .unlock 2,
    .acquire 0, .test 0, .wake 0 true, .acquire 0, .test 0]

/-- The element pushed went to the pop that overtook, and the other one throws. -/
theorem frameQueue_linearizable_overtaken :
    ∃ s, frameQueueMonitor.step.run (Monitor.init [] 3) overtaken = some s ∧
      popped s.log = [7] ∧ popped s.log ++ s.shared = pushed s.log ∧
      frameQueueMonitor.GivesUp [] 3 overtaken 0 .pop := by
  obtain ⟨-, hfifo, -, -, -, hgives⟩ := @frameQueue_linearizable _ 3 overtaken _ rfl
  exact ⟨_, rfl, rfl, hfifo, (hgives 0 _ rfl rfl).1⟩

end FrameQueue

end Ngp
