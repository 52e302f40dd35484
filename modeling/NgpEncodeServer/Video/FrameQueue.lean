import NgpEncodeServer.Base.Exceptions
import Mathlib.Data.Nat.Notation

/-!
# `FrameQueue`

The bounded queue between the client threads and the process thread of one eye.  `push` and `pop`
are the critical sections in which `wait_for` returns: with a true predicate they act on the queue,
with a false one (the timeout) they throw `LockTimeout` and leave the queue as it was.  A thread
whose predicate is false and whose timeout has not come yet is blocked, that is, it takes no step.
-/

namespace Ngp

/-- Max size of `FrameQueue`. -/
def kFrameQueueMaxSize : ℕ := 100

/-- The queue and its bound. -/
structure FrameQueue (α : Type*) where
  /-- `m_queue`, front first. -/
  queue : List α
  /-- The queue never holds more than `kFrameQueueMaxSize` elements. -/
  size_le : queue.length ≤ kFrameQueueMaxSize

namespace FrameQueue

variable {α : Type*} {q q' : FrameQueue α} {el : α}

/-- The queue the server starts with. -/
def empty : FrameQueue α := ⟨[], Nat.zero_le _⟩

@[simp] theorem queue_empty : (empty : FrameQueue α).queue = [] := rfl

/-- `FrameQueue::push`. -/
def push (q : FrameQueue α) (el : α) : Except Exn (FrameQueue α) :=
  if h : q.queue.length < kFrameQueueMaxSize then
    .ok ⟨q.queue ++ [el], by rw [List.length_append]; exact h⟩
  else .error .lockTimeout

/-- `FrameQueue::pop`. -/
def pop (q : FrameQueue α) : Except Exn (α × FrameQueue α) :=
  match h : q.queue with
  | [] => .error .lockTimeout
  | item :: rest =>
    .ok (item, ⟨rest, by have := q.size_le; rw [h, List.length_cons] at this; omega⟩)

/-- A successful `push` needs a free place and appends the element. -/
theorem push_eq_ok (h : q.push el = .ok q') :
    q.queue.length < kFrameQueueMaxSize ∧ q'.queue = q.queue ++ [el] := by
  unfold push at h
  split at h
  · cases h
    exact ⟨‹_›, rfl⟩
  · cases h

/-- `push` succeeds whenever there is a free place. -/
theorem exists_push_eq_ok (h : q.queue.length < kFrameQueueMaxSize) (el : α) :
    ∃ q', q.push el = .ok q' := by
  unfold push
  rw [dif_pos h]
  exact ⟨_, rfl⟩

/-- `push` throws only `LockTimeout`, and only when the queue is full. -/
theorem push_eq_error {e : Exn} (h : q.push el = .error e) :
    e = .lockTimeout ∧ q.queue.length = kFrameQueueMaxSize := by
  unfold push at h
  split at h
  · cases h
  · cases h
    have := q.size_le
    exact ⟨rfl, by omega⟩

/-- A successful `pop` takes the element at the front. -/
theorem pop_eq_ok (h : q.pop = .ok (el, q')) : q.queue = el :: q'.queue := by
  unfold pop at h
  split at h
  · cases h
  · cases h
    assumption

/-- `pop` succeeds whenever the queue is not empty. -/
theorem exists_pop_eq_ok (h : q.queue ≠ []) : ∃ r, q.pop = .ok r := by
  unfold pop
  split
  · contradiction
  · exact ⟨_, rfl⟩

/-- `pop` throws only `LockTimeout`, and only when the queue is empty. -/
theorem pop_eq_error {e : Exn} (h : q.pop = .error e) : e = .lockTimeout ∧ q.queue = [] := by
  unfold pop at h
  split at h
  · cases h
    exact ⟨rfl, ‹_›⟩
  · cases h

end FrameQueue

end Ngp
