import NgpEncodeServer.Foundation.Machine

/-!
# Monitors with timed waits

A monitor is a shared state behind a mutex, with operations that wait on a condition variable until
a predicate holds and then run their critical section:

    lock; if (wait_for(predicate)) { body; notify } else throw; unlock

`Monitor.step` is this protocol for any number of threads in steps of one atomic action each: the
mutex is acquired, the predicate is tested, the thread blocks and releases the mutex, it is
unblocked by a notification, a spurious wakeup or the timeout, it acquires the mutex and tests
again, it acts, notifies and releases the mutex.  An operation that the timeout has unblocked gives
up if its predicate is false at the test that follows.

`Monitor.Sequential` is what the monitor is for: every call is one step, which runs the body if the
predicate holds, and changes nothing if the call gives up.  `Monitor.run_atomic` is the refinement:
in every run the calls, in the order of their last tests, are a sequential execution that ends in
the shared state, and they return in this order.
-/

namespace Ngp

/-- Operations `ω` on a shared state `σ`, with condition variables `χ`.  The slot `τ` is what
belongs to the caller: the arguments it moves in and the result it gets. -/
structure Monitor (σ ω τ χ : Type*) where
  /-- The predicate the operation waits for. -/
  ready : ω → σ → Bool
  /-- The critical section: the shared state and the slot of the caller that it leaves. -/
  body : ω → σ → σ × τ
  /-- The slot with which the operation is called. -/
  slot : ω → τ
  /-- The condition variable on which the operation waits. -/
  waitsOn : ω → χ
  /-- The condition variable that the operation notifies. -/
  wakes : ω → χ
  /-- It notifies all waiting threads and not just one. -/
  wakesAll : ω → Bool

namespace Monitor

/-- Where a call is. -/
inductive Point where
  /-- Before the mutex is acquired for the first time. -/
  | locking
  /-- With the mutex, before a test of the predicate; the flag says whether the wait has timed
  out. -/
  | testing (timedOut : Bool)
  /-- Waiting on the condition variable. -/
  | blocked
  /-- Unblocked, before the mutex is acquired again. -/
  | woken (timedOut : Bool)
  /-- With the mutex, after a test that found the predicate true. -/
  | acting
  /-- With the mutex, after the body. -/
  | notifying
  /-- Before the mutex is released on the way out, normally or by the exception. -/
  | unlocking (ok : Bool)
  deriving DecidableEq, Repr

/-- The thread holds the mutex. -/
def Point.holds : Point → Bool
  | .testing _ | .acting | .notifying | .unlocking _ => true
  | .locking | .blocked | .woken _ => false

/-- The body has run. -/
def Point.acted : Point → Bool
  | .notifying | .unlocking true => true
  | _ => false

/-- A call in progress. -/
structure Call (ω τ : Type*) where
  op : ω
  slot : τ
  point : Point
  deriving DecidableEq, Repr

/-- A call that has run its body (`ok`) or given up, with the slot of the caller after it. -/
structure Entry (ω τ : Type*) where
  op : ω
  slot : τ
  ok : Bool
  deriving DecidableEq, Repr

/-- What a call whose result is fixed, but which has not returned yet, comes to. -/
def Call.entry {ω τ : Type*} (c : Call ω τ) : List (Entry ω τ) :=
  match c.point with
  | .notifying => [⟨c.op, c.slot, true⟩]
  | .unlocking ok => [⟨c.op, c.slot, ok⟩]
  | _ => []

/-- The shared state, the mutex and the threads.  A thread is `none` while it is outside the
monitor.  The last two fields are history variables. -/
structure State (σ ω τ : Type*) where
  shared : σ
  /-- The thread that holds the mutex. -/
  holder : Option ℕ
  threads : List (Option (Call ω τ))
  /-- The calls whose result is fixed, in the order of their last tests. -/
  log : List (Entry ω τ)
  /-- The calls that have returned or thrown, in order. -/
  returned : List (Entry ω τ)

/-- A step of the thread `i`, or one that unblocks it. -/
inductive Action (ω : Type*) where
  | call (i : ℕ) (op : ω)
  | acquire (i : ℕ)
  | test (i : ℕ)
  | act (i : ℕ)
  /-- With the thread that is unblocked when one is to be. -/
  | notify (i : ℕ) (target : Option ℕ)
  | unlock (i : ℕ)
  /-- The thread is unblocked by the timeout, or for no reason. -/
  | wake (i : ℕ) (timedOut : Bool)
  deriving DecidableEq, Repr

/-- The thread that the step belongs to. -/
def Action.thread {ω : Type*} : Action ω → ℕ
  | .call i _ | .acquire i | .test i | .act i | .notify i _ | .unlock i | .wake i _ => i

variable {σ ω τ χ : Type*} [DecidableEq χ] (m : Monitor σ ω τ χ)

/-- `n` threads outside the monitor. -/
def init (shared : σ) (n : ℕ) : State σ ω τ where
  shared := shared
  holder := none
  threads := List.replicate n none
  log := []
  returned := []

/-- The call is blocked on the condition variable. -/
def waiting (v : χ) (c : Call ω τ) : Bool := c.point = .blocked && m.waitsOn c.op = v

/-- What notifying all does to a call. -/
def wakeIf (v : χ) (c : Call ω τ) : Call ω τ :=
  if m.waiting v c then { c with point := .woken false } else c

/-- The thread `i` goes on with its call. -/
def State.move (s : State σ ω τ) (i : ℕ) (c : Call ω τ) : State σ ω τ :=
  { s with threads := s.threads.set i (some c) }

/-- One step. -/
def step : Machine (State σ ω τ) (Action ω) := fun s a =>
  match a, s.threads[a.thread]? with
  | .call i op, some none => some (s.move i ⟨op, m.slot op, .locking⟩)
  | .acquire i, some (some c) =>
    if s.holder = none then
      match c.point with
      | .locking => some { s.move i { c with point := .testing false } with holder := some i }
      | .woken timedOut =>
        some { s.move i { c with point := .testing timedOut } with holder := some i }
      | _ => none
    else none
  | .test i, some (some c) =>
    match c.point with
    | .testing timedOut =>
      if m.ready c.op s.shared then some (s.move i { c with point := .acting })
      else if timedOut then
        some { s.move i { c with point := .unlocking false } with
          log := s.log ++ [⟨c.op, c.slot, false⟩] }
      else some { s.move i { c with point := .blocked } with holder := none }
    | _ => none
  | .act i, some (some c) =>
    match c.point with
    | .acting =>
      let r := m.body c.op s.shared
      some { s.move i { c with slot := r.2, point := .notifying } with
        shared := r.1, log := s.log ++ [⟨c.op, r.2, true⟩] }
    | _ => none
  | .notify i target, some (some c) =>
    match c.point with
    | .notifying =>
      let done := { c with point := .unlocking true }
      if m.wakesAll c.op then
        match target with
        | none =>
          let woken := { s with threads := s.threads.map (Option.map (m.wakeIf (m.wakes c.op))) }
          some (woken.move i done)
        | some _ => none
      else
        match target with
        | none =>
          if s.threads.any (Option.any (m.waiting (m.wakes c.op))) then none
          else some (s.move i done)
        | some j =>
          match s.threads[j]? with
          | some (some d) =>
            if m.waiting (m.wakes c.op) d then
              some ((s.move j { d with point := .woken false }).move i done)
            else none
          | _ => none
    | _ => none
  | .unlock i, some (some c) =>
    match c.point with
    | .unlocking ok =>
      some { s with
        threads := s.threads.set i none, holder := none,
        returned := s.returned ++ [⟨c.op, c.slot, ok⟩] }
    | _ => none
  | .wake i timedOut, some (some c) =>
    match c.point with
    | .blocked => some (s.move i { c with point := .woken timedOut })
    | _ => none
  | _, _ => none

/-! ### What a step does -/

/-- The steps of a monitor. -/
inductive Trans (s : State σ ω τ) : Action ω → State σ ω τ → Prop
  | call {i : ℕ} {op : ω} (hout : s.threads[i]? = some none) :
      Trans s (.call i op) (s.move i ⟨op, m.slot op, .locking⟩)
  | acquire {i : ℕ} {c : Call ω τ} {timedOut : Bool} (hc : s.threads[i]? = some (some c))
      (hat : c.point = .locking ∧ timedOut = false ∨ c.point = .woken timedOut)
      (hfree : s.holder = none) :
      Trans s (.acquire i) { s.move i { c with point := .testing timedOut } with holder := some i }
  | testReady {i : ℕ} {c : Call ω τ} {timedOut : Bool} (hc : s.threads[i]? = some (some c))
      (hat : c.point = .testing timedOut) (hready : m.ready c.op s.shared = true) :
      Trans s (.test i) (s.move i { c with point := .acting })
  | testTimeout {i : ℕ} {c : Call ω τ} (hc : s.threads[i]? = some (some c))
      (hat : c.point = .testing true) (hready : m.ready c.op s.shared = false) :
      Trans s (.test i) { s.move i { c with point := .unlocking false } with
        log := s.log ++ [⟨c.op, c.slot, false⟩] }
  | testBlock {i : ℕ} {c : Call ω τ} (hc : s.threads[i]? = some (some c))
      (hat : c.point = .testing false) (hready : m.ready c.op s.shared = false) :
      Trans s (.test i) { s.move i { c with point := .blocked } with holder := none }
  | act {i : ℕ} {c : Call ω τ} (hc : s.threads[i]? = some (some c)) (hat : c.point = .acting) :
      Trans s (.act i)
        { s.move i { c with slot := (m.body c.op s.shared).2, point := .notifying } with
          shared := (m.body c.op s.shared).1,
          log := s.log ++ [⟨c.op, (m.body c.op s.shared).2, true⟩] }
  | notifyAll {i : ℕ} {c : Call ω τ} (hc : s.threads[i]? = some (some c))
      (hat : c.point = .notifying) (hall : m.wakesAll c.op = true) :
      Trans s (.notify i none)
        (({ s with threads := s.threads.map (Option.map (m.wakeIf (m.wakes c.op))) } :
          State σ ω τ).move i { c with point := .unlocking true })
  | notifyNone {i : ℕ} {c : Call ω τ} (hc : s.threads[i]? = some (some c))
      (hat : c.point = .notifying) (hall : m.wakesAll c.op = false)
      (hnone : s.threads.any (Option.any (m.waiting (m.wakes c.op))) = false) :
      Trans s (.notify i none) (s.move i { c with point := .unlocking true })
  | notifyOne {i j : ℕ} {c d : Call ω τ} (hc : s.threads[i]? = some (some c))
      (hat : c.point = .notifying) (hall : m.wakesAll c.op = false)
      (hd : s.threads[j]? = some (some d)) (hwaiting : m.waiting (m.wakes c.op) d = true) :
      Trans s (.notify i (some j))
        ((s.move j { d with point := .woken false }).move i { c with point := .unlocking true })
  | unlock {i : ℕ} {c : Call ω τ} {ok : Bool} (hc : s.threads[i]? = some (some c))
      (hat : c.point = .unlocking ok) :
      Trans s (.unlock i) { s with
        threads := s.threads.set i none, holder := none,
        returned := s.returned ++ [⟨c.op, c.slot, ok⟩] }
  | wake {i : ℕ} {c : Call ω τ} {timedOut : Bool} (hc : s.threads[i]? = some (some c))
      (hat : c.point = .blocked) :
      Trans s (.wake i timedOut) (s.move i { c with point := .woken timedOut })

/-- Every step is one of the listed steps. -/
theorem trans_of_step {s s' : State σ ω τ} {a : Action ω} (h : m.step s a = some s') :
    m.Trans s a s' := by
  unfold step at h
  split at h
  · exact Option.some.inj h ▸ .call ‹_›
  · rename_i hc
    split at h
    · rename_i hfree
      split at h
      · exact Option.some.inj h ▸ .acquire hc (Or.inl ⟨‹_›, rfl⟩) hfree
      · exact Option.some.inj h ▸ .acquire hc (Or.inr ‹_›) hfree
      · cases h
    · cases h
  · rename_i hc
    split at h
    · rename_i timedOut hat
      split at h
      · exact Option.some.inj h ▸ .testReady hc hat ‹_›
      · rename_i hready
        have hready := Bool.eq_false_iff.mpr hready
        split at h
        · rename_i htimed
          exact Option.some.inj h ▸ .testTimeout hc (by rw [hat, htimed]) hready
        · rename_i htimed
          exact Option.some.inj h ▸
            .testBlock hc (by rw [hat, Bool.eq_false_iff.mpr htimed]) hready
    · cases h
  · rename_i hc
    split at h
    · exact Option.some.inj h ▸ .act hc ‹_›
    · cases h
  · rename_i hc
    split at h
    · rename_i hat
      dsimp only at h
      split at h
      · rename_i hall
        split at h
        · exact Option.some.inj h ▸ .notifyAll hc hat hall
        · cases h
      · rename_i hall
        have hall := Bool.eq_false_iff.mpr hall
        split at h
        · split at h
          · cases h
          · rename_i hnone
            exact Option.some.inj h ▸ .notifyNone hc hat hall (Bool.eq_false_iff.mpr hnone)
        · split at h
          · rename_i hd
            split at h
            · exact Option.some.inj h ▸ .notifyOne hc hat hall hd ‹_›
            · cases h
          · cases h
    · cases h
  · rename_i hc
    split at h
    · exact Option.some.inj h ▸ .unlock hc ‹_›
    · cases h
  · rename_i hc
    split at h
    · exact Option.some.inj h ▸ .wake hc ‹_›
    · cases h
  · cases h

/-! ### What a step leaves alone -/

section Steps

variable {m} {s s' : State σ ω τ} {a : Action ω}

/-- The thread of a step exists. -/
theorem Trans.thread_lt (h : m.Trans s a s') : a.thread < s.threads.length := by
  cases h with
  | call hc | acquire hc | testReady hc | testTimeout hc | testBlock hc | act hc | notifyAll hc
    | notifyNone hc | notifyOne hc | unlock hc | wake hc =>
    exact (List.getElem?_eq_some_iff.mp hc).1

omit [DecidableEq χ] in
/-- What the thread that moves has afterwards. -/
theorem eq_of_getElem?_set {γ : Type*} {l : List (Option γ)} {i : ℕ} {x : Option γ} {c : γ}
    (hi : i < l.length) (hc : (l.set i x)[i]? = some (some c)) : x = some c :=
  Option.some.inj ((List.getElem?_set_self hi).symm.trans hc)

/-- A call that is blocked on the condition variable is blocked. -/
theorem point_of_waiting {v : χ} {c : Call ω τ} (h : m.waiting v c = true) :
    c.point = .blocked := by
  simp only [waiting, Bool.and_eq_true, decide_eq_true_eq] at h
  exact h.1

/-- A step of one thread leaves another one alone, unless it unblocks it. -/
theorem Trans.getElem?_of_ne (h : m.Trans s a s') {j : ℕ} (hj : j ≠ a.thread) :
    s'.threads[j]? = s.threads[j]? ∨
      ∃ d, s.threads[j]? = some (some d) ∧ d.point = .blocked ∧
        s'.threads[j]? = some (some { d with point := .woken false }) := by
  cases h with
  | @notifyAll i c hc hat hall =>
    have hset : ((s.threads.map (Option.map (m.wakeIf (m.wakes c.op)))).set i
        (some { c with point := .unlocking true }))[j]? =
          s.threads[j]?.map (Option.map (m.wakeIf (m.wakes c.op))) := by
      have hji : j ≠ i := hj
      rw [List.getElem?_set_ne hji.symm, List.getElem?_map]
    rcases hold : s.threads[j]? with _ | _ | d
    · exact Or.inl (hset.trans (by rw [hold]; rfl))
    · exact Or.inl (hset.trans (by rw [hold]; rfl))
    · cases hwaiting : m.waiting (m.wakes c.op) d with
      | false => exact Or.inl (hset.trans (by rw [hold]; simp [wakeIf, hwaiting]))
      | true =>
        exact Or.inr ⟨d, rfl, point_of_waiting hwaiting,
          hset.trans (by rw [hold]; simp [wakeIf, hwaiting])⟩
  | @notifyOne i k c d hc hat hall hd hwaiting =>
    have hset : ((s.threads.set k (some { d with point := .woken false })).set i
        (some { c with point := .unlocking true }))[j]? =
          (s.threads.set k (some { d with point := .woken false }))[j]? :=
      List.getElem?_set_ne (Ne.symm hj)
    by_cases hjk : j = k
    · subst hjk
      exact Or.inr ⟨d, hd, point_of_waiting hwaiting,
        hset.trans (List.getElem?_set_self (List.getElem?_eq_some_iff.mp hd).1)⟩
    · exact Or.inl (hset.trans (List.getElem?_set_ne (Ne.symm hjk)))
  | _ => exact Or.inl (List.getElem?_set_ne (Ne.symm hj))

/-- The calls of the other threads after a step. -/
theorem Trans.call_of_ne (h : m.Trans s a s') {j : ℕ} (hj : j ≠ a.thread) {c : Call ω τ}
    (hc : s'.threads[j]? = some (some c)) :
    s.threads[j]? = some (some c) ∨
      ∃ d, s.threads[j]? = some (some d) ∧ d.point = .blocked ∧
        c = { d with point := .woken false } := by
  rcases h.getElem?_of_ne hj with hsame | ⟨d, hd, hblocked, hwoken⟩
  · exact Or.inl (hsame.symm.trans hc)
  · exact Or.inr ⟨d, hd, hblocked, Option.some.inj (Option.some.inj (hc.symm.trans hwoken))⟩

/-- A notification unblocks others and leaves its own thread about to release the mutex. -/
theorem Trans.of_notify (h : m.Trans s a s') {i : ℕ} {target : Option ℕ}
    (ha : a = .notify i target) :
    ∃ c, s.threads[i]? = some (some c) ∧ c.point = .notifying ∧
      s'.threads[i]? = some (some { c with point := .unlocking true }) ∧
        s'.log = s.log ∧ s'.returned = s.returned := by
  have hlt := h.thread_lt
  subst ha
  cases h with
  | @notifyAll _ c hc hat =>
    exact ⟨c, hc, hat, List.getElem?_set_self (by simpa [Action.thread] using hlt), rfl, rfl⟩
  | @notifyNone _ c hc hat => exact ⟨c, hc, hat, List.getElem?_set_self hlt, rfl, rfl⟩
  | @notifyOne _ _ c _ hc hat =>
    exact ⟨c, hc, hat, List.getElem?_set_self (by simpa [Action.thread, State.move] using hlt),
      rfl, rfl⟩

/-- The call of the thread of a step: it has just begun, or it is the call that was there, and then
the body has not run by a step that leaves it not having run, and only a test gives up. -/
theorem Trans.call_self (h : m.Trans s a s') {c' : Call ω τ}
    (hc' : s'.threads[a.thread]? = some (some c')) :
    (a = .call a.thread c'.op ∧ c'.point = .locking) ∨
      ∃ c, s.threads[a.thread]? = some (some c) ∧ c'.op = c.op ∧
        (c'.point.acted = false → c.point.acted = false ∧ ∀ i, a ≠ .act i) ∧
        (c'.point = .unlocking false → a = .test a.thread ∧ m.ready c.op s.shared = false) := by
  have hlt := h.thread_lt
  have hstep := h
  cases h with
  | call hout =>
    cases eq_of_getElem?_set hlt hc'
    exact Or.inl ⟨rfl, rfl⟩
  | acquire hc hat hfree =>
    cases eq_of_getElem?_set hlt hc'
    refine Or.inr ⟨_, hc, rfl, fun _ => ⟨?_, by simp⟩, by simp⟩
    rcases hat with ⟨hat, -⟩ | hat <;> rw [hat] <;> rfl
  | testTimeout hc hat hready =>
    cases eq_of_getElem?_set hlt hc'
    exact Or.inr ⟨_, hc, rfl, fun _ => ⟨by rw [hat]; rfl, by simp⟩, fun _ => ⟨rfl, hready⟩⟩
  | testReady hc hat | testBlock hc hat | wake hc hat =>
    cases eq_of_getElem?_set hlt hc'
    exact Or.inr ⟨_, hc, rfl, fun _ => ⟨by rw [hat]; rfl, by simp⟩, by simp⟩
  | act hc hat =>
    cases eq_of_getElem?_set hlt hc'
    exact Or.inr ⟨_, hc, rfl, by simp [Point.acted], by simp⟩
  | notifyAll | notifyNone | notifyOne =>
    obtain ⟨c, hc, -, hdone, -⟩ := hstep.of_notify rfl
    cases Option.some.inj (hdone.symm.trans hc')
    exact Or.inr ⟨c, hc, rfl, by simp [Point.acted], by simp⟩
  | unlock hc hat => cases eq_of_getElem?_set hlt hc'

/-- Only the body of an operation changes the shared state. -/
theorem Trans.shared_eq (h : m.Trans s a s') (hact : ∀ i, a ≠ .act i) : s'.shared = s.shared := by
  cases h with
  | act => exact absurd rfl (hact _)
  | _ => rfl

end Steps

/-! ### The atomic machine -/

/-- A sequence of calls, each of them one step: a call runs its body when its predicate holds, or it
gives up when its predicate does not hold, changes nothing and leaves the slot with its caller. -/
inductive Sequential (s₀ : σ) : List (Entry ω τ) → σ → Prop
  | nil : Sequential s₀ [] s₀
  | acts {log : List (Entry ω τ)} {shared : σ} {op : ω} (h : Sequential s₀ log shared)
      (hready : m.ready op shared = true) :
      Sequential s₀ (log ++ [⟨op, (m.body op shared).2, true⟩]) (m.body op shared).1
  | givesUp {log : List (Entry ω τ)} {shared : σ} {op : ω} (h : Sequential s₀ log shared)
      (hready : m.ready op shared = false) :
      Sequential s₀ (log ++ [⟨op, m.slot op, false⟩]) shared

/-- A sequence of steps of a relation on states `β` with labels `ε`. -/
inductive Steps {β ε : Type*} (r : β → ε → β → Prop) (b₀ : β) : List ε → β → Prop
  | nil : Steps r b₀ [] b₀
  | snoc {es : List ε} {e : ε} {b b' : β} (h : Steps r b₀ es b) (hstep : r b e b') :
      Steps r b₀ (es ++ [e]) b'

/-- The entry of a thread whose result is fixed. -/
def State.entryAt (s : State σ ω τ) (i : ℕ) : List (Entry ω τ) :=
  match s.threads[i]? with
  | some (some c) => c.entry
  | _ => []

/-- The entry of the call that has not returned yet though its result is fixed: it still has the
mutex. -/
def State.pending (s : State σ ω τ) : List (Entry ω τ) :=
  match s.holder with
  | some i => s.entryAt i
  | none => []

/-- What holds in every state of a monitor that starts with the shared state `s₀`. -/
structure Inv (s₀ : σ) (s : State σ ω τ) : Prop where
  holds : ∀ (i : ℕ) (c : Call ω τ), s.threads[i]? = some (some c) → c.point.holds = true →
    s.holder = some i
  ready : ∀ (i : ℕ) (c : Call ω τ), s.threads[i]? = some (some c) → c.point = .acting →
    m.ready c.op s.shared = true
  slot : ∀ (i : ℕ) (c : Call ω τ), s.threads[i]? = some (some c) → c.point.acted = false →
    c.slot = m.slot c.op
  entries : s.log = s.returned ++ s.pending
  sequential : m.Sequential s₀ s.log s.shared

section Invariant

variable {m} {s₀ : σ} {s s' : State σ ω τ} {a : Action ω}

/-- A thread that holds the mutex keeps it during the steps of the others. -/
theorem Inv.holder_of_ne (h : m.Inv s₀ s) (ht : m.Trans s a s') {j : ℕ} (hj : j ≠ a.thread)
    (hholder : s.holder = some j) : s'.holder = some j := by
  have hother : ∀ (i : ℕ) (c : Call ω τ), i = a.thread → s.threads[i]? = some (some c) →
      c.point.holds = true → False := by
    intro i c hi hc hholds
    have := h.holds i c hc hholds
    rw [hholder] at this
    exact hj ((Option.some.inj this).trans hi)
  cases ht with
  | acquire hc hat hfree =>
    rw [hfree] at hholder
    cases hholder
  | testBlock hc hat hready => exact (hother _ _ rfl hc (by rw [hat]; rfl)).elim
  | unlock hc hat => exact (hother _ _ rfl hc (by rw [hat]; rfl)).elim
  | _ => exact hholder

/-- A thread that holds the mutex does so after the step. -/
theorem Inv.holds_step (h : m.Inv s₀ s) (ht : m.Trans s a s') {j : ℕ} {c : Call ω τ}
    (hc : s'.threads[j]? = some (some c)) (hholds : c.point.holds = true) :
    s'.holder = some j := by
  by_cases hj : j = a.thread
  · subst hj
    have hlt := ht.thread_lt
    cases ht with
    | acquire => rfl
    | call hc' | testBlock hc' hat | wake hc' hat =>
      cases eq_of_getElem?_set hlt hc
      cases hholds
    | unlock hc' hat => cases eq_of_getElem?_set hlt hc
    | testReady hc' hat | testTimeout hc' hat | act hc' hat | notifyAll hc' hat
      | notifyNone hc' hat | notifyOne hc' hat => exact h.holds _ _ hc' (by rw [hat]; rfl)
  · refine h.holder_of_ne ht hj ?_
    rcases ht.call_of_ne hj hc with hold | ⟨d, hd, hblocked, rfl⟩
    · exact h.holds j c hold hholds
    · cases hholds

/-- The predicate is true when the body runs: nobody else can have changed the shared state since
the test. -/
theorem Inv.ready_step (h : m.Inv s₀ s) (ht : m.Trans s a s') {j : ℕ} {c : Call ω τ}
    (hc : s'.threads[j]? = some (some c)) (hat : c.point = .acting) :
    m.ready c.op s'.shared = true := by
  by_cases hj : j = a.thread
  · subst hj
    have hlt := ht.thread_lt
    have hstep := ht
    cases ht with
    | testReady hc' hat' hready =>
      cases eq_of_getElem?_set hlt hc
      exact hready
    | unlock hc' hat' => cases eq_of_getElem?_set hlt hc
    | notifyAll | notifyNone | notifyOne =>
      obtain ⟨c', -, -, hdone, -⟩ := hstep.of_notify rfl
      cases Option.some.inj (hdone.symm.trans hc)
      cases hat
    | _ =>
      cases eq_of_getElem?_set hlt hc
      cases hat
  · rcases ht.call_of_ne hj hc with hold | ⟨d, hd, hblocked, rfl⟩
    · have hmine : s.holder = some j := h.holds j c hold (by rw [hat]; rfl)
      rw [ht.shared_eq]
      · exact h.ready j c hold hat
      · -- a thread that acts has the mutex itself
        rintro i rfl
        cases ht with
        | act hc' hat' =>
          have hother := h.holds _ _ hc' (by rw [hat']; rfl)
          rw [hmine] at hother
          exact hj (Option.some.inj hother)
    · cases hat

/-- The slot belongs to the caller until the body has run. -/
theorem Inv.slot_step (h : m.Inv s₀ s) (ht : m.Trans s a s') {j : ℕ} {c : Call ω τ}
    (hc : s'.threads[j]? = some (some c)) (hacted : c.point.acted = false) :
    c.slot = m.slot c.op := by
  by_cases hj : j = a.thread
  · subst hj
    have hlt := ht.thread_lt
    have hstep := ht
    cases ht with
    | call hc' =>
      cases eq_of_getElem?_set hlt hc
      rfl
    | acquire hc' hat =>
      cases eq_of_getElem?_set hlt hc
      have hslot := h.slot _ _ hc' (by rcases hat with ⟨hat, -⟩ | hat <;> rw [hat] <;> rfl)
      exact hslot
    | testReady hc' hat | testTimeout hc' hat | testBlock hc' hat | wake hc' hat =>
      cases eq_of_getElem?_set hlt hc
      have hslot := h.slot _ _ hc' (by rw [hat]; rfl)
      exact hslot
    | act hc' hat =>
      cases eq_of_getElem?_set hlt hc
      cases hacted
    | notifyAll | notifyNone | notifyOne =>
      obtain ⟨c', -, -, hdone, -⟩ := hstep.of_notify rfl
      cases Option.some.inj (hdone.symm.trans hc)
      cases hacted
    | unlock hc' hat => cases eq_of_getElem?_set hlt hc
  · rcases ht.call_of_ne hj hc with hold | ⟨d, hd, hblocked, rfl⟩
    · exact h.slot j c hold hacted
    · exact h.slot j d hd (by rw [hblocked]; rfl)

omit [DecidableEq χ] in
/-- The entry of a thread in a call. -/
theorem State.entryAt_of_call {i : ℕ} {c : Call ω τ} (hc : s.threads[i]? = some (some c)) :
    s.entryAt i = c.entry := by
  simp only [State.entryAt, hc]

omit [DecidableEq χ] in
/-- The entry of the thread that moves. -/
theorem State.entryAt_move_self {i : ℕ} (hi : i < s.threads.length) (c : Call ω τ) :
    (s.move i c).entryAt i = c.entry :=
  State.entryAt_of_call (List.getElem?_set_self hi)

omit [DecidableEq χ] in
/-- The thread with the mutex is the one whose call is pending. -/
theorem State.pending_of_holder {i : ℕ} {c : Call ω τ} (hholder : s.holder = some i)
    (hc : s.threads[i]? = some (some c)) : s.pending = c.entry := by
  simp only [State.pending, hholder, State.entryAt_of_call hc]

omit [DecidableEq χ] in
/-- With the mutex free no call is pending. -/
theorem State.pending_of_free (hfree : s.holder = none) : s.pending = [] := by
  simp only [State.pending, hfree]

/-- A step of another thread does not change the entry of a thread. -/
theorem Trans.entryAt_of_ne (h : m.Trans s a s') {j : ℕ} (hj : j ≠ a.thread) :
    s'.entryAt j = s.entryAt j := by
  unfold State.entryAt
  rcases h.getElem?_of_ne hj with hsame | ⟨d, hd, hblocked, hwoken⟩
  · rw [hsame]
  · rw [hd, hwoken]
    simp only [Call.entry, hblocked]

/-- A step of a thread that neither had nor gets the mutex and keeps its owner leaves the pending
call alone. -/
theorem Trans.pending_eq (h : m.Trans s a s') (hholder : s'.holder = s.holder)
    (hentry : s.entryAt a.thread = []) (hentry' : s'.entryAt a.thread = []) :
    s'.pending = s.pending := by
  unfold State.pending
  rw [hholder]
  cases s.holder with
  | none => rfl
  | some i =>
    by_cases hi : i = a.thread
    · subst hi
      exact hentry'.trans hentry.symm
    · exact h.entryAt_of_ne hi

/-- A step of the thread with the mutex that keeps the mutex: what it adds to the calls whose result
is fixed is what becomes of its own call. -/
theorem Inv.entries_of_holds (h : m.Inv s₀ s) (ht : m.Trans s a s') {c c' : Call ω τ}
    {new : List (Entry ω τ)} (hc : s.threads[a.thread]? = some (some c))
    (hholds : c.point.holds = true) (hc' : s'.threads[a.thread]? = some (some c'))
    (hholds' : c'.point.holds = true) (hreturned : s'.returned = s.returned)
    (hlog : s'.log = s.log ++ new) (hentry : c'.entry = c.entry ++ new) :
    s'.log = s'.returned ++ s'.pending := by
  have hpending := State.pending_of_holder (h.holds _ _ hc hholds) hc
  have hpending' := State.pending_of_holder (h.holds_step ht hc' hholds') hc'
  rw [hlog, h.entries, hpending, hpending', hreturned, hentry, List.append_assoc]

/-- The calls whose result is fixed are those that have returned and the pending one. -/
theorem Inv.entries_step (h : m.Inv s₀ s) (ht : m.Trans s a s') :
    s'.log = s'.returned ++ s'.pending := by
  have hlt := ht.thread_lt
  have hstep := ht
  have hsame := ht.pending_eq
  have hentries := h.entries
  cases ht with
  | call hout =>
    rw [hsame rfl]
    · exact hentries
    · simp only [State.entryAt, Action.thread, hout]
    · exact State.entryAt_move_self hlt _
  | wake hc hat =>
    rw [hsame rfl]
    · exact hentries
    · refine (State.entryAt_of_call hc).trans ?_
      rw [Call.entry, hat]
    · exact State.entryAt_move_self hlt _
  | acquire hc hat hfree =>
    rw [State.pending_of_free hfree] at hentries
    rw [State.pending_of_holder rfl (List.getElem?_set_self hlt)]
    exact hentries
  | testReady hc hat hready =>
    exact h.entries_of_holds hstep hc (by rw [hat]; rfl) (List.getElem?_set_self hlt) rfl rfl
      (List.append_nil _).symm (by simp [Call.entry, hat])
  | testTimeout hc hat hready =>
    exact h.entries_of_holds hstep hc (by rw [hat]; rfl) (List.getElem?_set_self hlt) rfl rfl rfl
      (by simp [Call.entry, hat])
  | testBlock hc hat hready =>
    rw [State.pending_of_holder (h.holds _ _ hc (by rw [hat]; rfl)) hc, Call.entry, hat] at hentries
    rw [State.pending_of_free rfl]
    exact hentries
  | act hc hat =>
    exact h.entries_of_holds hstep hc (by rw [hat]; rfl) (List.getElem?_set_self hlt) rfl rfl rfl
      (by simp [Call.entry, hat])
  | notifyAll | notifyNone | notifyOne =>
    obtain ⟨c, hc, hat, hdone, hlog, hreturned⟩ := hstep.of_notify rfl
    exact h.entries_of_holds hstep hc (by rw [hat]; rfl) hdone rfl hreturned
      (hlog.trans (List.append_nil _).symm) (by simp [Call.entry, hat])
  | unlock hc hat =>
    rw [State.pending_of_holder (h.holds _ _ hc (by rw [hat]; rfl)) hc, Call.entry, hat] at hentries
    rw [State.pending_of_free rfl, List.append_nil]
    exact hentries

/-- The steps that fix a result are the steps of the atomic machine. -/
theorem Inv.sequential_step (h : m.Inv s₀ s) (ht : m.Trans s a s') :
    m.Sequential s₀ s'.log s'.shared := by
  cases ht with
  | testTimeout hc hat hready =>
    have hslot := h.slot _ _ hc (by rw [hat]; rfl)
    rw [hslot]
    exact h.sequential.givesUp hready
  | act hc hat => exact h.sequential.acts (h.ready _ _ hc hat)
  | _ => exact h.sequential

/-- Every step keeps the invariant. -/
theorem Inv.step (h : m.Inv s₀ s) (ht : m.Trans s a s') : m.Inv s₀ s' where
  holds _ _ hc hholds := h.holds_step ht hc hholds
  ready _ _ hc hat := h.ready_step ht hc hat
  slot _ _ hc hacted := h.slot_step ht hc hacted
  entries := h.entries_step ht
  sequential := h.sequential_step ht

omit [DecidableEq χ] in
/-- The invariant holds at the start. -/
theorem inv_init (s₀ : σ) (n : ℕ) : m.Inv s₀ (init s₀ n) := by
  have hnone : ∀ (i : ℕ) (c : Call ω τ),
      (init (ω := ω) (τ := τ) s₀ n).threads[i]? ≠ some (some c) := by
    intro i c hc
    have hmem : some c ∈ List.replicate n (none : Option (Call ω τ)) := List.mem_of_getElem? hc
    cases (List.mem_replicate.mp hmem).2
  exact ⟨fun i c hc => absurd hc (hnone i c), fun i c hc => absurd hc (hnone i c),
    fun i c hc => absurd hc (hnone i c), rfl, .nil⟩

/-- The invariant holds in every state reached. -/
theorem inv_run {n : ℕ} {as : List (Action ω)} (hrun : m.step.run (init s₀ n) as = some s) :
    m.Inv s₀ s :=
  Machine.run_invariant (inv_init s₀ n) (fun _ _ _ h hstep => h.step (trans_of_step m hstep)) hrun

/-- Every run of the monitor is a run of the atomic machine: the calls in the order of their last
tests are a sequential execution that ends in the shared state, they return in this order, and all
of them have returned when the mutex is free. -/
theorem run_atomic {n : ℕ} {as : List (Action ω)} (hrun : m.step.run (init s₀ n) as = some s) :
    m.Sequential s₀ s.log s.shared ∧ s.returned <+: s.log ∧
      (s.holder = none → s.returned = s.log) := by
  have h := inv_run hrun
  refine ⟨h.sequential, ⟨s.pending, h.entries.symm⟩, fun hfree => ?_⟩
  rw [h.entries, State.pending_of_free hfree, List.append_nil]

/-! ### Calls that give up -/

/-- A call in progress whose body has not run was made by its thread, and nothing the thread did
since is the body. -/
theorem called_run {n : ℕ} {as : List (Action ω)} (hrun : m.step.run (init s₀ n) as = some s)
    {i : ℕ} {c : Call ω τ} (hc : s.threads[i]? = some (some c)) (hacted : c.point.acted = false) :
    ∃ pre mid, as = pre ++ .call i c.op :: mid ∧ .act i ∉ mid := by
  refine Machine.run_induction (m := m.step) (P := fun as s => ∀ (i : ℕ) (c : Call ω τ),
    s.threads[i]? = some (some c) → c.point.acted = false →
      ∃ pre mid, as = pre ++ .call i c.op :: mid ∧ .act i ∉ mid) ?_ ?_ hrun i c hc hacted
  · intro i c hc
    have hmem : some c ∈ List.replicate n (none : Option (Call ω τ)) := List.mem_of_getElem? hc
    cases (List.mem_replicate.mp hmem).2
  · intro as s a s' _ ih hstep i c' hc' hacted'
    have ht := trans_of_step m hstep
    have hextend : ∀ op, (∃ pre mid, as = pre ++ .call i op :: mid ∧ .act i ∉ mid) → a ≠ .act i →
        ∃ pre mid, as ++ [a] = pre ++ .call i op :: mid ∧ .act i ∉ mid := by
      rintro op ⟨pre, mid, rfl, hmid⟩ hne
      refine ⟨pre, mid ++ [a], by simp, ?_⟩
      simpa [hmid] using hne.symm
    by_cases hi : i = a.thread
    · subst hi
      rcases ht.call_self hc' with ⟨hcall, -⟩ | ⟨c, hc, hop, hkeep, -⟩
      · exact ⟨as, [], congrArg (fun b => as ++ [b]) hcall, by simp⟩
      · obtain ⟨hacted, hne⟩ := hkeep hacted'
        rw [hop]
        exact hextend _ (ih _ c hc hacted) (hne _)
    · have hne : a ≠ .act i := by
        rintro rfl
        exact hi rfl
      rcases ht.call_of_ne hi hc' with hold | ⟨d, hd, hblocked, rfl⟩
      · exact hextend _ (ih i c' hold hacted') hne
      · exact hextend _ (ih i d hd (by rw [hblocked]; rfl)) hne

/-- A run in which the thread `i` has called `op`, has not run its body since, and has found the
predicate false in its last test, which has changed nothing. -/
def GivesUp (s₀ : σ) (n : ℕ) (as : List (Action ω)) (i : ℕ) (op : ω) : Prop :=
  ∃ pre mid post s₁ s₂, as = (pre ++ .call i op :: mid) ++ .test i :: post ∧ .act i ∉ mid ∧
    (∀ a ∈ post, a.thread ≠ i) ∧ m.step.run (init s₀ n) (pre ++ .call i op :: mid) = some s₁ ∧
    m.step s₁ (.test i) = some s₂ ∧ m.ready op s₁.shared = false ∧
    s₂.shared = (s₁ : State σ ω τ).shared

/-- A call that is about to throw has given up, and its slot is what it was called with. -/
theorem givesUp_run {n : ℕ} {as : List (Action ω)} (hrun : m.step.run (init s₀ n) as = some s)
    {i : ℕ} {c : Call ω τ} (hc : s.threads[i]? = some (some c)) (hat : c.point = .unlocking false) :
    m.GivesUp s₀ n as i c.op ∧ c.slot = m.slot c.op := by
  refine ⟨?_, (inv_run hrun).slot i c hc (by rw [hat]; rfl)⟩
  refine Machine.run_induction (m := m.step) (P := fun as s => ∀ (i : ℕ) (c : Call ω τ),
    s.threads[i]? = some (some c) → c.point = .unlocking false → m.GivesUp s₀ n as i c.op)
    ?_ ?_ hrun i c hc hat
  · intro i c hc
    have hmem : some c ∈ List.replicate n (none : Option (Call ω τ)) := List.mem_of_getElem? hc
    cases (List.mem_replicate.mp hmem).2
  · intro as s a s' hrun ih hstep i c' hc' hat'
    have ht := trans_of_step m hstep
    by_cases hi : i = a.thread
    · subst hi
      rcases ht.call_self hc' with ⟨-, hlocking⟩ | ⟨c, hc, hop, hkeep, hgives⟩
      · rw [hat'] at hlocking
        cases hlocking
      · obtain ⟨htest, hready⟩ := hgives hat'
        obtain ⟨hacted, hne⟩ := hkeep (by rw [hat']; rfl)
        obtain ⟨pre, mid, hsplit, hmid⟩ := called_run hrun hc hacted
        rw [hop]
        refine ⟨pre, mid, [], s, s', ?_, hmid, by simp, hsplit ▸ hrun, htest ▸ hstep, hready,
          ht.shared_eq hne⟩
        rw [← hsplit, ← htest]
    · have hgone : m.GivesUp s₀ n as i c'.op := by
        rcases ht.call_of_ne hi hc' with hold | ⟨d, hd, hblocked, rfl⟩
        · exact ih i c' hold hat'
        · cases hat'
      obtain ⟨pre, mid, post, s₁, s₂, rfl, hmid, hpost, hrest⟩ := hgone
      refine ⟨pre, mid, post ++ [a], s₁, s₂, by simp, hmid, ?_, hrest⟩
      intro b hb
      rcases List.mem_append.mp hb with hb | hb
      · exact hpost b hb
      · rw [List.mem_singleton.mp hb]
        exact fun h => hi h.symm

/-! ### Sequential executions -/

omit [DecidableEq χ] in
/-- Refinement: if every body that runs under its predicate, and every call that gives up, is a step
of `r` on an abstraction of the shared state, then every sequence of calls is one of steps of
`r`. -/
theorem Sequential.steps {log : List (Entry ω τ)} {shared : σ} (h : m.Sequential s₀ log shared)
    {β : Type*} {abs : β → σ} {r : β → Entry ω τ → β → Prop} {b₀ : β} (hinit : abs b₀ = s₀)
    (hacts : ∀ op b, m.ready op (abs b) = true →
      ∃ b', abs b' = (m.body op (abs b)).1 ∧ r b ⟨op, (m.body op (abs b)).2, true⟩ b')
    (hgives : ∀ op b, m.ready op (abs b) = false → r b ⟨op, m.slot op, false⟩ b) :
    ∃ b, abs b = shared ∧ Steps r b₀ log b := by
  induction h with
  | nil => exact ⟨b₀, hinit, .nil⟩
  | acts _ hready ih =>
    obtain ⟨b, rfl, hsteps⟩ := ih
    obtain ⟨b', hshared, hstep⟩ := hacts _ b hready
    exact ⟨b', hshared, hsteps.snoc hstep⟩
  | givesUp _ hready ih =>
    obtain ⟨b, rfl, hsteps⟩ := ih
    exact ⟨b, rfl, hsteps.snoc (hgives _ b hready)⟩

variable (m) in
/-- What a call leaves of the shared state. -/
def after (shared : σ) (e : Entry ω τ) : σ :=
  if e.ok then (m.body e.op shared).1 else shared

omit [DecidableEq χ] in
/-- The calls determine the shared state. -/
theorem Sequential.foldl_after {log : List (Entry ω τ)} {shared : σ}
    (h : m.Sequential s₀ log shared) : log.foldl m.after s₀ = shared := by
  induction h with
  | nil => rfl
  | acts _ _ ih =>
    rw [List.foldl_append, ih]
    rfl
  | givesUp _ _ ih =>
    rw [List.foldl_append, ih]
    rfl

variable (m) in
/-- What `f` finds in the calls of a sequence, each in the shared state it is made in. -/
def collect {β : Type*} (f : σ → Entry ω τ → List β) (s₀ : σ) : List (Entry ω τ) → List β
  | [] => []
  | e :: log => f s₀ e ++ collect f (m.after s₀ e) log

omit [DecidableEq χ] in
theorem collect_append {β : Type*} (f : σ → Entry ω τ → List β) (log log' : List (Entry ω τ)) :
    m.collect f s₀ (log ++ log') =
      m.collect f s₀ log ++ m.collect f (log.foldl m.after s₀) log' := by
  induction log generalizing s₀ with
  | nil => rfl
  | cons e log ih => rw [List.cons_append, collect, collect, ih, List.append_assoc, List.foldl_cons]

omit [DecidableEq χ] in
/-- What the last call of a sequential execution adds. -/
theorem Sequential.collect_concat {β : Type*} {f : σ → Entry ω τ → List β}
    {log : List (Entry ω τ)} {shared : σ} (h : m.Sequential s₀ log shared) (e : Entry ω τ) :
    m.collect f s₀ (log ++ [e]) = m.collect f s₀ log ++ f shared e := by
  rw [collect_append, h.foldl_after, collect, collect, List.append_nil]

/-! ### Conditions on the bodies of a run -/

variable (m) in
/-- In the run every body runs in a shared state that satisfies `G`. -/
def EachAct (s₀ : σ) (n : ℕ) (G : σ → ω → Prop) (as : List (Action ω)) : Prop :=
  ∀ pre i post (s : State σ ω τ) c, as = pre ++ .act i :: post →
    m.step.run (init s₀ n) pre = some s → s.threads[i]? = some (some c) → G s.shared c.op

/-- The condition on a run with one more step. -/
theorem eachAct_concat_iff {n : ℕ} {G : σ → ω → Prop} {as : List (Action ω)}
    (hrun : m.step.run (init s₀ n) as = some s) :
    m.EachAct s₀ n G (as ++ [a]) ↔ m.EachAct s₀ n G as ∧
      ∀ i c, a = .act i → s.threads[i]? = some (some c) → G s.shared c.op := by
  constructor
  · intro h
    refine ⟨fun pre i post s₁ c hsplit => ?_, fun i c ha hc => ?_⟩
    · exact h pre i (post ++ [a]) s₁ c (by rw [hsplit]; simp)
    · exact h as i [] s c (by rw [ha]) hrun hc
  · rintro ⟨hbefore, hlast⟩ pre i post s₁ c hsplit hpre hc
    rcases Machine.concat_eq_append_cons hsplit with ⟨rfl, ha, -⟩ | ⟨post', -, hsplit'⟩
    · obtain rfl : s = s₁ := Option.some.inj (hrun.symm.trans hpre)
      exact hlast i c ha hc
    · exact hbefore pre i post' s₁ c hsplit' hpre hc

/-- If `f` finds nothing in a call exactly when `G` holds of its body, it finds nothing in the calls
of a run exactly when `G` holds of every body of the run. -/
theorem collect_eq_nil_iff {β : Type*} {f : σ → Entry ω τ → List β} {G : σ → ω → Prop}
    (hacts : ∀ shared op slot, f shared ⟨op, slot, true⟩ = [] ↔ G shared op)
    (hgives : ∀ shared op slot, f shared ⟨op, slot, false⟩ = []) {n : ℕ} {as : List (Action ω)}
    (hrun : m.step.run (init s₀ n) as = some s) :
    m.collect f s₀ s.log = [] ↔ m.EachAct s₀ n G as := by
  refine Machine.run_induction (m := m.step)
    (P := fun as s => m.collect f s₀ s.log = [] ↔ m.EachAct s₀ n G as) ?_ ?_ hrun
  · refine iff_of_true rfl fun pre i post s c hsplit => ?_
    simp at hsplit
  · intro as s a s' hrun ih hstep
    have hseq := (inv_run hrun).sequential
    have ht := trans_of_step m hstep
    rw [eachAct_concat_iff hrun, ← ih]
    cases ht with
    | @act i c hc hat =>
      change m.collect f s₀ (s.log ++ [_]) = [] ↔ _
      rw [hseq.collect_concat, List.append_eq_nil_iff, hacts]
      refine and_congr_right fun _ => ⟨fun hG j d hj hd => ?_, fun h => h i c rfl hc⟩
      obtain rfl : i = j := Action.act.inj hj
      rw [hc] at hd
      exact Option.some.inj (Option.some.inj hd) ▸ hG
    | testTimeout =>
      change m.collect f s₀ (s.log ++ [_]) = [] ↔ _
      rw [hseq.collect_concat, hgives, List.append_nil]
      simp
    | _ => simp [State.move]

end Invariant

end Monitor

end Ngp
