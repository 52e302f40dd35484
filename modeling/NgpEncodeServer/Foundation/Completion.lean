import NgpEncodeServer.Foundation.ListSum
import NgpEncodeServer.Foundation.Progress
import NgpEncodeServer.Foundation.Wakeup

/-!
# Calls of a monitor return

A wait with a timeout cannot last: a call that the timeout has unblocked acts or gives up at its
next test.  `State.work` is what the threads of a monitor still have to do.  A call brings in the
work of one call, a spurious wakeup lets a blocked thread test once more, a notification does so for
all the threads it unblocks, which the notifying thread pays for in advance, and every other step
takes work away.

`Completes` puts together what follows for every run: the steps that the calls themselves take are
bounded by the calls and the spurious wakeups, some such step is possible as long as a call is in
progress, and with no call in progress every call has returned, once.
-/

namespace Ngp

namespace Monitor

/-- What a call among `n` threads has to do from a point on. -/
def Point.work (n : ℕ) : Point → ℕ
  | .locking | .woken false => 2 * n + 8
  | .testing false => 2 * n + 7
  | .blocked => 2 * n + 6
  | .woken true => 2 * n + 5
  | .testing true => 2 * n + 4
  | .acting => 2 * n + 3
  | .notifying => 2 * n + 2
  | .unlocking _ => 1

/-- A step that the calls in progress take by themselves, the timeout of a wait included. -/
def Action.isOwn {ω : Type*} : Action ω → Bool
  | .call _ _ | .wake _ false => false
  | _ => true

/-- A step that begins a call. -/
def Action.isCall {ω : Type*} : Action ω → Bool
  | .call _ _ => true
  | _ => false

/-- A step that unblocks a thread for no reason. -/
def Action.isSpurious {ω : Type*} : Action ω → Bool
  | .wake _ false => true
  | _ => false

variable {σ ω τ χ : Type*} [DecidableEq χ] {m : Monitor σ ω τ χ} {s s' : State σ ω τ}
  {a : Action ω}

/-- What a thread has to do. -/
def callWork (n : ℕ) : Option (Call ω τ) → ℕ
  | none => 0
  | some c => c.point.work n

/-- What all threads have to do. -/
def State.work (s : State σ ω τ) : ℕ := (s.threads.map (callWork s.threads.length)).sum

/-- The number of calls in progress. -/
def State.calls (s : State σ ω τ) : ℕ := s.count fun _ => true

/-- The work that a step from outside brings in. -/
def Action.cost (n : ℕ) (a : Action ω) : ℕ := (2 * n + 8) * a.isCall.toNat + 2 * a.isSpurious.toNat

/-! ### The measure -/

/-- No step begins or ends a thread. -/
theorem Trans.length_eq (h : m.Trans s a s') : s'.threads.length = s.threads.length := by
  cases h with
  | notifyAll => simp [State.move]
  | notifyOne => simp [State.move]
  | _ => exact List.length_set

omit [DecidableEq χ] in
/-- What replacing the entry of one thread does to the work. -/
theorem work_set {i : ℕ} {x y : Option (Call ω τ)} (hx : s.threads[i]? = some x)
    (hs : s'.threads = s.threads.set i y) :
    s'.work + callWork s.threads.length x = s.work + callWork s.threads.length y := by
  have hlen : s'.threads.length = s.threads.length := by rw [hs, List.length_set]
  unfold State.work
  rw [hlen, hs]
  exact sum_map_set_add _ hx

/-- A notification gives back one test to each thread that it unblocks. -/
theorem sum_wakeIf_le (m : Monitor σ ω τ χ) (v : χ) (n : ℕ) (l : List (Option (Call ω τ))) :
    ((l.map (Option.map (m.wakeIf v))).map (callWork n)).sum ≤
      (l.map (callWork n)).sum + 2 * l.length := by
  induction l with
  | nil => exact Nat.le_refl _
  | cons x l ih =>
    have hone : callWork n (x.map (m.wakeIf v)) ≤ callWork n x + 2 := by
      cases x with
      | none => exact Nat.zero_le _
      | some c =>
        change (m.wakeIf v c).point.work n ≤ c.point.work n + 2
        unfold wakeIf
        split
        · rename_i hwaiting
          rw [point_of_waiting hwaiting]
          exact Nat.le_refl _
        · exact Nat.le_add_right _ _
    simp only [List.map_cons, List.sum_cons, List.length_cons]
    omega

omit [DecidableEq χ] in
/-- What one thread's going on with its call does to the work. -/
theorem work_move {i : ℕ} {c : Call ω τ} (hc : s.threads[i]? = some (some c)) (d : Call ω τ) :
    (s.move i d).work + c.point.work s.threads.length =
      s.work + d.point.work s.threads.length :=
  work_set (y := some d) hc rfl

omit [DecidableEq χ] in
/-- A thread that goes on to a point with less to do takes work away. -/
theorem work_lt_of_move {i : ℕ} {c d : Call ω τ} (hc : s.threads[i]? = some (some c))
    (hs : s'.threads = s.threads.set i (some d))
    (hlt : d.point.work s.threads.length < c.point.work s.threads.length) : s'.work < s.work := by
  have hset : s'.work + c.point.work s.threads.length = s.work + d.point.work s.threads.length :=
    work_set hc hs
  omega

omit [DecidableEq χ] in
/-- A thread that leaves the monitor takes work away. -/
theorem work_lt_of_end {i : ℕ} {c : Call ω τ} (hc : s.threads[i]? = some (some c))
    (hs : s'.threads = s.threads.set i none) (hpos : 0 < c.point.work s.threads.length) :
    s'.work < s.work := by
  have hset : s'.work + c.point.work s.threads.length = s.work + 0 := work_set hc hs
  omega

/-- A thread that notifies pays for every thread that it unblocks. -/
theorem Trans.work_notify_lt {i : ℕ} {target : Option ℕ} (h : m.Trans s (.notify i target) s') :
    s'.work < s.work := by
  cases h with
  | @notifyAll _ c hc hat hall =>
    let woken : State σ ω τ :=
      { s with threads := s.threads.map (Option.map (m.wakeIf (m.wakes c.op))) }
    have hlen : woken.threads.length = s.threads.length := List.length_map _
    have hsame : woken.threads[i]? = some (some c) := by
      change (s.threads.map _)[i]? = _
      rw [List.getElem?_map, hc]
      simp [wakeIf, waiting, hat]
    have hwoken : woken.work ≤ s.work + 2 * s.threads.length := by
      unfold State.work
      rw [hlen]
      exact sum_wakeIf_le m _ _ _
    have hmove := work_move hsame { c with point := .unlocking true }
    rw [hat, hlen] at hmove
    simp only [Point.work] at hmove
    change (woken.move i { c with point := .unlocking true }).work < _
    omega
  | notifyNone hc hat =>
    apply work_lt_of_move hc rfl
    rw [hat]
    simp only [Point.work]
    omega
  | @notifyOne _ j c d hc hat hall hd hwaiting =>
    have hblocked := point_of_waiting hwaiting
    have hpos : 0 < s.threads.length := Nat.zero_lt_of_lt (List.getElem?_eq_some_iff.mp hc).1
    have hne : j ≠ i := by
      rintro rfl
      rw [hc] at hd
      obtain rfl := Option.some.inj (Option.some.inj hd)
      rw [hat] at hblocked
      cases hblocked
    have hother : (s.move j { d with point := .woken false }).threads[i]? = some (some c) :=
      (List.getElem?_set_ne hne).trans hc
    have hwake := work_move hd { d with point := .woken false }
    have hmove := work_move hother { c with point := .unlocking true }
    rw [hblocked] at hwake
    rw [hat] at hmove
    simp only [State.move, List.length_set] at hwake hmove ⊢
    simp only [Point.work] at hwake hmove
    omega

/-- Every step that the calls take by themselves takes work away. -/
theorem Trans.work_lt (h : m.Trans s a s') (hown : a.isOwn = true) : s'.work < s.work := by
  have hstep := h
  cases h with
  | call => cases hown
  | notifyAll | notifyNone | notifyOne => exact hstep.work_notify_lt
  | unlock hc hat =>
    apply work_lt_of_end hc rfl
    rw [hat]
    exact Nat.one_pos
  | @wake i c timedOut hc hat =>
    apply work_lt_of_move hc rfl
    cases timedOut with
    | false => cases hown
    | true =>
      rw [hat]
      simp only [Point.work]
      omega
  | @acquire i c timedOut hc hat hfree =>
    apply work_lt_of_move hc rfl
    rcases hat with ⟨hat, rfl⟩ | hat
    · simp only [hat, Point.work]
      omega
    · cases timedOut <;> simp only [hat, Point.work] <;> omega
  | @testReady i c timedOut hc hat hready =>
    apply work_lt_of_move hc rfl
    cases timedOut <;> simp only [hat, Point.work] <;> omega
  | testTimeout hc hat | testBlock hc hat | act hc hat =>
    apply work_lt_of_move hc rfl
    simp only [hat, Point.work]
    omega

/-- A step from outside brings in no more work than its cost. -/
theorem Trans.work_le (h : m.Trans s a s') :
    s'.work + a.isOwn.toNat ≤ s.work + a.cost s.threads.length := by
  cases hown : a.isOwn with
  | true => exact Nat.le_trans (h.work_lt hown) (Nat.le_add_right _ _)
  | false =>
    cases h with
    | @call i op hout =>
      have hset : (s.move i ⟨op, m.slot op, .locking⟩).work + 0 =
          s.work + (2 * s.threads.length + 8) :=
        work_set (y := some ⟨op, m.slot op, .locking⟩) hout rfl
      simp only [Action.cost, Action.isCall, Action.isSpurious, Bool.toNat_true, Bool.toNat_false]
      omega
    | @wake i c timedOut hc hat =>
      cases timedOut with
      | true => cases hown
      | false =>
        have hmove := work_move hc { c with point := .woken false }
        simp only [hat, Point.work] at hmove
        simp only [Action.cost, Action.isCall, Action.isSpurious, Bool.toNat_true,
          Bool.toNat_false]
        omega
    | _ => cases hown

/-! ### Progress -/

/-- The mutex is held by a thread that is inside the monitor. -/
def Held (s : State σ ω τ) : Prop :=
  ∀ i, s.holder = some i → ∃ c, s.threads[i]? = some (some c) ∧ c.point.holds = true

/-- Only the thread of a step can lose the mutex by it. -/
theorem Held.step (h : Held s) (ht : m.Trans s a s') : Held s' := by
  intro i hholder
  have hlt := ht.thread_lt
  by_cases hi : i = a.thread
  · subst hi
    have hstep := ht
    cases ht with
    | acquire => exact ⟨_, List.getElem?_set_self hlt, rfl⟩
    | testReady | testTimeout | act => exact ⟨_, List.getElem?_set_self hlt, rfl⟩
    | notifyAll | notifyNone | notifyOne =>
      obtain ⟨c, -, -, hdone, -⟩ := hstep.of_notify rfl
      exact ⟨_, hdone, rfl⟩
    | testBlock | unlock => cases hholder
    | call hc =>
      obtain ⟨c, hc', -⟩ := h _ hholder
      cases hc.symm.trans hc'
    | wake hc hat =>
      obtain ⟨c, hc', hholds⟩ := h _ hholder
      obtain rfl := Option.some.inj (Option.some.inj (hc.symm.trans hc'))
      rw [hat] at hholds
      cases hholds
  · have hold : s.holder = some i := by
      cases ht with
      | acquire => exact absurd (Option.some.inj hholder).symm hi
      | testBlock | unlock => cases hholder
      | _ => exact hholder
    obtain ⟨c, hc, hholds⟩ := h i hold
    rcases ht.getElem?_of_ne hi with hsame | ⟨d, hd, hblocked, -⟩
    · exact ⟨c, hsame.trans hc, hholds⟩
    · obtain rfl := Option.some.inj (Option.some.inj (hc.symm.trans hd))
      rw [hblocked] at hholds
      cases hholds

/-- The mutex is held by a thread that is inside the monitor, in every state reached. -/
theorem held_run {s₀ : σ} {n : ℕ} {as : List (Action ω)}
    (hrun : m.step.run (init s₀ n) as = some s) : Held s := by
  refine Machine.run_induction (m := m.step) (P := fun _ s => Held s) ?_ ?_ hrun
  · intro i hholder
    cases hholder
  · intro as s a s' _ ih hstep
    exact ih.step (trans_of_step m hstep)

/-- The thread with the mutex can go on. -/
theorem exists_step_of_holds {i : ℕ} {c : Call ω τ} (hc : s.threads[i]? = some (some c))
    (hholds : c.point.holds = true) : ∃ a s', a.isOwn = true ∧ m.step s a = some s' := by
  cases hat : c.point with
  | locking | blocked | woken =>
    rw [hat] at hholds
    cases hholds
  | testing timedOut =>
    refine ⟨.test i, ?_⟩
    simp only [step, Action.thread, hc, hat]
    split
    · exact ⟨_, rfl, rfl⟩
    · split
      · exact ⟨_, rfl, rfl⟩
      · exact ⟨_, rfl, rfl⟩
  | acting =>
    refine ⟨.act i, ?_⟩
    simp only [step, Action.thread, hc, hat]
    exact ⟨_, rfl, rfl⟩
  | unlocking ok =>
    refine ⟨.unlock i, ?_⟩
    simp only [step, Action.thread, hc, hat]
    exact ⟨_, rfl, rfl⟩
  | notifying =>
    by_cases hall : m.wakesAll c.op = true
    · refine ⟨.notify i none, ?_⟩
      simp only [step, Action.thread, hc, hat, hall]
      exact ⟨_, rfl, rfl⟩
    · by_cases hnone : s.threads.any (Option.any (m.waiting (m.wakes c.op))) = true
      · -- any one of the waiting threads can be the one that is unblocked
        obtain ⟨x, hx, hwaiting⟩ := List.any_eq_true.mp hnone
        obtain ⟨j, hj⟩ := List.mem_iff_getElem?.mp hx
        cases x with
        | none => cases hwaiting
        | some d =>
          have hd : m.waiting (m.wakes c.op) d = true := hwaiting
          refine ⟨.notify i (some j), ?_⟩
          simp only [step, Action.thread, hc, hat, if_neg hall, hj, hd]
          exact ⟨_, rfl, rfl⟩
      · refine ⟨.notify i none, ?_⟩
        simp only [step, Action.thread, hc, hat, if_neg hall, if_neg hnone]
        exact ⟨_, rfl, rfl⟩

/-- With the mutex free every call can go on, a blocked one by its timeout. -/
theorem exists_step_of_free {i : ℕ} {c : Call ω τ} (hc : s.threads[i]? = some (some c))
    (hfree : s.holder = none) (hholds : c.point.holds = false) :
    ∃ a s', a.isOwn = true ∧ m.step s a = some s' := by
  cases hat : c.point with
  | testing | acting | notifying | unlocking =>
    rw [hat] at hholds
    cases hholds
  | blocked =>
    refine ⟨.wake i true, ?_⟩
    simp only [step, Action.thread, hc, hat]
    exact ⟨_, rfl, rfl⟩
  | locking | woken =>
    refine ⟨.acquire i, ?_⟩
    simp only [step, Action.thread, hc, hat, if_pos hfree]
    exact ⟨_, rfl, rfl⟩

/-- As long as a call is in progress, some call can go on. -/
theorem Inv.exists_step {s₀ : σ} (h : m.Inv s₀ s) (hheld : Held s) {i : ℕ} {c : Call ω τ}
    (hc : s.threads[i]? = some (some c)) : ∃ a s', a.isOwn = true ∧ m.step s a = some s' := by
  cases hholder : s.holder with
  | some j =>
    obtain ⟨d, hd, hholds⟩ := hheld j hholder
    exact exists_step_of_holds hd hholds
  | none =>
    refine exists_step_of_free hc hholder (Bool.eq_false_iff.mpr fun hholds => ?_)
    cases hholder.symm.trans (h.holds i c hc hholds)

/-! ### Completion -/

omit [DecidableEq χ] in
/-- A thread in a call is one of the calls in progress. -/
theorem State.exists_call (h : s.calls ≠ 0) :
    ∃ (i : ℕ) (c : Call ω τ), s.threads[i]? = some (some c) := by
  by_contra hnone
  push Not at hnone
  exact h (count_eq_zero fun i c hc => absurd hc (hnone i c))

/-- The calls in progress and those that have returned are the calls made. -/
theorem Trans.returned_add_calls (h : m.Trans s a s') :
    s'.returned.length + s'.calls = s.returned.length + s.calls + a.isCall.toNat := by
  cases h with
  | @call i op hout =>
    have hset : (s.move i ⟨op, m.slot op, .locking⟩).calls + 0 = s.calls + 1 :=
      count_set (y := some ⟨op, m.slot op, .locking⟩) hout rfl fun _ => true
    exact congrArg (s.returned.length + ·) hset
  | @unlock i c ok hc hat =>
    let left : State σ ω τ := { s with
      threads := s.threads.set i none, holder := none,
      returned := s.returned ++ [⟨c.op, c.slot, ok⟩] }
    have hset : left.calls + 1 = s.calls + 0 := count_set (y := none) hc rfl fun _ => true
    have hreturned : left.returned.length = s.returned.length + 1 := List.length_append
    change left.returned.length + left.calls = s.returned.length + s.calls + 0
    omega
  | @notifyAll i c hc hat hall =>
    let woken : State σ ω τ :=
      { s with threads := s.threads.map (Option.map (m.wakeIf (m.wakes c.op))) }
    have hsame : woken.threads[i]? = some (some (m.wakeIf (m.wakes c.op) c)) := by
      change (s.threads.map _)[i]? = _
      rw [List.getElem?_map, hc]
      rfl
    have hcount : woken.count (fun _ => true) = s.count fun _ => true := by
      unfold State.count
      rw [List.countP_map]
      refine List.countP_congr fun x _ => ?_
      cases x <;> simp
    have hmove := count_move hsame { c with point := .unlocking true } fun _ => true
    rw [hcount] at hmove
    exact congrArg (s.returned.length + ·) (Nat.add_right_cancel hmove)
  | @notifyOne i j c d hc hat hall hd hwaiting =>
    have hwake := count_move hd { d with point := .woken false } fun _ => true
    have hother : ∃ e, (s.move j { d with point := .woken false }).threads[i]? = some (some e) := by
      by_cases hij : j = i
      · subst hij
        exact ⟨_, List.getElem?_set_self (List.getElem?_eq_some_iff.mp hd).1⟩
      · exact ⟨c, (List.getElem?_set_ne hij).trans hc⟩
    obtain ⟨e, he⟩ := hother
    have hmove := count_move he { c with point := .unlocking true } fun _ => true
    exact congrArg (s.returned.length + ·)
      ((Nat.add_right_cancel hmove).trans (Nat.add_right_cancel hwake))
  | acquire hc | testReady hc | testTimeout hc | testBlock hc | act hc | notifyNone hc | wake hc =>
    exact congrArg (s.returned.length + ·)
      (Nat.add_right_cancel (count_move hc _ fun _ => true))

variable (m) in
/-- What is known of the calls of a run from `s₀` with `n` threads to `s`. -/
structure Completes (s₀ : σ) (n : ℕ) (as : List (Action ω)) (s : State σ ω τ) : Prop where
  /-- The calls take a bounded number of steps. -/
  bounded : as.countP Action.isOwn ≤
    (2 * n + 8) * as.countP Action.isCall + 2 * as.countP Action.isSpurious
  /-- No call is lost, and none returns twice. -/
  counted : s.returned.length + s.calls = as.countP Action.isCall
  /-- Some call can go on as long as one is in progress. -/
  progress : s.calls ≠ 0 → ∃ a s', a.isOwn = true ∧ m.step s a = some s'
  /-- With no call in progress the results are those of calls made one after the other. -/
  finished : s.calls = 0 → m.Sequential s₀ s.returned s.shared
  /-- Without any step from outside all the calls in progress can return. -/
  finish : ∃ bs s', m.step.run s bs = some s' ∧ (∀ b ∈ bs, b.isOwn = true) ∧ s'.calls = 0 ∧
    s.returned <+: s'.returned ∧ s'.returned.length = as.countP Action.isCall

omit [DecidableEq χ] in
/-- There is nothing to do before the first call. -/
theorem work_init (s₀ : σ) (n : ℕ) : (init (ω := ω) (τ := τ) s₀ n).work = 0 := by
  simp [State.work, init, callWork]

/-- No call that has returned is taken back. -/
theorem Trans.returned_prefix (h : m.Trans s a s') : s.returned <+: s'.returned := by
  cases h with
  | unlock => exact List.prefix_append _ _
  | _ => exact List.prefix_rfl

/-- Without any step from outside all the calls in progress can return, each of them once. -/
theorem Inv.exists_return {s₀ : σ} (h : m.Inv s₀ s) (hheld : Held s) :
    ∃ bs s', m.step.run s bs = some s' ∧ (∀ b ∈ bs, b.isOwn = true) ∧ s'.calls = 0 ∧
      s.returned <+: s'.returned ∧ s'.returned.length = s.returned.length + s.calls := by
  let I : State σ ω τ → Prop := fun s' => m.Inv s₀ s' ∧ Held s' ∧ s.returned <+: s'.returned ∧
    s'.returned.length + s'.calls = s.returned.length + s.calls
  have hprogress : ∀ s₁, I s₁ → ¬s₁.calls = 0 →
      ∃ a s₂, a.isOwn = true ∧ m.step s₁ a = some s₂ ∧ I s₂ ∧ s₂.work < s₁.work := by
    rintro s₁ ⟨hinv, hheld, hprefix, hcount⟩ hcalls
    obtain ⟨i, c, hc⟩ := State.exists_call hcalls
    obtain ⟨a, s₂, hown, hstep⟩ := hinv.exists_step hheld hc
    have ht := trans_of_step m hstep
    have hnocall : a.isCall = false := by
      cases a <;> first | rfl | cases hown
    have hsame := ht.returned_add_calls
    rw [hnocall, Bool.toNat_false, Nat.add_zero] at hsame
    exact ⟨a, s₂, hown, hstep, ⟨hinv.step ht, hheld.step ht,
      hprefix.trans ht.returned_prefix, hsame.trans hcount⟩, ht.work_lt hown⟩
  obtain ⟨bs, s', hbs, hown, ⟨-, -, hprefix, hcount⟩, hdone⟩ :=
    Machine.exists_run_of_progress hprogress ⟨h, hheld, List.prefix_rfl, rfl⟩
  rw [hdone, Nat.add_zero] at hcount
  exact ⟨bs, s', hbs, hown, hdone, hprefix, hcount⟩

/-- The number of threads stays the same, and no call is lost, along a run. -/
theorem counted_run {s₀ : σ} {n : ℕ} {as : List (Action ω)}
    (hrun : m.step.run (init s₀ n) as = some s) :
    s.threads.length = n ∧ s.returned.length + s.calls = as.countP Action.isCall := by
  refine Machine.run_induction (m := m.step) (P := fun as s => s.threads.length = n ∧
    s.returned.length + s.calls = as.countP Action.isCall) ?_ ?_ hrun
  · simp [init, State.calls, State.count]
  · rintro as s a s' - ⟨hlen, hcount⟩ hstep
    have ht := trans_of_step m hstep
    refine ⟨ht.length_eq.trans hlen, ?_⟩
    rw [ht.returned_add_calls, hcount, List.countP_append, List.countP_singleton]
    cases a.isCall <;> rfl

/-- The cost of a run is that of its calls and of its spurious wakeups. -/
theorem sum_cost (n : ℕ) (as : List (Action ω)) : (as.map (Action.cost n)).sum =
    (2 * n + 8) * as.countP Action.isCall + 2 * as.countP Action.isSpurious := by
  rw [← sum_map_mul_toNat, ← sum_map_mul_toNat, ← List.sum_map_add]
  rfl

/-- In every run of a monitor the calls go on and return. -/
theorem completes_run {s₀ : σ} {n : ℕ} {as : List (Action ω)}
    (hrun : m.step.run (init s₀ n) as = some s) : m.Completes s₀ n as s where
  bounded := by
    have hwork := @Machine.work_add_countP_le _ _ m.step
      (fun s : State σ ω τ => s.threads.length = n) State.work Action.isOwn (Action.cost n)
      (fun s a s' hlen hstep => (trans_of_step m hstep).length_eq.trans hlen)
      (fun s a s' hlen hstep => hlen ▸ (trans_of_step m hstep).work_le) _ _ _
      (by simp [init]) hrun
    rw [work_init, sum_cost] at hwork
    omega
  counted := (counted_run hrun).2
  progress hcalls := by
    obtain ⟨i, c, hc⟩ := State.exists_call hcalls
    exact (inv_run hrun).exists_step (held_run hrun) hc
  finished hcalls := by
    have hfree : s.holder = none := by
      by_contra hholder
      obtain ⟨i, hi⟩ := Option.ne_none_iff_exists'.mp hholder
      obtain ⟨c, hc, -⟩ := held_run hrun i hi
      exact absurd hcalls (Nat.ne_of_gt (count_pos hc rfl))
    obtain ⟨hseq, -, hall⟩ := run_atomic hrun
    exact hall hfree ▸ hseq
  finish := by
    obtain ⟨bs, s', hbs, hown, hdone, hprefix, hcount⟩ :=
      (inv_run hrun).exists_return (held_run hrun)
    exact ⟨bs, s', hbs, hown, hdone, hprefix, hcount.trans (counted_run hrun).2⟩

end Monitor

end Ngp
