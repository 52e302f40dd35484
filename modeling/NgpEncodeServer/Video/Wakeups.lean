import NgpEncodeServer.Foundation.Wakeup
import NgpEncodeServer.Video.MapMonitor
import NgpEncodeServer.Video.QueueMonitor

/-!
# Wakeups of `FrameQueue` and `FrameMap`

Each operation notifies one thread, but for `FrameMap::insert`, which notifies all getters.  For the
queue this is enough: a `push` makes one element available and a `pop` one place.  A `get_delete`
can make many places available, when its cleanup drops frames, and an `insert` that a notification
has woken can leave its place free, when its key is present; in both cases other inserters go on
sleeping in front of free places.
-/

namespace Ngp

variable {α : Type*}

namespace FrameQueue

/-- A queue with its threads. -/
abbrev Threads (α : Type*) := Monitor.State (List α) (QueueOp α) (Option α)

/-- A thread is blocked in `pop` only if every element has a woken popper on its way to it, and in
`push` only if every free place has a woken pusher on its way to it. -/
structure NoLostWakeup (s : Threads α) : Prop where
  popper : ∀ (i : ℕ) (c : Monitor.Call (QueueOp α) (Option α)), s.threads[i]? = some (some c) →
    c.op = .pop → c.point = .blocked →
      s.shared.length ≤ s.count (frameQueueMonitor.woken .popper)
  pusher : ∀ (i : ℕ) (c : Monitor.Call (QueueOp α) (Option α)) (el : α),
    s.threads[i]? = some (some c) → c.op = .push el → c.point = .blocked →
      kFrameQueueMaxSize ≤ s.shared.length + s.count (frameQueueMonitor.woken .pusher)

/-- What the threads that wait on a condition variable wait for. -/
def avail : QueueCond → List α → ℕ
  | .popper, queue => queue.length
  | .pusher, queue => kFrameQueueMaxSize - queue.length

/-- A thread waits only if nothing is available. -/
theorem avail_eq_zero {op : QueueOp α} {queue : List α}
    (hready : frameQueueMonitor.ready op queue = false) :
    avail (frameQueueMonitor.waitsOn op) queue = 0 := by
  cases op with
  | push el => exact Nat.sub_eq_zero_of_le (Nat.not_lt.mp (of_decide_eq_false hready))
  | pop => exact Nat.eq_zero_of_not_pos (of_decide_eq_false hready)

/-- A `push` takes a place and makes an element available, and a `pop` the other way round. -/
theorem covers_of_ready (v : QueueCond) {op : QueueOp α} {s : Threads α}
    (hready : frameQueueMonitor.ready op s.shared = true) :
    frameQueueMonitor.Covers v (avail v) s op := by
  refine Or.inr ?_
  cases op with
  | push el =>
    have hfree : s.shared.length < kFrameQueueMaxSize := of_decide_eq_true hready
    cases v with
    | pusher =>
      change kFrameQueueMaxSize - (s.shared ++ [el]).length + 1 ≤
        kFrameQueueMaxSize - s.shared.length + 0
      rw [List.length_append, List.length_singleton]
      omega
    | popper =>
      change (s.shared ++ [el]).length + 0 ≤ s.shared.length + 1
      rw [List.length_append, List.length_singleton]
  | pop =>
    obtain ⟨item, queue, hqueue⟩ := List.exists_cons_of_length_pos (of_decide_eq_true hready)
    cases v with
    | pusher =>
      change kFrameQueueMaxSize - (frameQueueMonitor.body .pop s.shared).1.length + 0 ≤
        kFrameQueueMaxSize - s.shared.length + 1
      rw [hqueue]
      change kFrameQueueMaxSize - queue.length + 0 ≤ kFrameQueueMaxSize - (queue.length + 1) + 1
      omega
    | popper =>
      change (frameQueueMonitor.body .pop s.shared).1.length + 1 ≤ s.shared.length + 0
      rw [hqueue]
      exact le_rfl

/-- What is available of either kind is covered in every state. -/
theorem covered_run (v : QueueCond) {n : ℕ} {as : List (Monitor.Action (QueueOp α))}
    {s : Threads α} (hrun : frameQueueMonitor.step.run (Monitor.init [] n) as = some s) :
    frameQueueMonitor.Covered v (avail v) s := by
  refine Machine.run_induction (P := fun _ s => frameQueueMonitor.Covered v (avail v) s)
    (Monitor.covered_init v (avail v) [] n) ?_ hrun
  intro as s a s' hrun hcovered hstep
  refine hcovered.step (frameQueueMonitor.trans_of_step hstep) ?_ ?_
  · rintro op rfl hready
    exact avail_eq_zero hready
  · intro i c _ hc hat
    exact covers_of_ready v ((Monitor.inv_run hrun).ready i c hc hat)

/-- For any number of threads and every interleaving of their steps: whenever the mutex is free, no
element and no free place is left unused in front of a thread that is blocked. -/
theorem queue_noLostWakeup {n : ℕ} {as : List (Monitor.Action (QueueOp α))} {s : Threads α}
    (hrun : frameQueueMonitor.step.run (Monitor.init [] n) as = some s) (hfree : s.holder = none) :
    NoLostWakeup s where
  popper i c hc hop hat := by
    apply (covered_run .popper hrun).of_free (Monitor.inv_run hrun) hfree hc
    simp [Monitor.waiting, hop, hat, frameQueueMonitor]
  pusher i c el hc hop hat := by
    apply Nat.sub_le_iff_le_add'.mp
    apply (covered_run .pusher hrun).of_free (Monitor.inv_run hrun) hfree hc
    simp [Monitor.waiting, hop, hat, frameQueueMonitor]

/-- A popper blocks on the empty queue, and a `push` wakes it: it is on its way to the element. -/
def pushWakes : List (Monitor.Action (QueueOp ℕ)) :=
  [.call 0 .pop, .acquire 0, .test 0, .call 2 .pop, .acquire 2, .test 2,
    .call 1 (.push 7), .acquire 1, .test 1, .act 1, .notify 1 (some 0), .unlock 1]

/-- The other popper sleeps on in front of one element with one popper on its way to it. -/
theorem noLostWakeup_pushWakes :
    ∃ s, frameQueueMonitor.step.run (Monitor.init [] 3) pushWakes = some s ∧
      s.threads[2]? = some (some ⟨.pop, none, .blocked⟩) ∧ s.shared.length = 1 ∧
      s.shared.length ≤ s.count (frameQueueMonitor.woken .popper) := by
  have hkeeps := @queue_noLostWakeup _ 3 pushWakes _ rfl rfl
  exact ⟨_, rfl, rfl, rfl, hkeeps.popper 2 ⟨.pop, none, .blocked⟩ rfl rfl rfl⟩

end FrameQueue

namespace FrameMap

/-- A map with its threads. -/
abbrev Threads (α : Type*) := Monitor.State (AssocMap UInt64 α) (MapOp α) (Option α)

/-- No thread is blocked in `get_delete` of a key that is in the map, and one is blocked in `insert`
only if every free place has a woken inserter on its way to it. -/
structure NoLostWakeup (s : Threads α) : Prop where
  getter : ∀ (i : ℕ) (c : Monitor.Call (MapOp α) (Option α)) (index : UInt64),
    s.threads[i]? = some (some c) → c.op = .getDelete index → c.point = .blocked →
      index ∉ s.shared.keys
  inserter : ∀ (i : ℕ) (c : Monitor.Call (MapOp α) (Option α)) (index : UInt64) (item : α),
    s.threads[i]? = some (some c) → c.op = .insert index item → c.point = .blocked →
      kFrameMapMaxSize ≤ s.shared.size + s.count (frameMapMonitor.woken .inserter)

/-! ### Getters -/

/-- Only an `insert` brings a key into the map, and it notifies all getters. -/
theorem announces_getter : (frameMapMonitor (α := α)).Announces .getter := by
  intro op op' map hwaits hbefore hafter
  cases op' with
  | insert index item => cases hwaits
  | getDelete key =>
    cases op with
    | insert index item => exact ⟨rfl, rfl⟩
    | getDelete index =>
      -- what `get_delete` leaves in the map was there before
      have hmem : key ∈ (remaining map index).keys := AssocMap.contains_iff.mp hafter
      obtain ⟨e, he, rfl⟩ := List.mem_map.mp hmem
      have hold := List.mem_map_of_mem (f := Prod.fst) (mem_entries_remaining.mp he).1
      exact absurd hold (AssocMap.not_contains_iff.mp hbefore)

/-- Whenever the mutex is free, no thread is blocked in a `get_delete` whose key is in the map. -/
theorem getter_run {n : ℕ} {as : List (Monitor.Action (MapOp α))} {s : Threads α}
    (hrun : frameMapMonitor.step.run (Monitor.init .empty n) as = some s)
    (hfree : s.holder = none) {i : ℕ} {c : Monitor.Call (MapOp α) (Option α)} {index : UInt64}
    (hc : s.threads[i]? = some (some c)) (hop : c.op = .getDelete index)
    (hat : c.point = .blocked) : index ∉ s.shared.keys := by
  have hinformed : frameMapMonitor.Informed .getter s :=
    Machine.run_invariant (Monitor.informed_init _ _ n)
      (fun s a s' h hstep => h.step announces_getter (frameMapMonitor.trans_of_step hstep)) hrun
  have hready := hinformed.of_free (Monitor.inv_run hrun) hfree hc
    (by simp [Monitor.waiting, hop, hat, frameMapMonitor])
  rw [hop] at hready
  exact AssocMap.not_contains_iff.mp hready

/-! ### Inserters -/

/-- With so many inserters blocked the operation takes the place it was woken for, and leaves no
more places than it notifies of: an insertion is under a new key, or no inserter is blocked, and the
cleanup of a `get_delete` is not due or finds nothing to drop, or one inserter is blocked at
most. -/
def Thrifty (map : AssocMap UInt64 α) (blocked : ℕ) : MapOp α → Prop
  | .insert index _ => index ∉ map.keys ∨ blocked = 0
  | .getDelete index =>
    index % kFrameMapDropFramesInterval ≠ 0 ∨ (∀ key ∈ map.keys, ¬key < index) ∨ blocked ≤ 1

instance (map : AssocMap UInt64 α) (blocked : ℕ) (op : MapOp α) :
    Decidable (Thrifty map blocked op) :=
  match op with
  | .insert index _ => inferInstanceAs (Decidable (index ∉ map.keys ∨ blocked = 0))
  | .getDelete index =>
    inferInstanceAs (Decidable (index % kFrameMapDropFramesInterval ≠ 0 ∨
      (∀ key ∈ map.keys, ¬key < index) ∨ blocked ≤ 1))

/-- While an inserter is blocked no insertion runs under a key that is in the map, and while two are
blocked no cleanup drops frames. -/
def ActsThriftily (s : Threads α) (a : Monitor.Action (MapOp α)) : Prop :=
  match a, s.threads[a.thread]? with
  | .act _, some (some c) =>
    Thrifty s.shared (s.count (frameMapMonitor.waiting .inserter)) c.op
  | _, _ => True

instance (s : Threads α) (a : Monitor.Action (MapOp α)) : Decidable (ActsThriftily s a) := by
  unfold ActsThriftily
  split
  · infer_instance
  · exact instDecidableTrue

/-- The free places. -/
def free (map : AssocMap UInt64 α) : ℕ := kFrameMapMaxSize - map.size

/-- An inserter waits only for a free place. -/
theorem free_eq_zero {op : MapOp α} {map : AssocMap UInt64 α}
    (hwaits : frameMapMonitor.waitsOn op = .inserter)
    (hready : frameMapMonitor.ready op map = false) : free map = 0 := by
  cases op with
  | insert index item => exact Nat.sub_eq_zero_of_le (Nat.not_lt.mp (of_decide_eq_false hready))
  | getDelete index => cases hwaits

/-- A cleanup drops nothing that is not due or finds no smaller key. -/
theorem dropped_eq_nil {map : AssocMap UInt64 α} {index : UInt64}
    (h : index % kFrameMapDropFramesInterval ≠ 0 ∨ ∀ key ∈ map.keys, ¬key < index) :
    dropped map index = [] := by
  unfold dropped
  split
  · rename_i hdue
    refine List.filter_eq_nil_iff.mpr fun e he => ?_
    have hkey := List.mem_map_of_mem (f := Prod.fst) (AssocMap.mem_entries_erase.mp he).1
    simpa using h.resolve_left (not_not.mpr hdue) e.1 hkey
  · rfl

/-- What a body that runs thriftily does to the free places. -/
theorem covers_of_thrifty {op : MapOp α} {s : Threads α}
    (hready : frameMapMonitor.ready op s.shared = true)
    (hthrifty : Thrifty s.shared (s.count (frameMapMonitor.waiting .inserter)) op) :
    frameMapMonitor.Covers .inserter free s op := by
  cases op with
  | insert index item =>
    have hfree : s.shared.size < kFrameMapMaxSize := of_decide_eq_true hready
    rcases hthrifty with hnew | hnone
    · -- the new entry takes one place
      refine Or.inr ?_
      change kFrameMapMaxSize - (s.shared.insert index item).entries.length + 1 ≤
        kFrameMapMaxSize - s.shared.size + 0
      rw [AssocMap.entries_insert_of_notMem item hnew, List.length_cons]
      change kFrameMapMaxSize - (s.shared.size + 1) + 1 ≤ kFrameMapMaxSize - s.shared.size + 0
      omega
    · exact Or.inl (Nat.le_of_eq hnone)
  | getDelete index =>
    by_cases hone : s.count (frameMapMonitor.waiting .inserter) ≤ 1
    · exact Or.inl hone
    · -- only the entry of the index leaves its place
      refine Or.inr ?_
      have hnone : dropped s.shared index = [] :=
        dropped_eq_nil (hthrifty.imp_right fun h => h.resolve_right hone)
      obtain ⟨elem, helem⟩ := Option.ne_none_iff_exists'.mp fun hat =>
        AssocMap.at?_eq_none_iff.mp hat (AssocMap.contains_iff.mp hready)
      have hlength :=
        (perm_entries_getDelete (AssocMap.at?_eq_some_iff.mp helem)).length_eq
      rw [hnone, List.append_nil, List.length_cons] at hlength
      change kFrameMapMaxSize - (remaining s.shared index).entries.length + 0 ≤
        kFrameMapMaxSize - s.shared.entries.length + 1
      omega

/-- The free places are covered in every state of a run whose bodies run thriftily. -/
theorem covered_run {n : ℕ} {as : List (Monitor.Action (MapOp α))} {s : Threads α}
    (hrun : (frameMapMonitor.step.guarded ActsThriftily).run (Monitor.init .empty n) as = some s) :
    frameMapMonitor.Covered .inserter free s := by
  refine Machine.run_guarded_induction (P := fun _ s => frameMapMonitor.Covered .inserter free s)
    (Monitor.covered_init _ _ _ n) ?_ hrun
  intro as s a s' hrun hcovered hthrifty hstep
  refine hcovered.step (frameMapMonitor.trans_of_step hstep) (fun op => free_eq_zero) ?_
  rintro i c rfl hc hat
  have hready := (Monitor.inv_run hrun).ready i c hc hat
  apply covers_of_thrifty hready
  simpa [ActsThriftily, Monitor.Action.thread, hc] using hthrifty

/-- For any number of threads, any keys and every interleaving: as long as no insertion runs under a
present key while an inserter is blocked, and no cleanup drops frames while two are, then whenever
the mutex is free no thread is blocked in `get_delete` of a key that is in the map, and no free
place is left without a woken inserter while another one is blocked. -/
theorem map_noLostWakeup {n : ℕ} {as : List (Monitor.Action (MapOp α))} {s : Threads α}
    (hrun : (frameMapMonitor.step.guarded ActsThriftily).run (Monitor.init .empty n) as = some s)
    (hfree : s.holder = none) : NoLostWakeup s where
  getter i c index hc hop hat :=
    getter_run (Machine.run_of_run_guarded hrun) hfree hc hop hat
  inserter i c index item hc hop hat := by
    have hinv := Monitor.inv_run (Machine.run_of_run_guarded hrun)
    apply Nat.sub_le_iff_le_add'.mp
    apply (covered_run hrun).of_free hinv hfree hc
    simp [Monitor.waiting, hop, hat, frameMapMonitor]

/-- One thread inserts frames under the keys, one after the other. -/
def inserts (keys : List UInt64) : List (Monitor.Action (MapOp ℕ)) :=
  keys.flatMap fun key =>
    [.call 0 (.insert key 0), .acquire 0, .test 0, .act 0, .notify 0 none, .unlock 0]

/-- The map is filled, with the last key a multiple of the interval, two threads block in `insert`,
and a `get_delete` wakes one of them. -/
def freesOne (index : UInt64) : List (Monitor.Action (MapOp ℕ)) :=
  inserts ((List.range 99).map UInt64.ofNat ++ [1000]) ++
    [.call 1 (.insert 200 0), .acquire 1, .test 1, .call 2 (.insert 201 0), .acquire 2, .test 2,
      .call 0 (.getDelete index), .acquire 0, .test 0, .act 0, .notify 0 (some 1), .unlock 0]

/-- The mutex is free, the last thread is blocked in its `insert`, and the map and the woken
inserters are as given. -/
def Leaves (size woken : ℕ) (s : Threads ℕ) : Bool :=
  s.holder = none && s.threads[2]? = some (some ⟨.insert 201 0, some 0, .blocked⟩) &&
    s.shared.size = size && s.count (frameMapMonitor.woken .inserter) = woken

/-- Nothing is lost if nothing is dropped: one place is free, and one inserter is on its way to
it. -/
theorem noLostWakeup_freesOne :
    ∃ s, (frameMapMonitor.step.guarded ActsThriftily).run (Monitor.init .empty 3) (freesOne 5) =
        some s ∧
      Leaves 99 1 s ∧ NoLostWakeup s := by
  have hany : ((frameMapMonitor.step.guarded ActsThriftily).run (Monitor.init .empty 3)
      (freesOne 5)).any (Leaves 99 1) = true := by decide +kernel
  obtain ⟨s, hrun, hleaves⟩ := (Option.any_eq_true _ _).mp hany
  have hfree := hleaves
  simp only [Leaves, Bool.and_eq_true, decide_eq_true_eq] at hfree
  exact ⟨s, hrun, hleaves, map_noLostWakeup hrun hfree.1.1.1⟩

/-- The cleanup empties the map and wakes one inserter, while the other one sleeps on in front of 99
free places that nobody is on the way to. -/
theorem cleanup_loses_wakeup :
    ∃ s, frameMapMonitor.step.run (Monitor.init .empty 3) (freesOne 1000) = some s ∧
      Leaves 0 1 s ∧ s.holder = none ∧ ¬NoLostWakeup s := by
  have hany : (frameMapMonitor.step.run (Monitor.init .empty 3) (freesOne 1000)).any
      (Leaves 0 1) = true := by decide +kernel
  obtain ⟨s, hrun, hleaves⟩ := (Option.any_eq_true _ _).mp hany
  refine ⟨s, hrun, hleaves, ?_⟩
  simp only [Leaves, Bool.and_eq_true, decide_eq_true_eq] at hleaves
  obtain ⟨⟨⟨hfree, hblocked⟩, hsize⟩, hwoken⟩ := hleaves
  refine ⟨hfree, fun hkeeps => ?_⟩
  have hcovered := hkeeps.inserter 2 _ 201 0 hblocked rfl rfl
  rw [hsize, hwoken] at hcovered
  exact absurd hcovered (by decide)

end FrameMap

end Ngp
