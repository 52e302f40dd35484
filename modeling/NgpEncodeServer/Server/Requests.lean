import NgpEncodeServer.Server.Step
import NgpEncodeServer.Foundation.ListUpdate

/-!
# The allocation of request indices

A client thread draws an eye with `is_left.fetch_xor(true)` and then an index from the counter of
that eye with `fetch_add(1)`; other threads may run between the two.  `Allotment n` ties the state
to the number `n` of draws so far: the draws alternate, starting with the right eye, and a draw that
has not got its index yet is a client thread at the point in between.
-/

namespace Ngp

/-- The step draws an eye for a request. -/
def Action.isDraw : Action → Bool
  | .client _ .draw => true
  | _ => false

namespace Server

/-- The number of client threads that have drawn the eye but no index yet. -/
def pending (s : Server) (isLeft : Bool) : ℕ :=
  s.clients.countP fun c => c.point = .drawn isLeft

/-- The indices handed out for an eye, in order. -/
def indices (s : Server) (isLeft : Bool) : List ℕ :=
  (s.allocated.filter fun e => e.1 = isLeft).map fun e => e.2.toNat

/-- What `n` draws have led to. -/
structure Allotment (n : ℕ) (s : Server) : Prop where
  isLeft_eq : s.isLeft = if n % 2 = 1 then 1 else 0
  right_eq : s.frameIndex.right.toNat + s.pending false = (n + 1) / 2
  left_eq : s.frameIndex.left.toNat + s.pending true = n / 2
  indices_eq : ∀ e, s.indices e = List.range (s.frameIndex.get e).toNat

theorem allotment_init (info : CodecInitInfo) : Allotment 0 (init info) := by
  constructor <;> simp [init, pending, indices, Sided.get]

variable {s s' : Server} {n : ℕ}

/-! ### One step -/

/-- The counter of an eye and the draws pending for it make up the share of that eye. -/
theorem Allotment.share (h : Allotment n s) (e : Bool) :
    (s.frameIndex.get e).toNat + s.pending e = if e then n / 2 else (n + 1) / 2 := by
  cases e
  · exact h.right_eq
  · exact h.left_eq

/-- A step that touches none of what the invariant speaks of keeps it. -/
theorem Allotment.congr (h : Allotment n s) (hleft : s'.isLeft = s.isLeft)
    (hindex : s'.frameIndex = s.frameIndex) (halloc : s'.allocated = s.allocated)
    (hpend : ∀ e, s'.pending e = s.pending e) : Allotment n s' := by
  constructor
  · rw [hleft]; exact h.isLeft_eq
  · rw [hindex, hpend]; exact h.right_eq
  · rw [hindex, hpend]; exact h.left_eq
  · intro e
    rw [indices, halloc, hindex]
    exact h.indices_eq e

/-- The pending draws after one client thread has moved. -/
theorem pending_of_set {i : ℕ} {c c' : Client} (hc : s.clients[i]? = some c)
    (hs' : s'.clients = s.clients.set i c') (e : Bool) :
    s'.pending e + (if c.point = .drawn e then 1 else 0) =
      s.pending e + if c'.point = .drawn e then 1 else 0 := by
  have hcount := countP_set_add (y := c') (fun c : Client => decide (c.point = .drawn e)) hc
  rw [← hs'] at hcount
  simpa only [pending, decide_eq_true_eq] using hcount

/-- A draw keeps the invariant: it flips `is_left`, whose old value is the parity of the draws. -/
private theorem Allotment.draw (h : Allotment n s) (hleft : s'.isLeft = s.isLeft ^^^ 1)
    (hindex : s'.frameIndex = s.frameIndex) (halloc : s'.allocated = s.allocated)
    (hpend : ∀ e, s'.pending e = s.pending e + if (s.isLeft != 0) = e then 1 else 0) :
    Allotment (n + 1) s' := by
  have hr := h.right_eq
  have hl := h.left_eq
  have hindices : ∀ e, s'.indices e = List.range (s'.frameIndex.get e).toNat := by
    intro e
    rw [indices, halloc, hindex]
    exact h.indices_eq e
  rcases Nat.mod_two_eq_zero_or_one n with hn | hn
  · have hzero : s.isLeft = 0 := by rw [h.isLeft_eq, hn]; rfl
    have hr' : s'.pending false = s.pending false + 1 := by rw [hpend, hzero]; rfl
    have hl' : s'.pending true = s.pending true := by rw [hpend, hzero]; rfl
    refine ⟨?_, ?_, ?_, hindices⟩
    · rw [hleft, hzero, if_pos (by omega)]; rfl
    · rw [hindex, hr']; omega
    · rw [hindex, hl']; omega
  · have hone : s.isLeft = 1 := by rw [h.isLeft_eq, hn]; rfl
    have hr' : s'.pending false = s.pending false := by rw [hpend, hone]; rfl
    have hl' : s'.pending true = s.pending true + 1 := by rw [hpend, hone]; rfl
    refine ⟨?_, ?_, ?_, hindices⟩
    · rw [hleft, hone, if_neg (by omega)]; rfl
    · rw [hindex, hr']; omega
    · rw [hindex, hl']; omega

/-- A draw of an index keeps the invariant: the counter moves on by one and one draw of the eye is
no longer pending. -/
private theorem Allotment.allocate (h : Allotment n s) (hn : n < UInt64.size) {e : Bool}
    (hleft : s'.isLeft = s.isLeft)
    (hindex : s'.frameIndex = s.frameIndex.set e (s.frameIndex.get e + 1))
    (halloc : s'.allocated = s.allocated ++ [(e, s.frameIndex.get e)])
    (hpend : ∀ e', s'.pending e' + (if e = e' then 1 else 0) = s.pending e') :
    Allotment n s' := by
  have hshare := h.share e
  have hdone := hpend e
  rw [if_pos rfl] at hdone
  have hnext : (s.frameIndex.get e + 1).toNat = (s.frameIndex.get e).toNat + 1 := by
    rw [UInt64.toNat_add, UInt64.toNat_one, Nat.mod_eq_of_lt]
    refine Nat.lt_of_le_of_lt ?_ hn
    split at hshare <;> omega
  have hget : ∀ e', (s'.frameIndex.get e').toNat =
      (s.frameIndex.get e').toNat + if e = e' then 1 else 0 := by
    intro e'
    rw [hindex]
    rcases eq_or_ne e e' with rfl | hne
    · rw [Sided.get_set_self, if_pos rfl, hnext]
    · rw [Sided.get_set_of_ne _ _ hne.symm, if_neg hne, Nat.add_zero]
  have hkept : ∀ e', (s'.frameIndex.get e').toNat + s'.pending e' =
      (s.frameIndex.get e').toNat + s.pending e' := by
    intro e'
    have := hget e'
    have := hpend e'
    omega
  refine ⟨hleft.trans h.isLeft_eq, (hkept false).trans h.right_eq, (hkept true).trans h.left_eq, ?_⟩
  intro e'
  rw [hget e', indices, halloc, List.filter_append, List.map_append]
  rcases eq_or_ne e e' with rfl | hne
  · rw [if_pos rfl, List.range_succ, ← h.indices_eq e]
    simp [indices]
  · rw [if_neg hne, Nat.add_zero, ← h.indices_eq e']
    simp [indices, hne]

/-- Every step keeps the invariant and counts its draw. -/
theorem Allotment.step {a : Action} (h : Allotment n s) (hn : n < UInt64.size) (ht : Trans s a s') :
    Allotment (if a.isDraw then n + 1 else n) s' := by
  cases ht with
  | connect =>
    refine h.congr rfl rfl rfl fun e => ?_
    simp [pending, Client.start]
  | @client i c c' a s₁ hc ht =>
    have hset := @pending_of_set s { s₁ with clients := s.clients.set i c' } i c c' hc rfl
    cases ht with
    | draw hat hret =>
      refine h.draw rfl rfl rfl fun e => ?_
      simpa [hat] using hset e
    | allocate hat =>
      refine h.allocate hn rfl rfl rfl fun e => ?_
      simpa [hat] using hset e
    | _ hat =>
      refine h.congr rfl rfl rfl fun e => ?_
      simpa [hat, Client.start] using hset e
  | control ht =>
    cases ht <;> exact h.congr rfl rfl rfl fun _ => rfl
  | pipe hpush ht => exact h.congr rfl rfl rfl fun _ => rfl

/-! ### Whole runs -/

/-- The invariant along a run, with the number of its draws. -/
theorem allotment_run {info : CodecInitInfo} {as : List Action}
    (hrun : step.run (init info) as = some s) (hdraws : as.countP Action.isDraw < UInt64.size) :
    Allotment (as.countP Action.isDraw) s := by
  refine Machine.run_induction (P := fun as s => as.countP Action.isDraw < UInt64.size →
    Allotment (as.countP Action.isDraw) s) (fun _ => allotment_init info) ?_ hrun hdraws
  intro as s a s' _ ih hstep hlt
  have hcount : (as ++ [a]).countP Action.isDraw =
      if a.isDraw then as.countP Action.isDraw + 1 else as.countP Action.isDraw := by
    cases hdraw : a.isDraw <;> simp [hdraw]
  have hle : as.countP Action.isDraw < UInt64.size := by
    rw [hcount] at hlt
    split at hlt <;> omega
  rw [hcount]
  exact (ih hle).step hle (trans_of_step hstep).1

/-- An eye and an index are drawn together at most as often as the index is handed out for the
eye. -/
theorem count_allocated_le (s : Server) (e : Bool) (i : UInt64) :
    s.allocated.count (e, i) ≤ (s.indices e).count i.toNat := by
  have hfilter : (s.allocated.filter fun x => x.1 = e).count (e, i) = s.allocated.count (e, i) :=
    List.count_filter (by simp)
  rw [← hfilter]
  exact List.count_le_count_map (f := fun x : Bool × UInt64 => x.2.toNat)

/-- In every run with fewer than `UInt64.size` draws, for any number of client threads and in any
interleaving: `is_left` is `0` or `1`; no eye and index are drawn together twice; the indices drawn
for an eye are exactly those below its counter, in order; the right counter with the draws pending
for it is ahead of the left one by `0` or `1`; and without pending draws the counters differ by at
most one. -/
theorem requests_allotted {info : CodecInitInfo} {as : List Action} {s : Server}
    (hrun : step.run (init info) as = some s) (hdraws : as.countP Action.isDraw < UInt64.size) :
    (s.isLeft = 0 ∨ s.isLeft = 1) ∧
    s.allocated.Nodup ∧
    (∀ e, s.indices e = List.range (s.frameIndex.get e).toNat) ∧
    (s.frameIndex.right.toNat + s.pending false = s.frameIndex.left.toNat + s.pending true ∨
      s.frameIndex.right.toNat + s.pending false =
        s.frameIndex.left.toNat + s.pending true + 1) ∧
    ((∀ e, s.pending e = 0) →
      s.frameIndex.right.toNat ≤ s.frameIndex.left.toNat + 1 ∧
        s.frameIndex.left.toNat ≤ s.frameIndex.right.toNat + 1) := by
  have h := allotment_run hrun hdraws
  have hr := h.right_eq
  have hl := h.left_eq
  refine ⟨?_, ?_, h.indices_eq, by omega, fun hpend => ?_⟩
  · have hleft := h.isLeft_eq
    split at hleft
    · exact Or.inr hleft
    · exact Or.inl hleft
  · refine List.nodup_iff_count_le_one.mpr fun x => ?_
    have hnodup : (s.indices x.1).Nodup := h.indices_eq x.1 ▸ List.nodup_range
    exact (count_allocated_le s x.1 x.2).trans (List.nodup_iff_count_le_one.mp hnodup _)
  · rw [hpend] at hr hl
    omega

/-- Two client threads whose draws overlap, and a third draw still pending. -/
def overlappingDraws : List Action :=
  [.connect, .connect, .connect, .client 0 .draw, .client 1 .draw, .client 1 .allocate,
    .client 2 .draw, .client 2 .allocate]

/-- The overlapping draws are allotted as stated. -/
theorem requests_allotted_overlapping :
    ∃ s, step.run (init defaultInitInfo) overlappingDraws = some s ∧
      s.frameIndex = ⟨1, 1⟩ ∧ s.pending false = 1 ∧ s.allocated.Nodup :=
  ⟨_, rfl, rfl, rfl, (@requests_allotted defaultInitInfo overlappingDraws _ rfl (by decide)).2.1⟩

end Server

end Ngp
