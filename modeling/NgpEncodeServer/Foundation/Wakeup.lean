import NgpEncodeServer.Foundation.ListUpdate
import NgpEncodeServer.Foundation.Monitor

/-!
# Wakeups of a monitor

A thread that is blocked on a condition variable goes on only when somebody unblocks it, so a
monitor whose operations notify too few threads lets threads sleep that could go on.

`Covered` is for operations that wait for one unit of a resource: the units available are at most
the threads on their way to them, unless no thread is blocked.  It is a count over the threads.  A
unit is accounted for by a woken thread, by the thread inside the monitor that is about to take one,
or by the one that has made a unit available and is about to notify.  `Covered.step` needs of every
body that what it makes available is what it notifies for (`Covers`).

`Informed` is for operations that wait for a predicate of their own: whoever makes such a predicate
true notifies all threads (`Announces`), so that no thread whose predicate is true is blocked.
-/

namespace Ngp

namespace Monitor

variable {σ ω τ χ : Type*} [DecidableEq χ] (m : Monitor σ ω τ χ)

/-- The number of threads whose call satisfies `p`. -/
def State.count (s : State σ ω τ) (p : Call ω τ → Bool) : ℕ := s.threads.countP (Option.any p)

/-- The call is unblocked and has not tested its predicate again. -/
def woken (v : χ) (c : Call ω τ) : Bool :=
  (match c.point with | .woken _ => true | _ => false) && m.waitsOn c.op = v

/-- The operation waits for a unit of the resource of `v`. -/
def consumes (v : χ) (op : ω) : Bool := m.waitsOn op = v

/-- The operation makes a unit of the resource of `v` available. -/
def provides (v : χ) (op : ω) : Bool := m.waitsOn op ≠ v && m.wakes op = v

/-- The call is between its body and its notification. -/
def providing (v : χ) (c : Call ω τ) : Bool := c.point = .notifying && m.provides v c.op

/-- The call accounts for a unit: it is about to take one, or to notify of one. -/
def owing (v : χ) (c : Call ω τ) : Bool :=
  match c.point with
  | .testing _ | .acting => m.consumes v c.op
  | .notifying => m.provides v c.op
  | _ => false

/-- The units of the resource of `v` are covered by threads on their way to them, or no thread is
blocked that is not about to be notified. -/
def Covered (v : χ) (avail : σ → ℕ) (s : State σ ω τ) : Prop :=
  s.count (m.waiting v) ≤ s.count (m.providing v) ∨
    avail s.shared ≤ s.count (m.woken v) + s.count (m.owing v)

/-- The body takes a unit if its operation consumes one, and makes at most one available, of which
it notifies, or so few threads are blocked that its notification is enough for them. -/
def Covers (v : χ) (avail : σ → ℕ) (s : State σ ω τ) (op : ω) : Prop :=
  s.count (m.waiting v) ≤ (m.provides v op).toNat ∨
    avail (m.body op s.shared).1 + (m.consumes v op).toNat ≤
      avail s.shared + (m.provides v op).toNat

/-- The call is about to notify everybody who waits on `v`. -/
def announcing (v : χ) (c : Call ω τ) : Bool :=
  c.point = .notifying && m.wakesAll c.op && m.wakes c.op = v

/-- A thread is blocked on `v` although its predicate is true only if somebody is about to notify
all who wait on `v`. -/
def Informed (v : χ) (s : State σ ω τ) : Prop :=
  ∀ (i : ℕ) (c : Call ω τ), s.threads[i]? = some (some c) → m.waiting v c = true →
    m.ready c.op s.shared = true → 0 < s.count (m.announcing v)

/-- Whoever makes a predicate true for which others wait on `v` notifies all of them. -/
def Announces (v : χ) : Prop :=
  ∀ (op op' : ω) (shared : σ), m.waitsOn op' = v → m.ready op' shared = false →
    m.ready op' (m.body op shared).1 = true → m.wakesAll op = true ∧ m.wakes op = v

/-! ### Counting -/

section Counting

variable {m} {s s' : State σ ω τ} {a : Action ω} {p : Call ω τ → Bool} {i : ℕ}

omit [DecidableEq χ] in
/-- What replacing the entry of one thread does to a count. -/
theorem count_set {x y : Option (Call ω τ)} (hx : s.threads[i]? = some x)
    (hs : s'.threads = s.threads.set i y) (p : Call ω τ → Bool) :
    s'.count p + (x.any p).toNat = s.count p + (y.any p).toNat := by
  have h := countP_set_add (Option.any p) hx (y := y)
  unfold State.count
  rw [hs]
  cases hxp : x.any p <;> cases hyp : y.any p <;> simpa [hxp, hyp] using h

omit [DecidableEq χ] in
/-- What a step of one thread in its call does to a count. -/
theorem count_move {c : Call ω τ} (hc : s.threads[i]? = some (some c)) (d : Call ω τ)
    (p : Call ω τ → Bool) : (s.move i d).count p + (p c).toNat = s.count p + (p d).toNat :=
  count_set (y := some d) hc rfl p

omit [DecidableEq χ] in
/-- A thread whose call satisfies `p` is counted. -/
theorem count_pos {c : Call ω τ} (hc : s.threads[i]? = some (some c)) (hp : p c = true) :
    0 < s.count p :=
  List.countP_pos_iff.mpr ⟨some c, List.mem_of_getElem? hc, hp⟩

omit [DecidableEq χ] in
/-- No thread is counted if no call satisfies `p`. -/
theorem count_eq_zero
    (h : ∀ (i : ℕ) (c : Call ω τ), s.threads[i]? = some (some c) → p c = false) :
    s.count p = 0 := by
  refine List.countP_eq_zero.mpr fun x hx => ?_
  cases x with
  | none => simp
  | some c =>
    obtain ⟨i, hi⟩ := List.mem_iff_getElem?.mp hx
    simp [h i c hi]

omit [DecidableEq χ] in
/-- The calls after the entry of one thread has been replaced. -/
theorem of_getElem?_set {l : List (Option (Call ω τ))} {x : Option (Call ω τ)} {j : ℕ}
    {c : Call ω τ} (hc : (l.set i x)[j]? = some (some c)) :
    (j = i ∧ x = some c) ∨ (j ≠ i ∧ l[j]? = some (some c)) := by
  by_cases hj : j = i
  · subst hj
    have hlt : j < l.length := by
      simpa using (List.getElem?_eq_some_iff.mp hc).1
    exact Or.inl ⟨rfl, eq_of_getElem?_set hlt hc⟩
  · exact Or.inr ⟨hj, (List.getElem?_set_ne (Ne.symm hj)).symm.trans hc⟩

/-- Notifying all leaves nobody waiting. -/
theorem waiting_wakeIf (m : Monitor σ ω τ χ) (v : χ) (c : Call ω τ) :
    m.waiting v (m.wakeIf v c) = false := by
  unfold wakeIf
  split
  · rfl
  · exact Bool.eq_false_iff.mpr ‹_›

/-- After a thread has notified all of `v` nobody waits on `v`. -/
theorem waiting_of_notifyAll {v : χ} {c d : Call ω τ} {j : ℕ}
    (hd : ((s.threads.map (Option.map (m.wakeIf v))).set i
      (some { c with point := .unlocking true }))[j]? = some (some d)) :
    m.waiting v d = false := by
  rcases of_getElem?_set hd with ⟨-, hdone⟩ | ⟨-, hold⟩
  · cases hdone
    rfl
  · rw [List.getElem?_map] at hold
    obtain ⟨x, -, hx⟩ := Option.map_eq_some_iff.mp hold
    obtain ⟨e, -, rfl⟩ := Option.map_eq_some_iff.mp hx
    exact m.waiting_wakeIf v e

/-- The notifying thread does not notify itself. -/
theorem getElem?_wakeIf {v : χ} {c : Call ω τ} (hc : s.threads[i]? = some (some c))
    (hat : c.point = .notifying) :
    (s.threads.map (Option.map (m.wakeIf v)))[i]? = some (some c) := by
  rw [List.getElem?_map, hc]
  simp [wakeIf, waiting, hat]

/-- Notifying all changes only the counts that depend on who is blocked. -/
theorem count_wakeIf {u : χ} (hp : ∀ c, p (m.wakeIf u c) = p c) :
    State.count { s with threads := s.threads.map (Option.map (m.wakeIf u)) } p = s.count p := by
  unfold State.count
  rw [List.countP_map]
  congr 1
  funext x
  cases x with
  | none => rfl
  | some c => exact hp c

omit [DecidableEq χ] in
/-- Before the first step nobody is counted. -/
theorem count_init (shared : σ) (n : ℕ) (p : Call ω τ → Bool) :
    (init shared n : State σ ω τ).count p = 0 := by
  refine Monitor.count_eq_zero fun i c hc => ?_
  have hnone := (List.mem_replicate.mp (List.mem_of_getElem? hc)).2
  cases hnone

omit [DecidableEq χ] in
/-- With the mutex free no thread is inside the monitor. -/
theorem Inv.count_eq_zero {s₀ : σ} (h : m.Inv s₀ s) (hfree : s.holder = none)
    (hp : ∀ c, p c = true → c.point.holds = true) : s.count p = 0 := by
  refine Monitor.count_eq_zero fun i c hc => Bool.eq_false_iff.mpr fun hpc => ?_
  have hholder := h.holds i c hc (hp c hpc)
  rw [hfree] at hholder
  cases hholder

end Counting

/-! ### Units of a resource -/

section Covered

variable {m} {v : χ} {avail : σ → ℕ} {s s' : State σ ω τ} {a : Action ω} {i : ℕ}

/-- A step that leaves the units alone and replaces the entry of one thread: the thread goes on
accounting for what it accounted for. -/
theorem Covered.of_set (h : m.Covered v avail s) {x y : Option (Call ω τ)}
    (hx : s.threads[i]? = some x) (hs : s'.threads = s.threads.set i y)
    (havail : s'.shared = s.shared)
    (hblocked : (y.any (m.waiting v)).toNat + (x.any (m.providing v)).toNat ≤
      (x.any (m.waiting v)).toNat + (y.any (m.providing v)).toNat)
    (hcovered : (x.any (m.woken v)).toNat + (x.any (m.owing v)).toNat ≤
      (y.any (m.woken v)).toNat + (y.any (m.owing v)).toNat) : m.Covered v avail s' := by
  have hw := count_set hx hs (m.waiting v)
  have hp := count_set hx hs (m.providing v)
  have hk := count_set hx hs (m.woken v)
  have ho := count_set hx hs (m.owing v)
  unfold Covered at h ⊢
  rw [havail]
  omega

/-- Waking the threads of another condition variable changes nothing. -/
theorem Covered.of_wakeIf (h : m.Covered v avail s) {u : χ} (hne : u ≠ v) :
    m.Covered v avail { s with threads := s.threads.map (Option.map (m.wakeIf u)) } := by
  unfold Covered
  rw [count_wakeIf, count_wakeIf, count_wakeIf, count_wakeIf]
  · exact h
  all_goals
    intro c
    unfold wakeIf
    split
    · rename_i hwaiting
      have hat := point_of_waiting hwaiting
      simp only [waiting, Bool.and_eq_true, decide_eq_true_eq] at hwaiting
      simp [waiting, woken, providing, owing, hat, hwaiting.2, hne]
    · rfl

/-- The body keeps the units covered: the thread takes the unit it accounted for, and accounts for
the one it provides until it has notified of it. -/
theorem Covered.of_act (h : m.Covered v avail s) {c : Call ω τ} {slot : τ}
    (hc : s.threads[i]? = some (some c)) (hat : c.point = .acting)
    (hs : s'.threads = s.threads.set i (some { c with slot := slot, point := .notifying }))
    (hshared : s'.shared = (m.body c.op s.shared).1) (hcovers : m.Covers v avail s c.op) :
    m.Covered v avail s' := by
  obtain ⟨op, slot, point⟩ := c
  subst hat
  have hw : s'.count (m.waiting v) + 0 = s.count (m.waiting v) + 0 := count_set hc hs _
  have hp : s'.count (m.providing v) + 0 = s.count (m.providing v) + (m.provides v op).toNat :=
    count_set hc hs _
  have hk : s'.count (m.woken v) + 0 = s.count (m.woken v) + 0 := count_set hc hs _
  have ho : s'.count (m.owing v) + (m.consumes v op).toNat =
      s.count (m.owing v) + (m.provides v op).toNat := count_set hc hs _
  rw [Nat.add_zero, Nat.add_zero] at hw hk
  rw [Nat.add_zero] at hp
  unfold Covered at h ⊢
  rw [hshared, hw, hp, hk]
  dsimp only [Covers] at hcovers ⊢
  omega

/-- Notifying one thread keeps the units covered: the thread unblocked accounts for the unit that
the notifying thread accounted for. -/
theorem Covered.of_notifyOne (h : m.Covered v avail s) {j : ℕ} {c d : Call ω τ}
    (hc : s.threads[i]? = some (some c)) (hat : c.point = .notifying)
    (hd : s.threads[j]? = some (some d)) (hwaiting : m.waiting (m.wakes c.op) d = true) :
    m.Covered v avail
      ((s.move j { d with point := .woken false }).move i { c with point := .unlocking true }) := by
  obtain ⟨op, slot, point⟩ := c
  obtain ⟨dop, dslot, dpoint⟩ := d
  simp only [waiting, Bool.and_eq_true, decide_eq_true_eq] at hwaiting
  obtain ⟨rfl, hwaits⟩ := hwaiting
  subst hat
  have hne : j ≠ i := by
    rintro rfl
    rw [hc] at hd
    cases hd
  set s₁ := s.move j ⟨dop, dslot, .woken false⟩ with hs₁
  have hc₁ : s₁.threads[i]? = some (some ⟨op, slot, .notifying⟩) :=
    (List.getElem?_set_ne hne).trans hc
  -- the thread unblocked
  have hw₁ : s₁.count (m.waiting v) + (m.consumes v dop).toNat = s.count (m.waiting v) + 0 :=
    count_move hd _ _
  have hp₁ : s₁.count (m.providing v) + 0 = s.count (m.providing v) + 0 :=
    count_move hd _ _
  have hk₁ : s₁.count (m.woken v) + 0 = s.count (m.woken v) + (m.consumes v dop).toNat :=
    count_move hd _ _
  have ho₁ : s₁.count (m.owing v) + 0 = s.count (m.owing v) + 0 :=
    count_move hd _ _
  -- the thread that notifies
  set s₂ := s₁.move i ⟨op, slot, .unlocking true⟩ with hs₂
  have hw₂ : s₂.count (m.waiting v) + 0 = s₁.count (m.waiting v) + 0 :=
    count_move hc₁ _ _
  have hp₂ : s₂.count (m.providing v) + (m.provides v op).toNat = s₁.count (m.providing v) + 0 :=
    count_move hc₁ _ _
  have hk₂ : s₂.count (m.woken v) + 0 = s₁.count (m.woken v) + 0 :=
    count_move hc₁ _ _
  have ho₂ : s₂.count (m.owing v) + (m.provides v op).toNat = s₁.count (m.owing v) + 0 :=
    count_move hc₁ _ _
  have hle : (m.provides v op).toNat ≤ (m.consumes v dop).toNat := by
    unfold provides consumes
    rw [hwaits]
    cases decide (m.wakes op = v) <;> simp [Bool.toNat_le]
  have hshared : s₂.shared = s.shared := rfl
  unfold Covered at h ⊢
  rw [hshared]
  omega

/-- Every step keeps the units covered, if its body does. -/
theorem Covered.step (h : m.Covered v avail s) (ht : m.Trans s a s')
    (hwaits : ∀ op, m.waitsOn op = v → m.ready op s.shared = false → avail s.shared = 0)
    (hcovers : ∀ (i : ℕ) (c : Call ω τ), a = .act i → s.threads[i]? = some (some c) →
      c.point = .acting → m.Covers v avail s c.op) : m.Covered v avail s' := by
  cases ht with
  | call hout => exact h.of_set hout rfl rfl (by simp [waiting, providing]) (by simp)
  | @acquire i c timedOut hc hat hfree =>
    rcases hat with ⟨hat, -⟩ | hat
    · exact h.of_set hc rfl rfl (by simp [waiting, providing, hat]) (by simp [woken, owing, hat])
    · exact h.of_set hc rfl rfl (by simp [waiting, providing, hat])
        (by simp [woken, owing, consumes, hat])
  | testReady hc hat hready =>
    exact h.of_set hc rfl rfl (by simp [waiting, providing, hat]) (by simp [woken, owing, hat])
  | @testTimeout i c hc hat hready =>
    by_cases hv : m.waitsOn c.op = v
    · refine Or.inr ?_
      change avail s.shared ≤ _
      rw [hwaits _ hv hready]
      exact Nat.zero_le _
    · exact h.of_set hc rfl rfl (by simp [waiting, providing, hat])
        (by simp [woken, owing, consumes, hat, hv])
  | @testBlock i c hc hat hready =>
    by_cases hv : m.waitsOn c.op = v
    · refine Or.inr ?_
      change avail s.shared ≤ _
      rw [hwaits _ hv hready]
      exact Nat.zero_le _
    · exact h.of_set hc rfl rfl (by simp [waiting, providing, hat, hv])
        (by simp [woken, owing, consumes, hat, hv])
  | @act i c hc hat =>
    exact h.of_act hc hat rfl rfl (hcovers i c rfl hc hat)
  | @notifyAll i c hc hat hall =>
    by_cases hv : m.wakes c.op = v
    · refine Or.inl (Nat.le_trans (Nat.le_of_eq (count_eq_zero fun j d hd => ?_)) (Nat.zero_le _))
      rw [← hv]
      exact waiting_of_notifyAll hd
    · exact (h.of_wakeIf hv).of_set (getElem?_wakeIf hc hat) rfl rfl
        (by simp [waiting, providing, provides, hv]) (by simp [woken, owing, provides, hat, hv])
  | @notifyNone i c hc hat hall hnone =>
    by_cases hv : m.wakes c.op = v
    · refine Or.inl (Nat.le_trans (Nat.le_of_eq (count_eq_zero fun j d hd => ?_)) (Nat.zero_le _))
      rcases of_getElem?_set hd with ⟨-, hdone⟩ | ⟨-, hold⟩
      · cases hdone
        rfl
      · rw [← hv]
        have hd := List.any_eq_false.mp hnone (some d) (List.mem_of_getElem? hold)
        exact Bool.eq_false_iff.mpr hd
    · exact h.of_set hc rfl rfl (by simp [waiting, providing, provides, hv])
        (by simp [woken, owing, provides, hat, hv])
  | notifyOne hc hat hall hd hwaiting => exact h.of_notifyOne hc hat hd hwaiting
  | unlock hc hat =>
    exact h.of_set hc rfl rfl (by simp [waiting, providing, hat]) (by simp [woken, owing, hat])
  | wake hc hat =>
    exact h.of_set hc rfl rfl (by simp [waiting, providing, hat]) (by simp [woken, owing, hat])

/-- Before the first step nobody is blocked. -/
theorem covered_init (v : χ) (avail : σ → ℕ) (shared : σ) (n : ℕ) :
    m.Covered v avail (init shared n) := by
  refine Or.inl ?_
  rw [count_init]
  exact Nat.zero_le _

/-- Whenever the mutex is free and a thread waits, what is available has woken threads on their way
to it. -/
theorem Covered.of_free (h : m.Covered v avail s) {s₀ : σ} (hinv : m.Inv s₀ s)
    (hfree : s.holder = none) {c : Call ω τ} (hc : s.threads[i]? = some (some c))
    (hwaiting : m.waiting v c = true) : avail s.shared ≤ s.count (m.woken v) := by
  have hpos : 0 < s.count (m.waiting v) := count_pos hc hwaiting
  have hproviding : s.count (m.providing v) = 0 := by
    refine hinv.count_eq_zero hfree fun c hc => ?_
    simp only [providing, Bool.and_eq_true, decide_eq_true_eq] at hc
    rw [hc.1]
    rfl
  have howing : s.count (m.owing v) = 0 := by
    refine hinv.count_eq_zero hfree fun c hc => ?_
    unfold owing at hc
    split at hc <;> simp_all [Point.holds]
  unfold Covered at h
  rw [hproviding, howing] at h
  omega

end Covered

/-! ### Predicates -/

section Informed

variable {m} {v : χ} {s s' : State σ ω τ} {a : Action ω} {i : ℕ}

/-- A step that leaves the shared state alone and replaces the entry of one thread, which neither
blocks it with a true predicate nor was to announce one. -/
theorem Informed.of_set (h : m.Informed v s) {x y : Option (Call ω τ)}
    (hx : s.threads[i]? = some x) (hs : s'.threads = s.threads.set i y)
    (hshared : s'.shared = s.shared) (hquiet : x.any (m.announcing v) = false)
    (hblocked : ∀ c, y = some c → m.waiting v c = true → m.ready c.op s.shared = false) :
    m.Informed v s' := by
  intro j c hc hwaiting hready
  rw [hs] at hc
  rw [hshared] at hready
  rcases of_getElem?_set hc with ⟨-, hy⟩ | ⟨-, hold⟩
  · rw [hblocked c hy hwaiting] at hready
    cases hready
  · have hcount := count_set hx hs (m.announcing v)
    rw [hquiet] at hcount
    have hpos := h j c hold hwaiting hready
    have hfalse : false.toNat = 0 := rfl
    omega

/-- Waking threads keeps those informed that stay blocked. -/
theorem Informed.of_wakeIf (h : m.Informed v s) (u : χ) :
    m.Informed v { s with threads := s.threads.map (Option.map (m.wakeIf u)) } := by
  intro j d hd hwaiting hready
  rw [List.getElem?_map] at hd
  obtain ⟨x, hx, hmap⟩ := Option.map_eq_some_iff.mp hd
  obtain ⟨e, rfl, rfl⟩ := Option.map_eq_some_iff.mp hmap
  have hsame : m.wakeIf u e = e := by
    unfold wakeIf at hwaiting ⊢
    split at hwaiting
    · cases hwaiting
    · exact if_neg ‹_›
  rw [hsame] at hwaiting hready
  rw [count_wakeIf]
  · exact h j e hx hwaiting hready
  · intro c
    unfold wakeIf
    split
    · rename_i hc
      simp [announcing, point_of_waiting hc]
    · rfl

/-- The body keeps the blocked threads informed, since it is followed by the announcement of what it
makes true. -/
theorem Informed.of_act (h : m.Informed v s) (hannounces : m.Announces v) {c : Call ω τ} {slot : τ}
    (hc : s.threads[i]? = some (some c)) (hat : c.point = .acting)
    (hs : s'.threads = s.threads.set i (some { c with slot := slot, point := .notifying }))
    (hshared : s'.shared = (m.body c.op s.shared).1) : m.Informed v s' := by
  intro j d hd hwaiting hready
  rw [hs] at hd
  rw [hshared] at hready
  rcases of_getElem?_set hd with ⟨-, hdone⟩ | ⟨hne, hold⟩
  · cases hdone
    cases hwaiting
  · have hcount := count_set hc hs (m.announcing v)
    have hquiet : (some c).any (m.announcing v) = false := by simp [announcing, hat]
    rw [hquiet] at hcount
    have hfalse : false.toNat = 0 := rfl
    cases hbefore : m.ready d.op s.shared with
    | true =>
      have hpos := h j d hold hwaiting hbefore
      omega
    | false =>
      simp only [waiting, Bool.and_eq_true, decide_eq_true_eq] at hwaiting
      obtain ⟨hall, hwakes⟩ := hannounces c.op d.op s.shared hwaiting.2 hbefore hready
      have hmine : (some { c with slot := slot, point := Point.notifying }).any
          (m.announcing v) = true := by simp [announcing, hall, hwakes]
      rw [hmine] at hcount
      have htrue : true.toNat = 1 := rfl
      omega

/-- Every step keeps the blocked threads informed. -/
theorem Informed.step (h : m.Informed v s) (hannounces : m.Announces v) (ht : m.Trans s a s') :
    m.Informed v s' := by
  cases ht with
  | call hout => exact h.of_set hout rfl rfl rfl (by rintro c ⟨⟩ ⟨⟩)
  | acquire hc hat hfree =>
    refine h.of_set hc rfl rfl ?_ (by rintro c ⟨⟩ ⟨⟩)
    rcases hat with ⟨hat, -⟩ | hat <;> simp [announcing, hat]
  | testReady hc hat hready | testTimeout hc hat hready =>
    exact h.of_set hc rfl rfl (by simp [announcing, hat]) (by rintro c ⟨⟩ ⟨⟩)
  | testBlock hc hat hready =>
    refine h.of_set hc rfl rfl (by simp [announcing, hat]) ?_
    rintro c ⟨⟩ -
    exact hready
  | act hc hat => exact h.of_act hannounces hc hat rfl rfl
  | @notifyAll i c hc hat hall =>
    by_cases hv : m.wakes c.op = v
    · intro j d hd hwaiting
      rw [← hv, waiting_of_notifyAll hd] at hwaiting
      cases hwaiting
    · refine (h.of_wakeIf _).of_set (getElem?_wakeIf hc hat) rfl rfl ?_ (by rintro c ⟨⟩ ⟨⟩)
      simp [announcing, hv]
  | notifyNone hc hat hall hnone =>
    exact h.of_set hc rfl rfl (by simp [announcing, hall]) (by rintro c ⟨⟩ ⟨⟩)
  | @notifyOne i j c d hc hat hall hd hwaiting =>
    have hne : j ≠ i := by
      rintro rfl
      cases hc.symm.trans hd
      rw [point_of_waiting hwaiting] at hat
      cases hat
    have hwoken : m.Informed v (s.move j { d with point := .woken false }) :=
      h.of_set hd rfl rfl (by simp [announcing, point_of_waiting hwaiting]) (by rintro c ⟨⟩ ⟨⟩)
    exact hwoken.of_set ((List.getElem?_set_ne hne).trans hc) rfl rfl (by simp [announcing, hall])
      (by rintro c ⟨⟩ ⟨⟩)
  | unlock hc hat => exact h.of_set hc rfl rfl (by simp [announcing, hat]) (by rintro c ⟨⟩)
  | wake hc hat => exact h.of_set hc rfl rfl (by simp [announcing, hat]) (by rintro c ⟨⟩ ⟨⟩)

/-- Before the first step nobody is blocked. -/
theorem informed_init (v : χ) (shared : σ) (n : ℕ) : m.Informed v (init shared n) := by
  intro i c hc
  have hnone := (List.mem_replicate.mp (List.mem_of_getElem? hc)).2
  cases hnone

/-- With the mutex free no thread is blocked whose predicate is true. -/
theorem Informed.of_free (h : m.Informed v s) {s₀ : σ} (hinv : m.Inv s₀ s)
    (hfree : s.holder = none) {c : Call ω τ} (hc : s.threads[i]? = some (some c))
    (hwaiting : m.waiting v c = true) : m.ready c.op s.shared = false := by
  have hannouncing : s.count (m.announcing v) = 0 := by
    refine hinv.count_eq_zero hfree fun c hc => ?_
    simp only [announcing, Bool.and_eq_true, decide_eq_true_eq] at hc
    rw [hc.1.1]
    rfl
  refine Bool.eq_false_iff.mpr fun hready => ?_
  have hpos := h i c hc hwaiting hready
  omega

end Informed

end Monitor

end Ngp
