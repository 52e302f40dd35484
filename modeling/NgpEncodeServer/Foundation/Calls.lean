import Mathlib.Logic.Function.Basic
import NgpEncodeServer.Foundation.Monitor

/-!
# What the callers of a monitor see

A program that uses a monitor does not look into it: of each of its threads it knows which operation
the thread has called, `State.opAt`, and whether the result of the call is fixed, `State.entryAt`.
`Effect` says what a step of the monitor means in these terms.  A call begins, its result is fixed
when it runs its body or gives up, and it returns with this result; every other step changes nothing
that a caller can see.
-/

namespace Ngp

namespace Monitor

variable {σ ω τ χ : Type*}

/-- A step that begins a call begins one that the caller may make. -/
def Action.callsOnly (a : Action ω) (P : ℕ → ω → Bool) : Bool :=
  match a with
  | .call i op => P i op
  | _ => true

/-- The operation that the thread has called. -/
def State.opAt (s : State σ ω τ) (i : ℕ) : Option ω :=
  match s.threads[i]? with
  | some (some c) => some c.op
  | _ => none

/-- One call as one step of the shared state: it runs its body when its predicate holds, and it
gives up and changes nothing when it does not. -/
inductive Settles (m : Monitor σ ω τ χ) (shared : σ) : Entry ω τ → σ → Prop
  | acts {op : ω} (hready : m.ready op shared = true) :
      Settles m shared ⟨op, (m.body op shared).2, true⟩ (m.body op shared).1
  | givesUp {op : ω} (hready : m.ready op shared = false) :
      Settles m shared ⟨op, m.slot op, false⟩ shared

/-- What a step means to the callers. -/
inductive Effect (m : Monitor σ ω τ χ) (s : State σ ω τ) : Action ω → State σ ω τ → Prop
  | begins {i : ℕ} {op : ω} {s' : State σ ω τ} (hshared : s'.shared = s.shared)
      (hlog : s'.log = s.log) (hop : s'.opAt = Function.update s.opAt i (some op))
      (hentry : s'.entryAt = s.entryAt) : Effect m s (.call i op) s'
  | settles {a : Action ω} {e : Entry ω τ} {s' : State σ ω τ} (hcall : ∀ i op, a ≠ .call i op)
      (hunlock : ∀ i, a ≠ .unlock i) (hat : s.opAt a.thread = some e.op)
      (hsettles : m.Settles s.shared e s'.shared) (hlog : s'.log = s.log ++ [e])
      (hop : s'.opAt = s.opAt) (hnone : s.entryAt a.thread = [])
      (hentry : s'.entryAt = Function.update s.entryAt a.thread [e]) : Effect m s a s'
  | returns {i : ℕ} {e : Entry ω τ} {s' : State σ ω τ} (hat : s.opAt i = some e.op)
      (hshared : s'.shared = s.shared) (hlog : s'.log = s.log)
      (hop : s'.opAt = Function.update s.opAt i none) (hsome : s.entryAt i = [e])
      (hentry : s'.entryAt = Function.update s.entryAt i []) : Effect m s (.unlock i) s'
  | quiet {a : Action ω} {s' : State σ ω τ} (hcall : ∀ i op, a ≠ .call i op)
      (hunlock : ∀ i, a ≠ .unlock i) (hshared : s'.shared = s.shared) (hlog : s'.log = s.log)
      (hop : s'.opAt = s.opAt) (hentry : s'.entryAt = s.entryAt) : Effect m s a s'

variable [DecidableEq χ] {m : Monitor σ ω τ χ} {s₀ : σ} {s s' : State σ ω τ} {a : Action ω}
  {i : ℕ} {c : Call ω τ}

omit [DecidableEq χ] in
/-- The operation of a call. -/
theorem State.opAt_of_call (hc : s.threads[i]? = some (some c)) : s.opAt i = some c.op := by
  simp only [State.opAt, hc]

omit [DecidableEq χ] in
/-- A thread outside the monitor has called nothing. -/
theorem State.opAt_of_outside (hc : s.threads[i]? = some none) : s.opAt i = none := by
  simp only [State.opAt, hc]

omit [DecidableEq χ] in
/-- A thread outside the monitor has no result. -/
theorem State.entryAt_of_outside (hc : s.threads[i]? = some none) : s.entryAt i = [] := by
  simp only [State.entryAt, hc]

/-- A step of another thread does not change what a thread has called. -/
theorem Trans.opAt_of_ne (h : m.Trans s a s') {j : ℕ} (hj : j ≠ a.thread) :
    s'.opAt j = s.opAt j := by
  unfold State.opAt
  rcases h.getElem?_of_ne hj with hsame | ⟨d, hd, -, hwoken⟩
  · rw [hsame]
  · rw [hd, hwoken]

/-- What a step does to what the threads have called is what it does to its own thread. -/
theorem Trans.opAt_eq (h : m.Trans s a s') {op : Option ω} (hself : s'.opAt a.thread = op) :
    s'.opAt = Function.update s.opAt a.thread op := by
  funext j
  by_cases hj : j = a.thread
  · rw [hj, Function.update_self, hself]
  · rw [Function.update_of_ne hj, h.opAt_of_ne hj]

/-- What a step does to the results is what it does to that of its own thread. -/
theorem Trans.entryAt_eq (h : m.Trans s a s') {es : List (Entry ω τ)}
    (hself : s'.entryAt a.thread = es) :
    s'.entryAt = Function.update s.entryAt a.thread es := by
  funext j
  by_cases hj : j = a.thread
  · rw [hj, Function.update_self, hself]
  · rw [Function.update_of_ne hj, h.entryAt_of_ne hj]

/-- A step of a thread that stays in its call and has no new result. -/
theorem Trans.quiet (h : m.Trans s a s') {c' : Call ω τ}
    (hc : s.threads[a.thread]? = some (some c)) (hc' : s'.threads[a.thread]? = some (some c'))
    (hop : c'.op = c.op) (hentry : c'.entry = c.entry) :
    s'.opAt = s.opAt ∧ s'.entryAt = s.entryAt := by
  have hop' := h.opAt_eq (State.opAt_of_call hc')
  have hentry' := h.entryAt_eq (State.entryAt_of_call hc')
  rw [hop, ← State.opAt_of_call hc, Function.update_eq_self] at hop'
  rw [hentry, ← State.entryAt_of_call hc, Function.update_eq_self] at hentry'
  exact ⟨hop', hentry'⟩

/-- What every step means to the callers. -/
theorem Inv.effect (hinv : m.Inv s₀ s) (h : m.Trans s a s') : Effect m s a s' := by
  have hlt := h.thread_lt
  have hstep := h
  cases h with
  | @call i op hout =>
    have hself := List.getElem?_set_self (a := some (⟨op, m.slot op, .locking⟩ : Call ω τ)) hlt
    have hop := hstep.opAt_eq (State.opAt_of_call hself)
    have hentry := hstep.entryAt_eq (State.entryAt_of_call hself)
    have hnone : s.entryAt i = [] := State.entryAt_of_outside hout
    refine .begins rfl rfl hop ?_
    rw [hentry]
    exact (congrArg (Function.update s.entryAt i) hnone.symm).trans (Function.update_eq_self _ _)
  | @act i c hc hat =>
    have hself := List.getElem?_set_self (a := some
      { c with slot := (m.body c.op s.shared).2, point := .notifying }) hlt
    have hop := hstep.opAt_eq (State.opAt_of_call hself)
    have hentry := hstep.entryAt_eq (State.entryAt_of_call hself)
    refine .settles (e := ⟨c.op, (m.body c.op s.shared).2, true⟩) (by simp) (by simp)
      (State.opAt_of_call hc) (.acts (hinv.ready i c hc hat)) rfl ?_ ?_ hentry
    · rw [hop]
      exact (congrArg (Function.update s.opAt i) (State.opAt_of_call hc).symm).trans
        (Function.update_eq_self _ _)
    · change s.entryAt i = []
      rw [State.entryAt_of_call hc, Call.entry, hat]
  | @testTimeout i c hc hat hready =>
    have hself := List.getElem?_set_self (a := some { c with point := .unlocking false }) hlt
    have hop := hstep.opAt_eq (State.opAt_of_call hself)
    have hentry := hstep.entryAt_eq (State.entryAt_of_call hself)
    have hslot : c.slot = m.slot c.op := hinv.slot i c hc (by rw [hat]; rfl)
    have hsettles : m.Settles s.shared ⟨c.op, c.slot, false⟩ s.shared := by
      rw [hslot]
      exact .givesUp hready
    refine .settles (e := ⟨c.op, c.slot, false⟩) (by simp) (by simp) (State.opAt_of_call hc)
      hsettles rfl ?_ ?_ hentry
    · rw [hop]
      exact (congrArg (Function.update s.opAt i) (State.opAt_of_call hc).symm).trans
        (Function.update_eq_self _ _)
    · change s.entryAt i = []
      rw [State.entryAt_of_call hc, Call.entry, hat]
  | @unlock i c ok hc hat =>
    have hself : (s.threads.set i none)[i]? = some none := List.getElem?_set_self hlt
    have hsome : s.entryAt i = [⟨c.op, c.slot, ok⟩] := by
      rw [State.entryAt_of_call hc, Call.entry, hat]
    exact .returns (State.opAt_of_call hc) rfl rfl
      (hstep.opAt_eq (State.opAt_of_outside hself)) hsome
      (hstep.entryAt_eq (State.entryAt_of_outside hself))
  | @acquire i c timedOut hc hat hfree =>
    obtain ⟨hop, hentry⟩ := hstep.quiet hc (List.getElem?_set_self hlt) rfl (by
      rcases hat with ⟨hat, -⟩ | hat <;> simp [Call.entry, hat])
    exact .quiet (by simp) (by simp) rfl rfl hop hentry
  | testReady hc hat | testBlock hc hat | wake hc hat =>
    obtain ⟨hop, hentry⟩ := hstep.quiet hc (List.getElem?_set_self hlt) rfl (by
      simp [Call.entry, hat])
    exact .quiet (by simp) (by simp) rfl rfl hop hentry
  | notifyAll | notifyNone | notifyOne =>
    obtain ⟨c, hc, hat, hdone, hlog, -⟩ := hstep.of_notify rfl
    obtain ⟨hop, hentry⟩ := hstep.quiet hc hdone rfl (by simp [Call.entry, hat])
    exact .quiet (by simp) (by simp) rfl hlog hop hentry

omit [DecidableEq χ] in
/-- Every call in progress is one the caller may make, if it was before the step or the step has
just made it. -/
theorem Effect.calls {P : ℕ → ω → Prop} (h : Effect m s a s')
    (hold : ∀ i op, s.opAt i = some op → P i op) (hnew : ∀ i op, a = .call i op → P i op) :
    ∀ i op, s'.opAt i = some op → P i op := by
  intro j op' hj
  cases h with
  | @begins i op s' hshared hlog hop =>
    rw [hop] at hj
    by_cases hji : j = i
    · subst hji
      rw [Function.update_self] at hj
      exact hnew j op' (by rw [Option.some.inj hj])
    · rw [Function.update_of_ne hji] at hj
      exact hold j op' hj
  | @returns i e s' hat hshared hlog hop =>
    rw [hop] at hj
    by_cases hji : j = i
    · rw [hji, Function.update_self] at hj
      cases hj
    · rw [Function.update_of_ne hji] at hj
      exact hold j op' hj
  | settles _ _ _ _ _ hop | quiet _ _ _ _ hop =>
    rw [hop] at hj
    exact hold j op' hj

omit [DecidableEq χ] in
/-- A thread that releases the mutex on its way out returns with its result. -/
theorem Effect.of_unlock (h : Effect m s (.unlock i) s') :
    ∃ e, s.opAt i = some e.op ∧ s.entryAt i = [e] ∧ s'.opAt i = none := by
  cases h with
  | @returns _ e _ hat _ _ hop hsome =>
    exact ⟨e, hat, hsome, by rw [hop, Function.update_self]⟩
  | settles _ hunlock | quiet _ hunlock => exact absurd rfl (hunlock i)

omit [DecidableEq χ] in
/-- A thread whose result is fixed has called something. -/
theorem State.entryAt_of_opAt_eq_none (h : s.opAt i = none) : s.entryAt i = [] := by
  unfold State.opAt at h
  unfold State.entryAt
  split
  · rename_i c hc
    rw [hc] at h
    cases h
  · rfl

omit [DecidableEq χ] in
/-- Nothing has been called at the start. -/
theorem opAt_init (n i : ℕ) : (init (ω := ω) (τ := τ) s₀ n).opAt i = none := by
  unfold State.opAt
  split
  · rename_i c hc
    have hmem : some c ∈ List.replicate n (none : Option (Call ω τ)) := List.mem_of_getElem? hc
    cases (List.mem_replicate.mp hmem).2
  · rfl

omit [DecidableEq χ] in
/-- There are no results at the start. -/
theorem entryAt_init (n i : ℕ) : (init (ω := ω) (τ := τ) s₀ n).entryAt i = [] := by
  unfold State.entryAt
  split
  · rename_i c hc
    have hmem : some c ∈ List.replicate n (none : Option (Call ω τ)) := List.mem_of_getElem? hc
    cases (List.mem_replicate.mp hmem).2
  · rfl

end Monitor

end Ngp
