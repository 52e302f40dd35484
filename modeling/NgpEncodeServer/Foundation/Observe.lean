import Mathlib.Data.List.Basic
import NgpEncodeServer.Foundation.Machine

/-!
# What a run shows

`observed` collects what each step of a run shows, which may depend on the state before the step.
`run_observed` replays a run on another machine that each step is a short run of.
`perm_of_balance` is the rule for books that are kept over a run: if every step accounts for what it
gains and what it loses, then so does the run.

`recorded` lets the condition on a step look at the past of the run, and `afterLast` is the part of
the past since something last happened.

A `FeedEvent` is what a subscriber of a feed sees happen: it joins, it leaves, or something is
published.  `delivered` says what the subscriber has to get: what is published while it is joined,
in order, so that between a `join` and the next `leave` it gets everything and outside nothing.
-/

namespace Ngp

namespace Machine

variable {σ α ω : Type*} (m : Machine σ α) (f : σ → α → List ω)

/-- What the steps of a run show, in order. -/
def observed (s : σ) : List α → List ω
  | [] => []
  | a :: as => f s a ++ ((m s a).map fun s' => observed s' as).getD []

@[simp] theorem observed_nil (s : σ) : m.observed f s [] = [] := rfl

variable {m f}

/-- What a run shows after a step is put behind what that step shows. -/
theorem observed_cons {s s' : σ} {a : α} (h : m s a = some s') (as : List α) :
    m.observed f s (a :: as) = f s a ++ m.observed f s' as := by
  rw [observed, h]
  rfl

/-- What a run shows can be cut at every point. -/
theorem observed_append {s s' : σ} {as : List α} (hrun : m.run s as = some s') (bs : List α) :
    m.observed f s (as ++ bs) = m.observed f s as ++ m.observed f s' bs := by
  induction as generalizing s with
  | nil =>
    obtain rfl : s = s' := Option.some.inj hrun
    rfl
  | cons a as ih =>
    rw [run_cons] at hrun
    obtain ⟨s₁, hstep, hrest⟩ := Option.bind_eq_some_iff.mp hrun
    rw [List.cons_append, observed_cons hstep, observed_cons hstep, ih hrest, List.append_assoc]

/-- What the last step of a run adds. -/
theorem observed_concat {s s' : σ} {as : List α} (hrun : m.run s as = some s') (a : α) :
    m.observed f s (as ++ [a]) = m.observed f s as ++ f s' a := by
  rw [observed_append hrun]
  refine congrArg (m.observed f s as ++ ·) ?_
  cases hstep : m s' a with
  | none => simp [observed, hstep]
  | some s'' => rw [observed_cons hstep, observed_nil, List.append_nil]

/-- Whatever a run shows, one of its actions shows it in some state. -/
theorem exists_of_mem_observed {s : σ} {as : List α} {x : ω} (h : x ∈ m.observed f s as) :
    ∃ a ∈ as, ∃ s', x ∈ f s' a := by
  induction as generalizing s with
  | nil => cases h
  | cons a as ih =>
    rcases List.mem_append.mp h with hx | hx
    · exact ⟨a, List.mem_cons_self, s, hx⟩
    · cases hstep : m s a with
      | none => simp [hstep] at hx
      | some s' =>
        rw [hstep] at hx
        obtain ⟨b, hb, t, hbx⟩ := ih hx
        exact ⟨b, List.mem_cons_of_mem a hb, t, hbx⟩

open scoped List in
/-- If what is held after each step, with what the step loses, is what was held before it with what
the step gains, then the same is true of whole runs. -/
theorem perm_of_balance {held : σ → List ω} {gain loss : σ → α → List ω} {s₀ : σ}
    (hstep : ∀ as s a s', m.run s₀ as = some s → m s a = some s' →
      (held s' ++ loss s a).Perm (held s ++ gain s a))
    {as : List α} {s : σ} (hrun : m.run s₀ as = some s) :
    (held s ++ m.observed loss s₀ as).Perm (held s₀ ++ m.observed gain s₀ as) := by
  refine run_induction (m := m)
    (P := fun as s => (held s ++ m.observed loss s₀ as).Perm (held s₀ ++ m.observed gain s₀ as))
    (List.Perm.refl _) ?_ hrun
  intro as s a s' hrun ih hlast
  have hbalance := hstep as s a s' hrun hlast
  rw [observed_concat hrun, observed_concat hrun]
  calc
    held s' ++ (m.observed loss s₀ as ++ loss s a)
      ~ (held s' ++ loss s a) ++ m.observed loss s₀ as := by
        rw [List.append_assoc]
        exact List.perm_append_comm.append_left _
    _ ~ (held s ++ gain s a) ++ m.observed loss s₀ as := hbalance.append_right _
    _ ~ (held s ++ m.observed loss s₀ as) ++ gain s a := by
        rw [List.append_assoc, List.append_assoc]
        exact List.perm_append_comm.append_left _
    _ ~ (held s₀ ++ m.observed gain s₀ as) ++ gain s a := ih.append_right _
    _ = held s₀ ++ (m.observed gain s₀ as ++ gain s a) := List.append_assoc _ _ _

/-- A run of the machine restricted to some steps shows what a run of the machine shows. -/
theorem observed_guarded {G : σ → α → Prop} [∀ s a, Decidable (G s a)] {s s' : σ} {as : List α}
    (hrun : (m.guarded G).run s as = some s') :
    (m.guarded G).observed f s as = m.observed f s as := by
  induction as generalizing s with
  | nil => rfl
  | cons a as ih =>
    rw [run_cons] at hrun
    obtain ⟨s₁, hstep, hrest⟩ := Option.bind_eq_some_iff.mp hrun
    rw [observed_cons hstep, observed_cons (guarded_eq_some_iff.mp hstep).2, ih hrest]

variable {τ β : Type*} {m' : Machine τ β} {π : σ → τ} {g : σ → α → List β} {s₀ : σ}

/-- If every step of a machine is a short run of another one, then every run is a run of it. -/
theorem run_observed
    (hstep : ∀ as s a s', m.run s₀ as = some s → m s a = some s' →
      m'.run (π s) (g s a) = some (π s'))
    {as : List α} {s : σ} (hrun : m.run s₀ as = some s) :
    m'.run (π s₀) (m.observed g s₀ as) = some (π s) := by
  refine run_induction (m := m) (P := fun as s => m'.run (π s₀) (m.observed g s₀ as) = some (π s))
    rfl ?_ hrun
  intro as s a s' hrun ih hlast
  rw [observed_concat hrun]
  exact run_trans m' ih (hstep as s a s' hrun hlast)

/-- What the run of the other machine shows is what the steps show through their short runs. -/
theorem observed_observed {h : τ → β → List ω}
    (hstep : ∀ as s a s', m.run s₀ as = some s → m s a = some s' →
      m'.run (π s) (g s a) = some (π s') ∧ m'.observed h (π s) (g s a) = f s a)
    {as : List α} {s : σ} (hrun : m.run s₀ as = some s) :
    m'.observed h (π s₀) (m.observed g s₀ as) = m.observed f s₀ as := by
  refine run_induction (m := m)
    (P := fun as _ => m'.observed h (π s₀) (m.observed g s₀ as) = m.observed f s₀ as) rfl ?_ hrun
  intro as s a s' hrun ih hlast
  have hbefore := run_observed (fun as s a s' hrun hlast => (hstep as s a s' hrun hlast).1) hrun
  rw [observed_concat hrun, observed_concat hrun, observed_append hbefore, ih,
    (hstep as s a s' hrun hlast).2]

/-! ### The past of a run -/

variable (m) in
/-- The machine whose state carries the actions performed so far. -/
def recorded : Machine (List α × σ) α := fun r a => (m r.2 a).map fun s => (r.1 ++ [a], s)

theorem recorded_eq_some {r r' : List α × σ} {a : α} (h : m.recorded r a = some r') :
    r'.1 = r.1 ++ [a] ∧ m r.2 a = some r'.2 := by
  obtain ⟨s, hs, rfl⟩ := Option.map_eq_some_iff.mp h
  exact ⟨rfl, hs⟩

/-- Induction over runs whose steps meet a condition that looks at the past. -/
theorem run_recorded_induction {G : List α × σ → α → Prop} [∀ r a, Decidable (G r a)]
    {P : List α → σ → Prop} (hinit : P [] s₀)
    (hstep : ∀ as s a s', m.run s₀ as = some s → P as s → G (as, s) a → m s a = some s' →
      P (as ++ [a]) s')
    {as : List α} {r : List α × σ} (hrun : (m.recorded.guarded G).run ([], s₀) as = some r) :
    P as r.2 := by
  have h : r.1 = as ∧ m.run s₀ as = some r.2 ∧ P as r.2 := by
    refine run_induction (P := fun as r => r.1 = as ∧ m.run s₀ as = some r.2 ∧ P as r.2)
      ⟨rfl, rfl, hinit⟩ (fun as r a r' _ ⟨hpast, hbefore, hP⟩ h => ?_) hrun
    obtain ⟨hguard, hrecorded⟩ := guarded_eq_some_iff.mp h
    obtain ⟨hpast', hlast⟩ := recorded_eq_some hrecorded
    subst hpast
    exact ⟨hpast', (run_concat_eq_some_iff m).mpr ⟨r.2, hbefore, hlast⟩,
      hstep r.1 r.2 a r'.2 hbefore hP hguard hlast⟩
  exact h.2.2

end Machine

section AfterLast

variable {α : Type*} [DecidableEq α]

/-- The part of a list after the last `x` in it, and the whole list if there is none. -/
def afterLast (x : α) (l : List α) : List α := (l.reverse.takeWhile (· ≠ x)).reverse

/-- What one more element does to the part after the last `x`. -/
theorem afterLast_concat (x y : α) (l : List α) :
    afterLast x (l ++ [y]) = if y = x then [] else afterLast x l ++ [y] := by
  by_cases h : y = x <;> simp [afterLast, h]

/-- The last `x` of a list, with its position. -/
theorem exists_length_afterLast {x : α} {l : List α} (h : x ∈ l) :
    ∃ i, l[i]? = some x ∧ i + 1 + (afterLast x l).length = l.length := by
  induction l using List.reverseRecOn with
  | nil => cases h
  | append_singleton l y ih =>
    by_cases hy : y = x
    · exact ⟨l.length, by simp [hy], by simp [afterLast_concat, hy]⟩
    · have hmem : x ∈ l := by simpa [Ne.symm hy] using h
      obtain ⟨i, hi, hlength⟩ := ih hmem
      have hlt := (List.getElem?_eq_some_iff.mp hi).1
      refine ⟨i, (List.getElem?_append_left hlt).trans hi, ?_⟩
      simp only [afterLast_concat, hy, if_false, List.length_append, List.length_singleton]
      omega

end AfterLast

/-- What happens to one subscriber of a feed. -/
inductive FeedEvent (μ : Type*) where
  | join
  | leave
  | publish (message : μ)
  deriving DecidableEq, Repr

namespace FeedEvent

variable {μ : Type*}

/-- The subscriber is joined after the events, having been so before or not. -/
def joined (before : Bool) : List (FeedEvent μ) → Bool
  | [] => before
  | .join :: es => joined true es
  | .leave :: es => joined false es
  | .publish _ :: es => joined before es

/-- What is published while the subscriber is joined. -/
def delivered (before : Bool) : List (FeedEvent μ) → List μ
  | [] => []
  | .join :: es => delivered true es
  | .leave :: es => delivered false es
  | .publish message :: es =>
    if before then message :: delivered before es else delivered before es

/-- Everything that is published. -/
def published (es : List (FeedEvent μ)) : List μ :=
  es.filterMap fun e =>
    match e with
    | .publish message => some message
    | _ => none

variable {before : Bool} {es es' : List (FeedEvent μ)}

@[simp] theorem joined_append :
    joined before (es ++ es') = joined (joined before es) es' := by
  induction es generalizing before with
  | nil => rfl
  | cons e es ih => cases e <;> exact ih

@[simp] theorem delivered_append :
    delivered before (es ++ es') = delivered before es ++ delivered (joined before es) es' := by
  induction es generalizing before with
  | nil => rfl
  | cons e es ih =>
    cases e with
    | join | leave => exact ih
    | publish message =>
      simp only [List.cons_append, delivered, joined, ih]
      cases before <;> rfl

/-- A subscriber that stays joined gets everything that is published. -/
theorem delivered_of_forall_ne_leave (h : ∀ e ∈ es, e ≠ .leave) :
    delivered true es = published es := by
  induction es with
  | nil => rfl
  | cons e es ih =>
    rw [List.forall_mem_cons] at h
    cases e with
    | join => exact ih h.2
    | leave => exact absurd rfl h.1
    | publish message => exact congrArg (message :: ·) (ih h.2)

end FeedEvent

end Ngp
