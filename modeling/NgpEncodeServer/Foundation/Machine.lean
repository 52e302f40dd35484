import Mathlib.Data.List.Induction

/-!
# Machines driven by actions

A `Machine σ α` is a partial step function: in the state `s` the action `a` is either enabled and
leads to the state `m s a = some s'`, or it is not enabled.  All the nondeterminism of a system
(scheduling, the outcome of a system call, the reply of a peer) sits in the choice of the action,
so a run is a list of actions and can be evaluated.

`run` executes a list of actions, `guarded` keeps only the steps that satisfy a condition on the
state before the step and the action, and `run_induction`, `run_invariant` and their counterparts
for guarded runs carry what one step preserves over to whole runs.
-/

namespace Ngp

/-- A machine with states `σ` driven by actions `α`: `none` means that the action is not enabled. -/
def Machine (σ α : Type*) : Type _ := σ → α → Option σ

namespace Machine

variable {σ α : Type*} (m : Machine σ α)

/-- Execute a list of actions, each of which has to be enabled when its turn comes. -/
def run (s : σ) : List α → Option σ
  | [] => some s
  | a :: as => (m s a).bind fun s' => run s' as

/-- No action is enabled. -/
def Stuck (s : σ) : Prop := ∀ a, m s a = none

@[simp] theorem run_nil (s : σ) : m.run s [] = some s := rfl

theorem run_cons (s : σ) (a : α) (as : List α) :
    m.run s (a :: as) = (m s a).bind fun s' => m.run s' as := rfl

/-- A run splits at every point of its action list. -/
theorem run_append (s : σ) (as bs : List α) :
    m.run s (as ++ bs) = (m.run s as).bind fun s' => m.run s' bs := by
  induction as generalizing s with
  | nil => rfl
  | cons a as ih =>
    rw [List.cons_append, run_cons, run_cons]
    cases m s a with
    | none => rfl
    | some s' => exact ih s'

/-- The last step of a run. -/
theorem run_concat_eq_some_iff {s s'' : σ} {as : List α} {a : α} :
    m.run s (as ++ [a]) = some s'' ↔ ∃ s', m.run s as = some s' ∧ m s' a = some s'' := by
  rw [run_append, Option.bind_eq_some_iff]
  simp [run_cons]

/-- Where the last action of a list is when the list is split at an action `b`: it is `b`, or it is
the last one after `b`. -/
theorem concat_eq_append_cons {as pre post : List α} {a b : α}
    (h : as ++ [a] = pre ++ b :: post) :
    (as = pre ∧ a = b ∧ post = []) ∨ ∃ post', post = post' ++ [a] ∧ as = pre ++ b :: post' := by
  rcases List.eq_nil_or_concat post with rfl | ⟨post', c, rfl⟩
  · obtain ⟨rfl, hab⟩ := List.append_inj' h rfl
    exact Or.inl ⟨rfl, List.singleton_inj.mp hab, rfl⟩
  · rw [List.concat_eq_append, ← List.cons_append, ← List.append_assoc] at h
    obtain ⟨rfl, hac⟩ := List.append_inj' h rfl
    obtain rfl := List.singleton_inj.mp hac
    exact Or.inr ⟨post', List.concat_eq_append, rfl⟩

/-- Two runs in a row are a run. -/
theorem run_trans {s s' s'' : σ} {as bs : List α} (h : m.run s as = some s')
    (h' : m.run s' bs = some s'') : m.run s (as ++ bs) = some s'' := by
  rw [run_append, h]
  exact h'

variable {m}

/-- Induction over runs: a property of the actions performed so far and of the state reached holds
along every run if it holds at the start and every step preserves it. -/
theorem run_induction {s₀ : σ} {P : List α → σ → Prop} (hinit : P [] s₀)
    (hstep : ∀ as s a s', m.run s₀ as = some s → P as s → m s a = some s' → P (as ++ [a]) s')
    {as : List α} {s : σ} (hrun : m.run s₀ as = some s) : P as s := by
  induction as using List.reverseRecOn generalizing s with
  | nil =>
    obtain rfl : s₀ = s := by simpa using hrun
    exact hinit
  | append_singleton as a ih =>
    obtain ⟨s₁, hrun₁, hlast⟩ := (run_concat_eq_some_iff m).mp hrun
    exact hstep as s₁ a s hrun₁ (ih hrun₁) hlast

/-- An invariant of the steps that holds at the start holds in every state reached. -/
theorem run_invariant {s₀ : σ} {I : σ → Prop} (hinit : I s₀)
    (hstep : ∀ s a s', I s → m s a = some s' → I s') {as : List α} {s : σ}
    (hrun : m.run s₀ as = some s) : I s :=
  run_induction (P := fun _ s => I s) hinit (fun _ s a s' _ hI h => hstep s a s' hI h) hrun

/-! ### Counting steps -/

section Count

variable (m) (P : σ → α → Bool)

/-- The number of steps of a run that satisfy `P`, which sees the state before the step. -/
def countSteps (s : σ) : List α → ℕ
  | [] => 0
  | a :: as => (P s a).toNat + ((m s a).map fun s' => countSteps s' as).getD 0

@[simp] theorem countSteps_nil (s : σ) : m.countSteps P s [] = 0 := rfl

variable {m P}

/-- What the last step of a run adds to the count. -/
theorem countSteps_concat {s s' : σ} {as : List α} (hrun : m.run s as = some s') (a : α) :
    m.countSteps P s (as ++ [a]) = m.countSteps P s as + (P s' a).toNat := by
  induction as generalizing s with
  | nil =>
    obtain rfl : s = s' := Option.some.inj hrun
    cases hstep : m s a <;> simp [countSteps, hstep]
  | cons b as ih =>
    rw [run_cons] at hrun
    obtain ⟨s₁, hstep, hrest⟩ := Option.bind_eq_some_iff.mp hrun
    have htail := ih hrest
    simp only [List.cons_append, countSteps, hstep, Option.map_some, Option.getD_some, htail]
    omega

end Count

/-! ### Runs whose steps meet a condition -/

section Guarded

variable (m) (G : σ → α → Prop) [∀ s a, Decidable (G s a)]

/-- The machine restricted to the steps whose action satisfies `G` in the state before the step. -/
def guarded : Machine σ α := fun s a => if G s a then m s a else none

variable {m G}

theorem guarded_eq_some_iff {s s' : σ} {a : α} :
    m.guarded G s a = some s' ↔ G s a ∧ m s a = some s' := by
  simp [guarded]

/-- A run of the restricted machine is a run of the machine. -/
theorem run_of_run_guarded {s s' : σ} {as : List α} (h : (m.guarded G).run s as = some s') :
    m.run s as = some s' := by
  refine run_induction (m := m.guarded G) (P := fun as s' => m.run s as = some s') rfl ?_ h
  intro as s₁ a s₂ _ ih hlast
  exact (run_concat_eq_some_iff m).mpr ⟨s₁, ih, (guarded_eq_some_iff.mp hlast).2⟩

/-- Induction over runs whose steps meet the condition. -/
theorem run_guarded_induction {s₀ : σ} {P : List α → σ → Prop} (hinit : P [] s₀)
    (hstep : ∀ as s a s', m.run s₀ as = some s → P as s → G s a → m s a = some s' →
      P (as ++ [a]) s')
    {as : List α} {s : σ} (hrun : (m.guarded G).run s₀ as = some s) : P as s := by
  apply run_induction hinit _ hrun
  intro as s a s' hrun ih hlast
  obtain ⟨hguard, hlast⟩ := guarded_eq_some_iff.mp hlast
  exact hstep as s a s' (run_of_run_guarded hrun) ih hguard hlast

/-- An invariant of the steps that meet the condition. -/
theorem run_guarded_invariant {s₀ : σ} {I : σ → Prop} (hinit : I s₀)
    (hstep : ∀ s a s', I s → G s a → m s a = some s' → I s') {as : List α} {s : σ}
    (hrun : (m.guarded G).run s₀ as = some s) : I s :=
  run_guarded_induction (P := fun _ s => I s) hinit
    (fun _ s a s' _ hI hguard h => hstep s a s' hI hguard h) hrun

/-- A run whose actions satisfy the condition in every state is one of the restricted machine. -/
theorem run_guarded_of_forall {as : List α} (h : ∀ a ∈ as, ∀ s, G s a) (s : σ) :
    (m.guarded G).run s as = m.run s as := by
  induction as generalizing s with
  | nil => rfl
  | cons a as ih =>
    rw [run_cons, run_cons, guarded, if_pos (h a List.mem_cons_self s)]
    exact congrArg _ (funext fun s' => ih (fun b hb => h b (List.mem_cons_of_mem a hb)) s')

end Guarded

end Machine

end Ngp
