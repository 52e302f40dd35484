import Mathlib.Data.List.Basic
import Mathlib.Algebra.GroupWithZero.Nat
import Mathlib.Algebra.BigOperators.Group.List.Basic
import NgpEncodeServer.Foundation.Machine

/-!
# Simulation, bounded work and progress

Three rules about whole runs.  A forward simulation carries a run of one machine over to a run of
another one.  A measure that the inner steps of a machine decrease, while a step of the environment
adds at most its cost, bounds the number of inner steps of every run.  And if some step decreases
the measure as long as a goal is not reached, then there is a run that reaches it.
-/

namespace Ngp

namespace Machine

variable {σ τ α β : Type*} {m : Machine σ α} {m' : Machine τ β}

/-- A step is a run. -/
theorem run_single {s s' : σ} {a : α} (h : m s a = some s') : m.run s [a] = some s' := by
  rw [run_cons, h]
  rfl

/-- A forward simulation: every step is matched by a run. -/
theorem exists_run_of_simulation {R : σ → τ → Prop} {s₀ : σ} {t₀ : τ} (hinit : R s₀ t₀)
    (hstep : ∀ s a s' t, R s t → m s a = some s' → ∃ bs t', m'.run t bs = some t' ∧ R s' t')
    {as : List α} {s : σ} (hrun : m.run s₀ as = some s) :
    ∃ bs t, m'.run t₀ bs = some t ∧ R s t := by
  refine run_induction (m := m) (P := fun _ s => ∃ bs t, m'.run t₀ bs = some t ∧ R s t)
    ⟨[], t₀, rfl, hinit⟩ ?_ hrun
  rintro as s a s' - ⟨bs, t, hbs, hR⟩ hlast
  obtain ⟨bs', t', hbs', hR'⟩ := hstep s a s' t hR hlast
  exact ⟨bs ++ bs', t', run_trans m' hbs hbs', hR'⟩

/-- A projection under which every step is a step of the other machine, or no step at all. -/
theorem run_filterMap_of_projection {π : σ → τ} {f : α → Option β} {s₀ : σ}
    (hnone : ∀ s a s', m s a = some s' → f a = none → π s' = π s)
    (hsome : ∀ s a s' b, m s a = some s' → f a = some b → m' (π s) b = some (π s'))
    {as : List α} {s : σ} (hrun : m.run s₀ as = some s) :
    m'.run (π s₀) (as.filterMap f) = some (π s) := by
  refine run_induction (m := m) (P := fun as s => m'.run (π s₀) (as.filterMap f) = some (π s))
    rfl ?_ hrun
  intro as s a s' _ ih hlast
  rw [List.filterMap_append]
  cases hf : f a with
  | none =>
    rw [List.filterMap_cons_none hf, List.filterMap_nil, List.append_nil, ih]
    exact congrArg some (hnone s a s' hlast hf).symm
  | some b =>
    rw [List.filterMap_cons_some hf, List.filterMap_nil]
    exact (run_concat_eq_some_iff m').mpr ⟨π s, ih, hsome s a s' b hlast hf⟩

variable {I : σ → Prop} {work : σ → ℕ}

/-- If every inner step takes at least one unit of work away and every other step adds at most its
cost, then a run has at most as many inner steps as there is work at its start and in its costs. -/
theorem work_add_countP_le {inner : α → Bool} {cost : α → ℕ}
    (hI : ∀ s a s', I s → m s a = some s' → I s')
    (hstep : ∀ s a s', I s → m s a = some s' → work s' + (inner a).toNat ≤ work s + cost a)
    {s s' : σ} {as : List α} (hs : I s) (hrun : m.run s as = some s') :
    work s' + as.countP inner ≤ work s + (as.map cost).sum := by
  have hboth : I s' ∧ work s' + as.countP inner ≤ work s + (as.map cost).sum := by
    refine run_induction (m := m)
      (P := fun as s' => I s' ∧ work s' + as.countP inner ≤ work s + (as.map cost).sum)
      ⟨hs, Nat.le_refl _⟩ ?_ hrun
    rintro as s₁ a s₂ - ⟨hI₁, ih⟩ hlast
    refine ⟨hI s₁ a s₂ hI₁ hlast, ?_⟩
    have hcount : (as ++ [a]).countP inner = as.countP inner + (inner a).toNat := by
      cases hinner : inner a <;> simp [hinner]
    have hsum : ((as ++ [a]).map cost).sum = (as.map cost).sum + cost a := by simp
    have := hstep s₁ a s₂ hI₁ hlast
    omega
  exact hboth.2

/-- If some run of allowed steps takes work away as long as the goal is not reached, then a run of
allowed steps reaches the goal. -/
theorem exists_run_of_runs {goal : σ → Prop} {allowed : α → Prop}
    (hruns : ∀ s, I s → ¬goal s →
      ∃ as s', (∀ a ∈ as, allowed a) ∧ m.run s as = some s' ∧ I s' ∧ work s' < work s)
    {s : σ} (hs : I s) :
    ∃ as s', m.run s as = some s' ∧ (∀ a ∈ as, allowed a) ∧ I s' ∧ goal s' := by
  induction hn : work s using Nat.strongRecOn generalizing s with
  | ind n ih =>
    by_cases hgoal : goal s
    · exact ⟨[], s, rfl, by simp, hs, hgoal⟩
    · obtain ⟨as, s₁, has, hrun, hs₁, hlt⟩ := hruns s hs hgoal
      obtain ⟨bs, s', hrun', hbs, hs', hgoal'⟩ := ih (work s₁) (hn ▸ hlt) hs₁ rfl
      refine ⟨as ++ bs, s', run_trans m hrun hrun', ?_, hs', hgoal'⟩
      exact List.forall_mem_append.mpr ⟨has, hbs⟩

/-- If some allowed step takes work away as long as the goal is not reached, then a run of allowed
steps reaches the goal. -/
theorem exists_run_of_progress {goal : σ → Prop} {allowed : α → Prop}
    (hstep : ∀ s, I s → ¬goal s →
      ∃ a s', allowed a ∧ m s a = some s' ∧ I s' ∧ work s' < work s)
    {s : σ} (hs : I s) :
    ∃ as s', m.run s as = some s' ∧ (∀ a ∈ as, allowed a) ∧ I s' ∧ goal s' := by
  refine @exists_run_of_runs σ α m I work goal allowed (fun s hI hgoal => ?_) s hs
  obtain ⟨a, s', ha, hlast, hI', hlt⟩ := hstep s hI hgoal
  exact ⟨[a], s', by simpa using ha, run_single hlast, hI', hlt⟩

end Machine

end Ngp
