import Mathlib.Data.Stream.Init

/-!
# Blocking calls driven by the answers of their environment

A call that keeps asking its environment (the kernel, a device, a peer) is a function of the answers
that are still to come: `Script A R` maps the list of answers to the result of the call and the
answers it has not used, or to `none` when it still waits after the last one.  That further answers
do not change a call that has returned is a field of the structure; hence a call has a result along
an infinite stream of answers (`Returns`), and so have two calls in a row.

`whileLoop` is a loop that takes one answer in each iteration and may be left by a `return`.
`returns_whileLoop` is its rule: an invariant, and a measure that goes down with every answer that
makes progress, on a stream on which progress is never made for the last time.
-/

namespace Ngp

/-- A call with result `R` that uses answers `A`. -/
structure Script (A R : Type) where
  /-- The result and the answers not used, if the call has returned after these answers. -/
  run : List A → Option (R × List A)
  /-- A call that has returned does not look at further answers. -/
  extend : ∀ {as : List A} {r : R} {rest : List A} (more : List A), run as = some (r, rest) →
    run (as ++ more) = some (r, rest ++ more)

namespace Script

variable {A R S σ : Type}

/-- The call returns `r` on the stream of answers and leaves the stream `s'`. -/
def Returns (f : Script A R) (s : Stream' A) (r : R) (s' : Stream' A) : Prop :=
  ∃ n, f.run (s.take n) = some (r, []) ∧ s' = s.drop n

/-! ### Calls in a row -/

/-- The call that returns at once. -/
def ret (r : R) : Script A R where
  run as := some (r, as)
  extend more h := by
    obtain ⟨rfl, rfl⟩ := Prod.mk.inj (Option.some.inj h)
    rfl

/-- Two calls in a row. -/
def andThen (f : Script A R) (g : R → Script A S) : Script A S where
  run as := (f.run as).bind fun p => (g p.1).run p.2
  extend more h := by
    obtain ⟨⟨r, mid⟩, hr, hq⟩ := Option.bind_eq_some_iff.mp h
    rw [f.extend more hr]
    exact (g r).extend more hq

instance : Monad (Script A) where
  pure := ret
  bind := andThen

@[simp] theorem run_pure (r : R) (as : List A) : (pure r : Script A R).run as = some (r, as) := rfl

@[simp] theorem run_bind (f : Script A R) (g : R → Script A S) (as : List A) :
    (f >>= g).run as = (f.run as).bind fun p => (g p.1).run p.2 := rfl

theorem returns_pure (r : R) (s : Stream' A) : Returns (pure r) s r s := ⟨0, rfl, rfl⟩

/-- Two calls in a row return on the answers of the first followed by those of the second. -/
theorem Returns.bind {f : Script A R} {g : R → Script A S} {s s' s'' : Stream' A} {r : R} {q : S}
    (hr : f.Returns s r s') (hq : (g r).Returns s' q s'') : (f >>= g).Returns s q s'' := by
  obtain ⟨n, hn, rfl⟩ := hr
  obtain ⟨m, hm, rfl⟩ := hq
  refine ⟨n + m, ?_, ?_⟩
  · rw [Stream'.take_add, run_bind, f.extend _ hn]
    exact hm
  · rw [Stream'.drop_drop]

/-! ### Loops -/

section Loop

variable (cond : σ → Bool) (body : σ → A → σ ⊕ R)

/-- The answers of `while (cond) body`. The result is the state in which `cond` is false, or what a
`return` in the body returns. -/
def runWhile : σ → List A → Option ((σ ⊕ R) × List A)
  | st, [] => if cond st then none else some (.inl st, [])
  | st, a :: as =>
    if cond st then
      match body st a with
      | .inl st' => runWhile st' as
      | .inr r => some (.inr r, as)
    else some (.inl st, a :: as)

variable {cond body}

theorem runWhile_of_not {st : σ} (h : cond st = false) (as : List A) :
    runWhile cond body st as = some (.inl st, as) := by
  cases as <;> simp [runWhile, h]

theorem runWhile_append {st : σ} {as : List A} {r : σ ⊕ R} {rest : List A} (more : List A)
    (h : runWhile cond body st as = some (r, rest)) :
    runWhile cond body st (as ++ more) = some (r, rest ++ more) := by
  induction as generalizing st with
  | nil =>
    cases hc : cond st with
    | true => simp [runWhile, hc] at h
    | false =>
      rw [runWhile_of_not hc] at h ⊢
      obtain ⟨rfl, rfl⟩ := Prod.mk.inj (Option.some.inj h)
      rfl
  | cons a as ih =>
    cases hc : cond st with
    | false =>
      rw [runWhile_of_not hc] at h ⊢
      obtain ⟨rfl, rfl⟩ := Prod.mk.inj (Option.some.inj h)
      rfl
    | true =>
      cases hbody : body st a with
      | inl st' =>
        simp only [List.cons_append, runWhile, hc, if_true, hbody] at h ⊢
        exact ih h
      | inr q =>
        simp only [List.cons_append, runWhile, hc, if_true, hbody] at h ⊢
        obtain ⟨rfl, rfl⟩ := Prod.mk.inj (Option.some.inj h)
        rfl

/-- How a loop ends: with the invariant `I` and a false condition, or by a `return` of a value that
satisfies `Q`. -/
def Ended (cond : σ → Bool) (I : σ → Prop) (Q : R → Prop) : σ ⊕ R → Prop
  | .inl st => I st ∧ cond st = false
  | .inr q => Q q

/-- What every iteration preserves holds when the loop has ended, on whatever answers. -/
theorem runWhile_post {I : σ → Prop} {Q : R → Prop}
    (hinl : ∀ {st a st'}, I st → cond st = true → body st a = .inl st' → I st')
    (hinr : ∀ {st a r}, I st → cond st = true → body st a = .inr r → Q r) {st : σ} (hI : I st)
    {as : List A} {r : σ ⊕ R} {rest : List A} (h : runWhile cond body st as = some (r, rest)) :
    Ended cond I Q r := by
  induction as generalizing st with
  | nil =>
    cases hc : cond st with
    | true => simp [runWhile, hc] at h
    | false =>
      rw [runWhile_of_not hc] at h
      obtain ⟨rfl, -⟩ := Prod.mk.inj (Option.some.inj h)
      exact ⟨hI, hc⟩
  | cons a as ih =>
    cases hc : cond st with
    | false =>
      rw [runWhile_of_not hc] at h
      obtain ⟨rfl, -⟩ := Prod.mk.inj (Option.some.inj h)
      exact ⟨hI, hc⟩
    | true =>
      cases hbody : body st a with
      | inl st' =>
        simp only [runWhile, hc, if_true, hbody] at h
        exact ih (hinl hI hc hbody) h
      | inr q =>
        simp only [runWhile, hc, if_true, hbody] at h
        obtain ⟨rfl, -⟩ := Prod.mk.inj (Option.some.inj h)
        exact hinr hI hc hbody

variable (cond body)

/-- The loop `while (cond) body` from the given state. -/
def whileLoop (st : σ) : Script A (σ ⊕ R) := ⟨runWhile cond body st, runWhile_append⟩

end Loop

/-! ### Answers that make progress -/

/-- Every answer on the stream is acceptable, and after every point there is one that makes
progress. -/
structure Progresses (good progress : A → Prop) (s : Stream' A) : Prop where
  good : ∀ n, good (s.get n)
  progress : ∀ n, ∃ m, progress (s.get (n + m))

theorem Progresses.drop {good progress : A → Prop} {s : Stream' A} (h : Progresses good progress s)
    (n : ℕ) : Progresses good progress (s.drop n) := by
  refine ⟨fun m => ?_, fun m => ?_⟩
  · rw [Stream'.get_drop]
    exact h.good _
  · obtain ⟨k, hk⟩ := h.progress (n + m)
    exact ⟨k, by rw [Stream'.get_drop, ← Nat.add_assoc]; exact hk⟩

theorem Progresses.of_returns {good progress : A → Prop} {f : Script A R} {s s' : Stream' A} {r : R}
    (h : Progresses good progress s) (hr : f.Returns s r s') : Progresses good progress s' := by
  obtain ⟨n, -, rfl⟩ := hr
  exact h.drop n

/-- An iteration that does not leave the loop. -/
theorem returns_whileLoop_of_inl {cond : σ → Bool} {body : σ → A → σ ⊕ R} {s s' : Stream' A}
    {st st' : σ} {r : σ ⊕ R} (hc : cond st = true) (hbody : body st s.head = .inl st')
    (h : (whileLoop cond body st').Returns s.tail r s') :
    (whileLoop cond body st).Returns s r s' := by
  obtain ⟨n, hn, rfl⟩ := h
  refine ⟨n + 1, ?_, rfl⟩
  simp only [Stream'.take_succ, whileLoop, runWhile, hc, if_true, hbody]
  exact hn

/-- An iteration left by a `return`. -/
theorem returns_whileLoop_of_inr {cond : σ → Bool} {body : σ → A → σ ⊕ R} {s : Stream' A} {st : σ}
    {q : R} (hc : cond st = true) (hbody : body st s.head = .inr q) :
    (whileLoop cond body st).Returns s (.inr q) s.tail := by
  refine ⟨1, ?_, rfl⟩
  simp [Stream'.take_succ, whileLoop, runWhile, hc, hbody]

section Rule

variable {good progress : A → Prop} {cond : σ → Bool} {body : σ → A → σ ⊕ R} {I : σ → Prop}
  {Q : R → Prop}

/-- On this stream of answers the loop ends in the way `Ended` says. -/
def Ends (cond : σ → Bool) (body : σ → A → σ ⊕ R) (I : σ → Prop) (Q : R → Prop) (s : Stream' A)
    (st : σ) : Prop :=
  ∃ r s', (whileLoop cond body st).Returns s r s' ∧ Ended cond I Q r

/-- One iteration: the loop ends if it ends from the state the body leaves. -/
theorem Ends.of_next {s : Stream' A} {st : σ} (hI : I st)
    (hinr : ∀ {q}, cond st = true → body st s.head = .inr q → Q q)
    (hnext : ∀ {st'}, cond st = true → body st s.head = .inl st' → Ends cond body I Q s.tail st') :
    Ends cond body I Q s st := by
  cases hc : cond st with
  | false => exact ⟨.inl st, s, ⟨0, runWhile_of_not hc _, rfl⟩, hI, hc⟩
  | true =>
    cases hbody : body st s.head with
    | inr q => exact ⟨_, _, returns_whileLoop_of_inr hc hbody, hinr hc hbody⟩
    | inl st' =>
      obtain ⟨r, s', hr, hpost⟩ := hnext hc hbody
      exact ⟨r, s', returns_whileLoop_of_inl hc hbody hr, hpost⟩

/-- The rule for loops. `I` is the invariant and `Q` holds of what a `return` returns; an acceptable
answer never lets the measure go up, and one that makes progress lets it go down. -/
theorem returns_whileLoop (μ : σ → ℕ)
    (hinl : ∀ {st a st'}, I st → cond st = true → good a → body st a = .inl st' →
      I st' ∧ μ st' ≤ μ st ∧ (progress a → μ st' < μ st))
    (hinr : ∀ {st a r}, I st → cond st = true → good a → body st a = .inr r → Q r)
    {s : Stream' A} (hs : Progresses good progress s) {st : σ} (hI : I st) :
    Ends cond body I Q s st := by
  -- on the measure first, then on the distance to the next answer that makes progress
  induction hμ : μ st using Nat.strong_induction_on generalizing st s with
  | _ b ih =>
    obtain ⟨m, hm⟩ := hs.progress 0
    rw [Nat.zero_add] at hm
    induction m generalizing st s with
    | zero =>
      refine Ends.of_next hI (fun hc => hinr hI hc (hs.good 0)) fun hc hbody => ?_
      obtain ⟨hI', -, hlt⟩ := hinl hI hc (hs.good 0) hbody
      exact ih _ (hμ ▸ hlt hm) (hs.drop 1) hI' rfl
    | succ m ihm =>
      refine Ends.of_next hI (fun hc => hinr hI hc (hs.good 0)) fun hc hbody => ?_
      obtain ⟨hI', hle, -⟩ := hinl hI hc (hs.good 0) hbody
      rcases Nat.lt_or_eq_of_le (hμ ▸ hle) with hlt | heq
      · exact ih _ hlt (hs.drop 1) hI' rfl
      · exact ihm (hs.drop 1) hI' heq hm

end Rule

end Script

end Ngp
