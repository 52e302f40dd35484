import Mathlib.Data.List.Nodup
import Mathlib.Data.Nat.Notation

/-!
# Mutual exclusion

A program that uses a mutex is described by a point for each of its threads, and the point of a
thread says whether the thread holds the mutex.  `Owned` says that the owner of the mutex is that
thread, and `Shared` that the owners of a shared mutex are those threads.  Both are kept when one
thread goes on and takes the mutex, releases it or does neither, which is all that a step can do.
-/

namespace Ngp

variable {γ : Type*} {held : γ → Bool} {owner : Option ℕ} {owners : List ℕ} {threads : List γ}
  {i j : ℕ} {p p' q : γ}

/-- The points of the threads after one of them has gone on. -/
theorem getElem?_set_cases {x : γ} (h : (threads.set i x)[j]? = some q) :
    (j = i ∧ q = x) ∨ (j ≠ i ∧ threads[j]? = some q) := by
  by_cases hj : j = i
  · subst hj
    have hlt : j < threads.length := by
      simpa using (List.getElem?_eq_some_iff.mp h).1
    rw [List.getElem?_set_self hlt] at h
    exact Or.inl ⟨rfl, (Option.some.inj h).symm⟩
  · exact Or.inr ⟨hj, (List.getElem?_set_ne (Ne.symm hj)).symm.trans h⟩

/-- The threads exist after one of them has gone on. -/
theorem exists_getElem?_set (h : ∃ q, threads[j]? = some q) (x : γ) :
    ∃ q, (threads.set i x)[j]? = some q := by
  obtain ⟨q, hq⟩ := h
  have hlt := (List.getElem?_eq_some_iff.mp hq).1
  exact ⟨_, List.getElem?_eq_some_iff.mpr ⟨by simpa using hlt, rfl⟩⟩

/-- The owner of a mutex is the thread that holds it. -/
structure Owned (held : γ → Bool) (owner : Option ℕ) (threads : List γ) : Prop where
  held_iff : ∀ (i : ℕ) (p : γ), threads[i]? = some p → (held p = true ↔ owner = some i)
  exists_owner : ∀ i, owner = some i → ∃ p, threads[i]? = some p

namespace Owned

/-- A mutex that nobody holds has no owner. -/
theorem init (h : ∀ p ∈ threads, held p = false) : Owned held none threads where
  held_iff i p hp := by
    rw [h p (List.mem_of_getElem? hp)]
    simp
  exists_owner := by rintro i ⟨⟩

/-- Two threads never hold the mutex at once. -/
theorem unique (h : Owned held owner threads) (hp : threads[i]? = some p)
    (hq : threads[j]? = some q) (hi : held p = true) (hj : held q = true) : i = j := by
  have howner := (h.held_iff i p hp).mp hi
  rw [(h.held_iff j q hq).mp hj] at howner
  exact (Option.some.inj howner).symm

/-- A free mutex is held by nobody. -/
theorem held_of_free (h : Owned held none threads) (hp : threads[i]? = some p) :
    held p = false := by
  rw [Bool.eq_false_iff]
  intro hheld
  cases (h.held_iff i p hp).mp hheld

/-- A mutex that is not free is held by some thread. -/
theorem exists_held (h : Owned held owner threads) (howner : owner ≠ none) :
    ∃ (i : ℕ) (p : γ), threads[i]? = some p ∧ held p = true := by
  obtain ⟨i, rfl⟩ := Option.ne_none_iff_exists'.mp howner
  obtain ⟨p, hp⟩ := h.exists_owner i rfl
  exact ⟨i, p, hp, (h.held_iff i p hp).mpr rfl⟩

/-- A step that has nothing to do with the mutex. -/
theorem keep (h : Owned held owner threads) (hp : threads[i]? = some p)
    (hsame : held p' = held p) : Owned held owner (threads.set i p') where
  held_iff j q hq := by
    rcases getElem?_set_cases hq with ⟨rfl, rfl⟩ | ⟨-, hold⟩
    · rw [hsame]
      exact h.held_iff j p hp
    · exact h.held_iff j q hold
  exists_owner j hj := exists_getElem?_set (h.exists_owner j hj) p'

/-- A thread takes the mutex, which is free. -/
theorem acquire (h : Owned held none threads) (hp : threads[i]? = some p)
    (hheld : held p' = true) : Owned held (some i) (threads.set i p') where
  held_iff j q hq := by
    rcases getElem?_set_cases hq with ⟨rfl, rfl⟩ | ⟨hne, hold⟩
    · exact iff_of_true hheld rfl
    · apply iff_of_false
      · rw [h.held_of_free hold]
        exact Bool.false_ne_true
      · intro heq
        exact hne (Option.some.inj heq).symm
  exists_owner := by
    rintro j ⟨⟩
    exact exists_getElem?_set ⟨p, hp⟩ p'

/-- The thread that holds the mutex releases it. -/
theorem release (h : Owned held owner threads) (hp : threads[i]? = some p) (hheld : held p = true)
    (hgone : held p' = false) : Owned held none (threads.set i p') where
  held_iff j q hq := by
    apply iff_of_false
    · rcases getElem?_set_cases hq with ⟨rfl, rfl⟩ | ⟨hne, hold⟩
      · rw [hgone]
        exact Bool.false_ne_true
      · intro hother
        exact hne (h.unique hold hp hother hheld)
    · rintro ⟨⟩
  exists_owner := by rintro j ⟨⟩

end Owned

/-- The owners of a shared mutex are the threads that hold it. -/
structure Shared (held : γ → Bool) (owners : List ℕ) (threads : List γ) : Prop where
  held_iff : ∀ (i : ℕ) (p : γ), threads[i]? = some p → (held p = true ↔ i ∈ owners)
  exists_owner : ∀ i ∈ owners, ∃ p, threads[i]? = some p
  nodup : owners.Nodup

namespace Shared

/-- A shared mutex that nobody holds has no owners. -/
theorem init (h : ∀ p ∈ threads, held p = false) : Shared held [] threads where
  held_iff i p hp := by
    rw [h p (List.mem_of_getElem? hp)]
    simp
  exists_owner := by simp
  nodup := List.nodup_nil

/-- A shared mutex that is not free is held by some thread. -/
theorem exists_held (h : Shared held owners threads) (howners : owners ≠ []) :
    ∃ (i : ℕ) (p : γ), threads[i]? = some p ∧ held p = true := by
  obtain ⟨i, hi⟩ := List.exists_mem_of_ne_nil _ howners
  obtain ⟨p, hp⟩ := h.exists_owner i hi
  exact ⟨i, p, hp, (h.held_iff i p hp).mpr hi⟩

/-- A step that has nothing to do with the mutex. -/
theorem keep (h : Shared held owners threads) (hp : threads[i]? = some p)
    (hsame : held p' = held p) : Shared held owners (threads.set i p') where
  held_iff j q hq := by
    rcases getElem?_set_cases hq with ⟨rfl, rfl⟩ | ⟨-, hold⟩
    · rw [hsame]
      exact h.held_iff j p hp
    · exact h.held_iff j q hold
  exists_owner j hj := exists_getElem?_set (h.exists_owner j hj) p'
  nodup := h.nodup

/-- One more thread takes the mutex. -/
theorem acquire (h : Shared held owners threads) (hp : threads[i]? = some p)
    (hout : held p = false) (hheld : held p' = true) :
    Shared held (i :: owners) (threads.set i p') where
  held_iff j q hq := by
    rcases getElem?_set_cases hq with ⟨rfl, rfl⟩ | ⟨hne, hold⟩
    · exact iff_of_true hheld List.mem_cons_self
    · rw [h.held_iff j q hold, List.mem_cons]
      simp [hne]
  exists_owner j hj := by
    apply exists_getElem?_set
    rcases List.mem_cons.mp hj with rfl | hold
    · exact ⟨p, hp⟩
    · exact h.exists_owner j hold
  nodup := by
    apply List.nodup_cons.mpr
    refine ⟨fun hmem => ?_, h.nodup⟩
    rw [(h.held_iff i p hp).mpr hmem] at hout
    cases hout

/-- One of the threads that hold the mutex releases it. -/
theorem release (h : Shared held owners threads) (hgone : held p' = false) :
    Shared held (owners.erase i) (threads.set i p') where
  held_iff j q hq := by
    rw [h.nodup.mem_erase_iff]
    rcases getElem?_set_cases hq with ⟨rfl, rfl⟩ | ⟨hne, hold⟩
    · simp [hgone]
    · rw [h.held_iff j q hold]
      simp [hne]
  exists_owner j hj := exists_getElem?_set (h.exists_owner j (List.mem_of_mem_erase hj)) p'
  nodup := h.nodup.erase i

end Shared

end Ngp
