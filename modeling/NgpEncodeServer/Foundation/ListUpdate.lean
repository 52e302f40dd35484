import Mathlib.Data.List.Induction

/-!
# Replacing elements of a list

A system with any number of threads of one kind keeps their states in a list; a step of one thread
replaces one element.  The first lemmas say what a replacement does to a count over the list, and to
a count over what the elements hold.  The last ones are about a loop that writes one value at
several places of a buffer.
-/

namespace Ngp

variable {α β : Type*} {l : List α} {i : ℕ} {x y : α}

/-- Replacing `x` by `y` changes a count by the difference of the two elements. -/
theorem countP_set_add (p : α → Bool) (h : l[i]? = some x) :
    (l.set i y).countP p + (if p x then 1 else 0) = l.countP p + if p y then 1 else 0 := by
  induction l generalizing i with
  | nil => simp at h
  | cons a l ih =>
    cases i with
    | zero =>
      obtain rfl : a = x := by simpa using h
      simp only [List.set_cons_zero, List.countP_cons]
      omega
    | succ i =>
      have := ih (i := i) (by simpa using h)
      simp only [List.set_cons_succ, List.countP_cons]
      omega

/-- Replacing `x` by `y` changes a count over what the elements hold by the difference of what the
two elements hold. -/
theorem countP_flatMap_set_add (f : α → List β) (p : β → Bool) (h : l[i]? = some x) :
    ((l.set i y).flatMap f).countP p + (f x).countP p =
      (l.flatMap f).countP p + (f y).countP p := by
  induction l generalizing i with
  | nil => simp at h
  | cons a l ih =>
    cases i with
    | zero =>
      obtain rfl : a = x := by simpa using h
      simp only [List.set_cons_zero, List.flatMap_cons, List.countP_append]
      omega
    | succ i =>
      have := ih (i := i) (by simpa using h)
      simp only [List.set_cons_succ, List.flatMap_cons, List.countP_append]
      omega

/-- Writing `v` at the places `ks` leaves the length of a list as it is. -/
theorem length_foldl_set (f : β → ℕ) (v : α) (ks : List β) (l : List α) :
    (ks.foldl (fun l b => l.set (f b) v) l).length = l.length := by
  induction ks generalizing l with
  | nil => rfl
  | cons b ks ih =>
    rw [List.foldl_cons, ih]
    exact List.length_set

/-- A place where `v` is written holds `v`. -/
theorem getElem?_foldl_set_of_mem {f : β → ℕ} (v : α) {ks : List β} {l : List α} {k : ℕ}
    (hk : ∃ b ∈ ks, f b = k) (hlt : k < l.length) :
    (ks.foldl (fun l b => l.set (f b) v) l)[k]? = some v := by
  induction ks using List.reverseRecOn with
  | nil => simp at hk
  | append_singleton ks b ih =>
    have hlen := length_foldl_set f v ks l
    rw [List.foldl_append, List.foldl_cons, List.foldl_nil]
    by_cases hb : f b = k
    · rw [hb]
      exact List.getElem?_set_self (hlen ▸ hlt)
    · rw [List.getElem?_set_ne hb]
      apply ih
      obtain ⟨b', hb', hk⟩ := hk
      rcases List.mem_append.mp hb' with hb' | hb'
      · exact ⟨b', hb', hk⟩
      · rw [List.mem_singleton.mp hb'] at hk
        exact absurd hk hb

/-- The other places keep what they hold. -/
theorem getElem?_foldl_set_of_not_mem {f : β → ℕ} (v : α) {ks : List β} (l : List α) {k : ℕ}
    (hk : ∀ b ∈ ks, f b ≠ k) :
    (ks.foldl (fun l b => l.set (f b) v) l)[k]? = l[k]? := by
  induction ks generalizing l with
  | nil => rfl
  | cons b ks ih =>
    rw [List.forall_mem_cons] at hk
    rw [List.foldl_cons, ih _ hk.2]
    exact List.getElem?_set_ne hk.1

end Ngp
