import Mathlib.Algebra.GroupWithZero.Nat
import Mathlib.Algebra.BigOperators.Group.List.Basic
import Mathlib.Data.List.Nodup

/-!
# Sums over a list of threads

What the replacement of one element does to a sum over a list, and to two lists side by side, and
how many elements of a kind there can be when each of them is named in another list.
-/

namespace Ngp

variable {α β : Type*} {l : List α} {i : ℕ}

/-- Replacing `x` by `y` changes a sum by the difference of the two elements. -/
theorem sum_map_set_add (f : α → ℕ) {x y : α} (h : l[i]? = some x) :
    ((l.set i y).map f).sum + f x = (l.map f).sum + f y := by
  induction l generalizing i with
  | nil => simp at h
  | cons a l ih =>
    cases i with
    | zero =>
      obtain rfl : a = x := by simpa using h
      simp only [List.set_cons_zero, List.map_cons, List.sum_cons]
      omega
    | succ i =>
      have := ih (i := i) (by simpa using h)
      simp only [List.set_cons_succ, List.map_cons, List.sum_cons]
      omega

/-- Two lists side by side in which the same place is written. -/
theorem zip_set (l : List α) (l' : List β) (i : ℕ) (x : α) (y : β) :
    (l.set i x).zip (l'.set i y) = (l.zip l').set i (x, y) := by
  induction l generalizing l' i with
  | nil => simp
  | cons a l ih =>
    cases l' with
    | nil => simp
    | cons b l' =>
      cases i with
      | zero => rfl
      | succ i => exact congrArg ((a, b) :: ·) (ih l' i)

/-- An element of two lists side by side. -/
theorem getElem?_zip {l' : List β} {x : α} {y : β} (hx : l[i]? = some x) (hy : l'[i]? = some y) :
    (l.zip l')[i]? = some (x, y) := by
  rw [List.getElem?_zip_eq_some]
  exact ⟨hx, hy⟩

/-- If the places of all elements of a kind are named in a list, there are no more of them than the
list has entries. -/
theorem countP_le_length {p : α → Bool} {names : List ℕ}
    (h : ∀ (j : ℕ) (x : α), l[j]? = some x → p x = true → j ∈ names) :
    l.countP p ≤ names.length := by
  have hnodup : ((l.zipIdx.filter fun x => p x.1).map Prod.snd).Nodup := by
    have hsub : ((l.zipIdx.filter fun x => p x.1).map Prod.snd).Sublist (l.zipIdx.map Prod.snd) :=
      List.filter_sublist.map _
    rw [List.zipIdx_map_snd] at hsub
    exact (List.nodup_range' : (List.range' 0 l.length).Nodup).sublist hsub
  have hsubset : ((l.zipIdx.filter fun x => p x.1).map Prod.snd) ⊆ names := by
    intro j hj
    obtain ⟨⟨x, k⟩, hx, rfl⟩ := List.mem_map.mp hj
    obtain ⟨hmem, hp⟩ := List.mem_filter.mp hx
    exact h k x (List.mem_zipIdx_iff_getElem?.mp hmem) hp
  have hcount : l.countP p = ((l.zipIdx.filter fun x => p x.1).map Prod.snd).length := by
    rw [List.length_map, ← List.countP_eq_length_filter]
    conv_lhs => rw [← List.zipIdx_map_fst 0 l]
    rw [List.countP_map]
    rfl
  rw [hcount]
  exact (List.subperm_of_subset hnodup hsubset).length_le

/-- A sum is at most a multiple of the number of elements that contribute to it. -/
theorem sum_map_le_mul_countP {f : α → ℕ} {p : α → Bool} {c : ℕ}
    (h : ∀ x ∈ l, f x ≤ if p x then c else 0) : (l.map f).sum ≤ c * l.countP p := by
  induction l with
  | nil => exact Nat.zero_le _
  | cons x l ih =>
    rw [List.forall_mem_cons] at h
    have := ih h.2
    rw [List.map_cons, List.sum_cons, List.countP_cons]
    split at h <;> rename_i hp
    · rw [if_pos hp, Nat.mul_add]
      omega
    · rw [if_neg hp, Nat.add_zero]
      omega

/-- A sum that counts. -/
theorem sum_map_mul_toNat (c : ℕ) (p : α → Bool) :
    (l.map fun x => c * (p x).toNat).sum = c * l.countP p := by
  induction l with
  | nil => rfl
  | cons x l ih =>
    rw [List.map_cons, List.sum_cons, ih, List.countP_cons, Nat.mul_add, Nat.add_comm]
    cases hp : p x <;> simp

end Ngp
