import Mathlib.Data.Nat.Notation

/-!
# A value for each of two sides

`Sided α` holds one value for the left and one for the right side and is addressed by the flag
`isLeft`.  The simp set computes a read after a write, so that proofs never have to split on the
representation.
-/

namespace Ngp

/-- One value for each side. -/
structure Sided (α : Type*) where
  /-- The value of the left side. -/
  left : α
  /-- The value of the right side. -/
  right : α
  deriving DecidableEq, Repr

namespace Sided

variable {α : Type*}

/-- The value of the side `isLeft`. -/
def get (x : Sided α) (isLeft : Bool) : α := if isLeft then x.left else x.right

/-- Replace the value of the side `isLeft`. -/
def set (x : Sided α) (isLeft : Bool) (v : α) : Sided α :=
  if isLeft then { x with left := v } else { x with right := v }

@[simp] theorem get_true (x : Sided α) : x.get true = x.left := rfl

@[simp] theorem get_false (x : Sided α) : x.get false = x.right := rfl

@[simp] theorem left_set_true (x : Sided α) (v : α) : (x.set true v).left = v := rfl

@[simp] theorem left_set_false (x : Sided α) (v : α) : (x.set false v).left = x.left := rfl

@[simp] theorem right_set_true (x : Sided α) (v : α) : (x.set true v).right = x.right := rfl

@[simp] theorem right_set_false (x : Sided α) (v : α) : (x.set false v).right = v := rfl

@[simp] theorem get_set_self (x : Sided α) (e : Bool) (v : α) : (x.set e v).get e = v := by
  cases e <;> rfl

/-- A write on one side leaves the other side alone. -/
theorem get_set_of_ne (x : Sided α) {e e' : Bool} (v : α) (h : e' ≠ e) :
    (x.set e v).get e' = x.get e' := by
  cases e <;> cases e' <;> first | rfl | exact absurd rfl h

/-- A read after a write. -/
theorem get_set (x : Sided α) (e e' : Bool) (v : α) :
    (x.set e v).get e' = if e' = e then v else x.get e' := by
  cases e <;> cases e' <;> rfl

/-- What a write does to a sum over both sides. -/
theorem sum_set_add (x : Sided α) (e : Bool) (v : α) (f : α → ℕ) :
    f (x.set e v).left + f (x.set e v).right + f (x.get e) = f x.left + f x.right + f v := by
  cases e <;> simp [set, get] <;> omega

/-- The value that was there before can be written back. -/
@[simp] theorem set_get_self (x : Sided α) (e : Bool) : x.set e (x.get e) = x := by
  cases e <;> rfl

end Sided

end Ngp
