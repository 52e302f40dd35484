import Mathlib.Data.Nat.Digits.Lemmas

/-!
# The bytes of an unsigned integer

An unsigned integer type of a platform is given by its width in bytes and its byte order.  `bytes`
is its object representation and `value` reads one back; `value_bytes` says that nothing is lost
for the numbers that fit, with the digits of a number in base 256 doing the work.
-/

namespace Ngp

/-- The order of the bytes of an integer in memory. -/
inductive ByteOrder where
  | little
  | big
  deriving DecidableEq, Repr

/-- An unsigned integer type: its width in bytes and its byte order. -/
structure UIntRep where
  width : ℕ
  order : ByteOrder
  deriving DecidableEq, Repr

namespace UIntRep

variable (t : UIntRep)

/-- The first number that does not fit. -/
def limit : ℕ := 256 ^ t.width

/-- The object representation of a number. -/
def bytes (n : ℕ) : List UInt8 :=
  let digits := (Nat.digitsAppend 256 t.width n).map UInt8.ofNat
  match t.order with
  | .little => digits
  | .big => digits.reverse

/-- The number with the given object representation. -/
def value (bs : List UInt8) : ℕ :=
  match t.order with
  | .little => Nat.ofDigits 256 (bs.map UInt8.toNat)
  | .big => Nat.ofDigits 256 (bs.reverse.map UInt8.toNat)

variable {t}

/-- A number that fits takes as many bytes as the type is wide. -/
@[simp] theorem length_bytes {n : ℕ} (h : n < t.limit) : (t.bytes n).length = t.width := by
  have hdigits := Nat.length_digitsAppend (b := 256) (by decide) t.width h
  unfold bytes
  cases t.order <;> simpa using hdigits

/-- The digits of a number in base 256 are bytes. -/
theorem toNat_ofNat_digits (w n : ℕ) :
    ((Nat.digitsAppend 256 w n).map UInt8.ofNat).map UInt8.toNat = Nat.digitsAppend 256 w n := by
  rw [List.map_map]
  refine (List.map_congr_left fun d hd => ?_).trans (List.map_id _)
  exact UInt8.toNat_ofNat_of_lt' (Nat.lt_of_mem_digitsAppend (by decide) w d hd)

/-- Reading back what was written. -/
@[simp] theorem value_bytes (t : UIntRep) (n : ℕ) : t.value (t.bytes n) = n := by
  have hdigits : Nat.ofDigits 256 (Nat.digitsAppend 256 t.width n) = n := by
    rw [Nat.digitsAppend, Nat.ofDigits_append_replicate_zero, Nat.ofDigits_digits]
  unfold value bytes
  cases t.order with
  | little =>
    dsimp only
    rw [toNat_ofNat_digits, hdigits]
  | big =>
    dsimp only
    rw [List.reverse_reverse, toNat_ofNat_digits, hdigits]

end UIntRep

end Ngp
