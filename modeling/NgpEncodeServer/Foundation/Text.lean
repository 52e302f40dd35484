import Mathlib.Data.List.TakeWhile

/-!
# Fields and integers of a text

`std::getline` with a delimiter and `std::stoi`, on texts of bytes.  Both accept more than a grammar
would: a field ends at the delimiter or at the end of the text, and an integer may stand between
blanks and anything that is not a digit.  `getline_of_delim`, `getline_of_end` and `stoi_eq_ok_iff`
say what exactly they accept, and with what result.
-/

namespace Ngp

/-! ### `std::getline` -/

/-- A `std::stringstream` that is read. -/
structure TextStream where
  /-- The bytes not extracted yet. -/
  rest : List UInt8
  /-- `eofbit` is not set. -/
  good : Bool
  deriving DecidableEq, Repr

/-- `std::getline` into an empty string: the bytes up to the delimiter, which is extracted too, or
up to the end. -/
def getline (stream : TextStream) (delim : UInt8) : List UInt8 × TextStream :=
  if stream.good then
    match stream.rest.dropWhile (· ≠ delim) with
    | [] => (stream.rest, ⟨[], false⟩)
    | _ :: rest => (stream.rest.takeWhile (· ≠ delim), ⟨rest, true⟩)
  else ([], stream)

/-- A line that ends with the delimiter. -/
theorem getline_of_delim {line : List UInt8} {delim : UInt8} (hline : delim ∉ line)
    (rest : List UInt8) : getline ⟨line ++ delim :: rest, true⟩ delim = (line, ⟨rest, true⟩) := by
  have hall : ∀ a ∈ line, decide (a ≠ delim) = true :=
    fun a ha => decide_eq_true fun heq => hline (heq ▸ ha)
  unfold getline
  dsimp only
  rw [if_pos rfl, List.dropWhile_append_of_pos hall, List.takeWhile_append_of_pos hall]
  simp

/-- A line that ends with the text. -/
theorem getline_of_end {line : List UInt8} {delim : UInt8} (hline : delim ∉ line) :
    getline ⟨line, true⟩ delim = (line, ⟨[], false⟩) := by
  have hnil : line.dropWhile (· ≠ delim) = [] :=
    List.dropWhile_eq_nil_iff.mpr fun a ha => decide_eq_true fun heq => hline (heq ▸ ha)
  unfold getline
  dsimp only
  rw [if_pos rfl, hnil]

/-! ### `std::stoi` -/

/-- `isspace` in the C locale. -/
def isspace (c : UInt8) : Bool := c = 32 || (9 ≤ c && c ≤ 13)

/-- `isdigit`. -/
def isdigit (c : UInt8) : Bool := 48 ≤ c && c ≤ 57

/-- The number that a text of digits denotes. -/
def digitsValue (digits : List UInt8) : ℕ :=
  digits.foldl (fun value c => 10 * value + (c.toNat - 48)) 0

/-- The exceptions of `std::stoi`. -/
inductive StoiError where
  /-- `std::invalid_argument`: no conversion could be performed. -/
  | invalidArgument
  /-- `std::out_of_range`: the number is no `int`. -/
  | outOfRange
  deriving DecidableEq, Repr

/-- An optional sign, whether it is a minus, and the text after it. -/
def takeSign : List UInt8 → Bool × List UInt8
  | c :: str => if c = 45 then (true, str) else if c = 43 then (false, str) else (false, c :: str)
  | [] => (false, [])

/-- The number that a sign and digits denote. -/
def signedValue (negative : Bool) (digits : List UInt8) : ℤ :=
  if negative then -digitsValue digits else digitsValue digits

/-- `INT_MIN`. -/
def intMin : ℤ := -2147483648

/-- `INT_MAX`. -/
def intMax : ℤ := 2147483647

/-- `std::stoi` with base 10. -/
def stoi (str : List UInt8) : Except StoiError ℤ :=
  let signed := takeSign (str.dropWhile isspace)
  match signed.2.takeWhile isdigit with
  | [] => .error .invalidArgument
  | digits =>
    let value := signedValue signed.1 digits
    if intMin ≤ value ∧ value ≤ intMax then .ok value else .error .outOfRange

/-- The text has, after blanks and an optional sign, these digits, and no digit after them. -/
structure HasDigits (str : List UInt8) (negative : Bool) (digits : List UInt8) : Prop where
  split : ∃ blanks sign tail, str = blanks ++ sign ++ digits ++ tail ∧
    (∀ c ∈ blanks, isspace c = true) ∧
    (if negative then sign = [45] else sign = [] ∨ sign = [43]) ∧
    ∀ c, tail.head? = some c → isdigit c = false
  ne_nil : digits ≠ []
  digits : ∀ c ∈ digits, isdigit c = true

/-- What a run of characters of one kind is followed by. -/
theorem head?_dropWhile {p : UInt8 → Bool} {l : List UInt8} {c : UInt8}
    (h : (l.dropWhile p).head? = some c) : p c = false := by
  induction l with
  | nil => cases h
  | cons a l ih =>
    by_cases ha : p a = true
    · rw [List.dropWhile_cons_of_pos ha] at h
      exact ih h
    · rw [List.dropWhile_cons_of_neg ha] at h
      obtain rfl := Option.some.inj h
      exact Bool.eq_false_iff.mpr ha

/-- A run of characters of one kind that is followed by another kind. -/
theorem dropWhile_append_of_head {p : UInt8 → Bool} {l rest : List UInt8}
    (hl : ∀ c ∈ l, p c = true) (hrest : ∀ c, rest.head? = some c → p c = false) :
    (l ++ rest).dropWhile p = rest := by
  rw [List.dropWhile_append_of_pos hl]
  cases rest with
  | nil => rfl
  | cons a rest => exact List.dropWhile_cons_of_neg (by simp [hrest a rfl])

/-- The run itself. -/
theorem takeWhile_append_of_head {p : UInt8 → Bool} {l rest : List UInt8}
    (hl : ∀ c ∈ l, p c = true) (hrest : ∀ c, rest.head? = some c → p c = false) :
    (l ++ rest).takeWhile p = l := by
  rw [List.takeWhile_append_of_pos hl]
  cases rest with
  | nil => exact List.append_nil l
  | cons a rest => rw [List.takeWhile_cons_of_neg (by simp [hrest a rfl]), List.append_nil]

/-- A sign and what follows it make up the text. -/
theorem takeSign_split (str : List UInt8) :
    ∃ sign, str = sign ++ (takeSign str).2 ∧
      if (takeSign str).1 then sign = [45] else sign = [] ∨ sign = [43] := by
  cases str with
  | nil => exact ⟨[], rfl, Or.inl rfl⟩
  | cons c str =>
    by_cases hminus : c = 45
    · subst hminus
      exact ⟨[45], rfl, rfl⟩
    · by_cases hplus : c = 43
      · subst hplus
        exact ⟨[43], rfl, Or.inr rfl⟩
      · refine ⟨[], ?_⟩
        simp [takeSign, hminus, hplus]

/-- A digit is no blank and no sign. -/
theorem of_isdigit {c : UInt8} (hc : isdigit c = true) :
    isspace c = false ∧ c ≠ 45 ∧ c ≠ 43 := by
  simp only [isdigit, Bool.and_eq_true, decide_eq_true_eq] at hc
  have hlow : 48 ≤ c.toNat := UInt8.le_iff_toNat_le.mp hc.1
  refine ⟨?_, ?_, ?_⟩
  · simp only [isspace, Bool.or_eq_false_iff, Bool.and_eq_false_iff, decide_eq_false_iff_not]
    refine ⟨?_, Or.inr fun hle => ?_⟩
    · rintro rfl
      exact absurd hlow (by decide)
    · have hhigh : c.toNat ≤ 13 := UInt8.le_iff_toNat_le.mp hle
      omega
  · rintro rfl
    exact absurd hlow (by decide)
  · rintro rfl
    exact absurd hlow (by decide)

/-- A sign before a digit is taken, and no blank. -/
theorem takeSign_of_digit {negative : Bool} {sign : List UInt8}
    (hsign : if negative then sign = [45] else sign = [] ∨ sign = [43]) {d : UInt8}
    (hd : isdigit d = true) (rest : List UInt8) :
    takeSign (sign ++ d :: rest) = (negative, d :: rest) ∧
      ∀ c, (sign ++ d :: rest).head? = some c → isspace c = false := by
  obtain ⟨hspace, hminus, hplus⟩ := of_isdigit hd
  cases negative with
  | true =>
    obtain rfl : sign = [45] := hsign
    refine ⟨rfl, fun c hc => ?_⟩
    obtain rfl := Option.some.inj hc
    rfl
  | false =>
    rcases (hsign : sign = [] ∨ sign = [43]) with rfl | rfl
    · refine ⟨by simp [takeSign, hminus, hplus], fun c hc => ?_⟩
      obtain rfl := Option.some.inj hc
      exact hspace
    · refine ⟨rfl, fun c hc => ?_⟩
      obtain rfl := Option.some.inj hc
      rfl

/-- The digits that `std::stoi` converts. -/
theorem hasDigits_iff {str : List UInt8} {negative : Bool} {digits : List UInt8} :
    HasDigits str negative digits ↔
      (takeSign (str.dropWhile isspace)).1 = negative ∧
        (takeSign (str.dropWhile isspace)).2.takeWhile isdigit = digits ∧ digits ≠ [] := by
  constructor
  · rintro ⟨⟨blanks, sign, tail, hstr, hblanks, hsign, htail⟩, hne, hdigits⟩
    obtain ⟨d, ds, rfl⟩ := List.exists_cons_of_ne_nil hne
    obtain ⟨htake, hhead⟩ :=
      takeSign_of_digit hsign (hdigits d List.mem_cons_self) (ds ++ tail)
    have hdrop : str.dropWhile isspace = sign ++ d :: (ds ++ tail) := by
      rw [hstr, List.append_assoc, List.append_assoc]
      exact dropWhile_append_of_head hblanks hhead
    rw [hdrop, htake]
    exact ⟨rfl, takeWhile_append_of_head hdigits htail, hne⟩
  · rintro ⟨hnegative, hdigits, hne⟩
    obtain ⟨sign, hsplit, hsign⟩ := takeSign_split (str.dropWhile isspace)
    rw [hnegative] at hsign
    refine ⟨⟨str.takeWhile isspace, sign,
      (takeSign (str.dropWhile isspace)).2.dropWhile isdigit, ?_, ?_, hsign, ?_⟩, hne, ?_⟩
    · rw [List.append_assoc, ← hdigits, List.takeWhile_append_dropWhile, List.append_assoc,
        ← hsplit, List.takeWhile_append_dropWhile]
    · exact fun c hc => List.mem_takeWhile_imp hc
    · exact fun c hc => head?_dropWhile hc
    · rw [← hdigits]
      exact fun c hc => List.mem_takeWhile_imp hc

/-- `std::stoi` returns the number that the first digits of the text denote: they may have blanks
and a sign before them and anything after them, and the number has to be an `int`. -/
theorem stoi_eq_ok_iff {str : List UInt8} {value : ℤ} :
    stoi str = .ok value ↔ ∃ negative digits, HasDigits str negative digits ∧
      signedValue negative digits = value ∧ intMin ≤ value ∧ value ≤ intMax := by
  unfold stoi
  dsimp only
  constructor
  · intro h
    split at h
    · cases h
    · rename_i hne
      split at h
      · rename_i hrange
        cases h
        exact ⟨_, _, hasDigits_iff.mpr ⟨rfl, rfl, hne⟩, rfl, hrange⟩
      · cases h
  · rintro ⟨negative, digits, hdigits, rfl, hrange⟩
    obtain ⟨rfl, htake, hne⟩ := hasDigits_iff.mp hdigits
    split
    · rename_i hnil
      exact absurd (htake.symm.trans hnil) hne
    · rw [htake, if_pos hrange]

end Ngp
