import Mathlib

/-!
Words of decimal digits of one length: the number a word denotes, and that the words are in the
order of their numbers.
-/

namespace GeoWorld.Library.DecimalWord

def Numeric (word : List Char) : Prop := ∀ digit ∈ word, digit.isDigit

/-- The number that a word denotes. -/
def value (word : List Char) : Nat := Nat.ofDigitChars 10 word 0

variable {digit other : Char} {word left right : List Char}

theorem isDigit_iff : digit.isDigit ↔ '0'.toNat ≤ digit.toNat ∧ digit.toNat ≤ '9'.toNat := by
  simp only [Char.isDigit, Bool.and_eq_true, decide_eq_true_eq]
  exact Iff.rfl

theorem value_cons (digit : Char) (word : List Char) :
    value (digit :: word) = 10 ^ word.length * (digit.toNat - '0'.toNat) + value word := by
  rw [value, Nat.ofDigitChars_cons, Nat.ofDigitChars_eq_ofDigitChars_zero, mul_zero, zero_add,
    value]

theorem value_lt (numeric : Numeric word) : value word < 10 ^ word.length := by
  induction word with
  | nil => exact Nat.zero_lt_one
  | cons digit word ih =>
    obtain ⟨first, rest⟩ := List.forall_mem_cons.mp numeric
    have small := ih rest
    have digit_small : digit.toNat - '0'.toNat ≤ 9 := by
      have bounds := isDigit_iff.mp first
      simp only [Char.reduceToNat] at bounds ⊢
      omega
    calc value (digit :: word)
        = 10 ^ word.length * (digit.toNat - '0'.toNat) + value word := value_cons digit word
      _ < 10 ^ word.length * (digit.toNat - '0'.toNat) + 10 ^ word.length := by omega
      _ = 10 ^ word.length * (digit.toNat - '0'.toNat + 1) := by ring
      _ ≤ 10 ^ word.length * 10 := Nat.mul_le_mul_left _ (by omega)
      _ = 10 ^ (digit :: word).length := by rw [List.length_cons, pow_succ]

theorem lt_iff_digit (left_digit : digit.isDigit) (right_digit : other.isDigit) :
    digit < other ↔ digit.toNat - '0'.toNat < other.toNat - '0'.toNat := by
  have left_bounds := isDigit_iff.mp left_digit
  have right_bounds := isDigit_iff.mp right_digit
  rw [Char.lt_def, UInt32.lt_iff_toNat_lt]
  change digit.toNat < other.toNat ↔ _
  omega

theorem eq_iff_digit (left_digit : digit.isDigit) (right_digit : other.isDigit) :
    digit = other ↔ digit.toNat - '0'.toNat = other.toNat - '0'.toNat := by
  have left_bounds := isDigit_iff.mp left_digit
  have right_bounds := isDigit_iff.mp right_digit
  rw [← Char.toNat_inj]
  omega

/-- Words of one length stand in the order of their numbers. -/
theorem lt_iff_value (same : left.length = right.length) (left_numeric : Numeric left)
    (right_numeric : Numeric right) : left < right ↔ value left < value right := by
  induction left generalizing right with
  | nil =>
    obtain rfl := List.eq_nil_of_length_eq_zero same.symm
    exact iff_of_false (List.lt_irrefl _) (lt_irrefl _)
  | cons digit left ih =>
    obtain _ | ⟨other, right⟩ := right
    · cases same
    · obtain ⟨left_first, left_rest⟩ := List.forall_mem_cons.mp left_numeric
      obtain ⟨right_first, right_rest⟩ := List.forall_mem_cons.mp right_numeric
      have tail_same : left.length = right.length := Nat.succ.inj same
      have left_small := value_lt left_rest
      have right_small := value_lt right_rest
      rw [List.cons_lt_cons_iff, ih tail_same left_rest right_rest,
        lt_iff_digit left_first right_first, eq_iff_digit left_first right_first, value_cons,
        value_cons, tail_same]
      rw [tail_same] at left_small
      generalize digit.toNat - '0'.toNat = a
      generalize other.toNat - '0'.toNat = b
      rcases Nat.lt_trichotomy a b with less | rfl | more
      · have apart : 10 ^ right.length * (a + 1) ≤ 10 ^ right.length * b :=
          Nat.mul_le_mul_left _ less
        exact iff_of_true (.inl less) (by rw [mul_add] at apart; omega)
      · simp
      · have apart : 10 ^ right.length * (b + 1) ≤ 10 ^ right.length * a :=
          Nat.mul_le_mul_left _ more
        refine iff_of_false ?_ (by rw [mul_add] at apart; omega)
        rintro (less | ⟨equal, -⟩) <;> omega

theorem append_lt_append_iff (front : List Char) :
    front ++ left < front ++ right ↔ left < right := by
  induction front with
  | nil => rfl
  | cons letter front ih =>
    rw [List.cons_append, List.cons_append, List.cons_lt_cons_iff, ih]
    simp

/-- Words of one length that denote one number are one word. -/
theorem eq_of_value (same : left.length = right.length) (left_numeric : Numeric left)
    (right_numeric : Numeric right) (equal : value left = value right) : left = right := by
  rcases lt_trichotomy left right with less | same_word | more
  · exact absurd ((lt_iff_value same left_numeric right_numeric).mp less) (by omega)
  · exact same_word
  · exact absurd ((lt_iff_value same.symm right_numeric left_numeric).mp more) (by omega)

end GeoWorld.Library.DecimalWord
