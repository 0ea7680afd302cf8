import Mathlib
import GeoWorld.Library.Binary64
import GeoWorld.WorldModel.Object

/-!
The conditions of rules, over the property values of an event. Values of one kind are
compared as such, others as doubles, to which an `int64` is rounded.
-/

namespace GeoWorld.Rules

open WorldModel Library

inductive Comparison where
  | equal
  | notEqual
  | less
  | lessEqual
  | greater
  | greaterEqual
  deriving DecidableEq

structure Condition where
  field : ByteString
  comparison : Comparison := .equal
  expected : Value
  deriving DecidableEq

/-- An `Expression` is its `all_of`. -/
abbrev Expression := List Condition

/-- `static_cast<double>` of an `int64`, in the units of a double. -/
def unitsOfInt64 (number : Int64) : ℤ :=
  number.toInt.sign * Binary64.nearest number.toInt.natAbs * 2 ^ 1074

/-- `none` is the answer false. -/
def numericValue : Value → Option ℤ
  | .integer value => some (unitsOfInt64 value)
  | .real bits => if Binary64.isFinite bits then some (Binary64.units bits) else none
  | .boolean _ => none
  | .text _ => none

/-- The test `equal`: values of one kind by their own `==`, others as numbers. -/
def valuesEqual : Value → Value → Bool
  | .integer left, .integer right => left == right
  | .real left, .real right => Binary64.equal left right
  | .boolean left, .boolean right => left == right
  | .text left, .text right => left == right
  | left, right =>
    match numericValue left, numericValue right with
    | some left, some right => left == right
    | _, _ => false

def compareValues (left right : Value) (comparison : Comparison) : Bool :=
  let numbers (test : ℤ → ℤ → Bool) : Bool :=
    match numericValue left, numericValue right with
    | some left, some right => test left right
    | _, _ => false
  match comparison with
  | .equal => valuesEqual left right
  | .notEqual => !valuesEqual left right
  | .less => numbers fun left right => left < right
  | .lessEqual => numbers fun left right => left ≤ right
  | .greater => numbers fun left right => right < left
  | .greaterEqual => numbers fun left right => right ≤ left

def Condition.valid (condition : Condition) : Bool := !condition.field.isEmpty

/-- A property that is not there matches nothing. -/
def Condition.matches (condition : Condition) (values : PropertyBag) : Bool :=
  match values[condition.field]? with
  | some value => compareValues value condition.expected condition.comparison
  | none => false

def Expression.valid (expression : Expression) : Bool := expression.all Condition.valid

def Expression.evaluate (expression : Expression) (values : PropertyBag) : Bool :=
  expression.valid && expression.all fun condition => condition.matches values

end GeoWorld.Rules

/-!
The order that conditions give to numbers. `less` and the like compare doubles, while two
integers are equal only if they are the same: integers that one double stands for are
neither equal nor ordered.
-/

namespace GeoWorld.Rules

open WorldModel Library

/-- An `int64` or a finite double. -/
def IsNumber : Value → Prop
  | .integer _ => True
  | .real bits => Binary64.isFinite bits = true
  | .boolean _ => False
  | .text _ => False

/-- Different integers with the same double. -/
def Merged (left right : Value) : Prop :=
  ∃ first second : Int64, left = .integer first ∧ right = .integer second ∧ first ≠ second ∧
    unitsOfInt64 first = unitsOfInt64 second

/-- The answer of a condition whose field has the value `left`. -/
def answer (field : ByteString) (left right : Value) (comparison : Comparison) : Bool :=
  Condition.matches ⟨field, comparison, right⟩ ((∅ : PropertyBag).insert field left)

/-- The comparisons of two values fit together. -/
structure PairLaws (field : ByteString) (left right : Value) : Prop where
  one : [Comparison.less, .equal, .greater].countP (answer field left right) = 1
  less_equal : answer field left right .lessEqual =
    (answer field left right .less || answer field left right .equal)
  greater_equal : answer field left right .greaterEqual =
    (answer field left right .greater || answer field left right .equal)
  not_equal : answer field left right .notEqual = !answer field left right .equal

structure ChainLaws (field : ByteString) (first second third : Value) : Prop where
  equal : answer field first second .equal = true → answer field second third .equal = true →
    answer field first third .equal = true
  less : answer field first second .less = true → answer field second third .less = true →
    answer field first third .less = true

section Numbers

variable {field : ByteString} {left right third : Value} {first second last : ℤ}

theorem answer_eq (field : ByteString) (left right : Value) (comparison : Comparison) :
    answer field left right comparison = compareValues left right comparison := by
  simp [answer, Condition.matches]

theorem IsNumber.numericValue (number : IsNumber left) :
    ∃ units, numericValue left = some units := by
  cases left with
  | integer value => exact ⟨_, rfl⟩
  | real bits => exact ⟨Binary64.units bits, if_pos number⟩
  | boolean value => exact number.elim
  | text value => exact number.elim

theorem not_nan {bits : UInt64} (finite : Binary64.isFinite bits = true) :
    Binary64.isNan bits = false := by
  simp only [Binary64.isFinite, bne_iff_ne, ne_eq] at finite
  simp [Binary64.isNan, finite]

/-- Equality is that of the doubles, integers with one double apart. -/
theorem valuesEqual_iff (left_units : numericValue left = some first)
    (right_units : numericValue right = some second) (apart : ¬ Merged left right) :
    valuesEqual left right = true ↔ first = second := by
  cases left with
  | integer value =>
    cases right with
    | integer other =>
      obtain rfl := Option.some.inj left_units
      obtain rfl := Option.some.inj right_units
      simp only [valuesEqual, beq_iff_eq]
      constructor
      · rintro rfl
        rfl
      · intro same
        by_contra differ
        exact apart ⟨value, other, rfl, rfl, differ, same⟩
    | real bits => simp only [valuesEqual, left_units, right_units, beq_iff_eq]
    | boolean _ => simp [numericValue] at right_units
    | text _ => simp [numericValue] at right_units
  | real bits =>
    cases right with
    | integer other => simp only [valuesEqual, left_units, right_units, beq_iff_eq]
    | real others =>
      simp only [numericValue, Option.ite_none_right_eq_some] at left_units right_units
      obtain ⟨left_finite, left_same⟩ := left_units
      obtain ⟨right_finite, right_same⟩ := right_units
      obtain rfl := Option.some.inj left_same
      obtain rfl := Option.some.inj right_same
      simp [valuesEqual, Binary64.equal, not_nan left_finite, not_nan right_finite]
    | boolean _ => simp [numericValue] at right_units
    | text _ => simp [numericValue] at right_units
  | boolean _ => simp [numericValue] at left_units
  | text _ => simp [numericValue] at left_units

theorem merged_unequal (merged : Merged left right) : valuesEqual left right = false := by
  obtain ⟨value, other, rfl, rfl, differ, -⟩ := merged
  simp [valuesEqual, differ]

theorem merged_units (merged : Merged left right) :
    ∃ units, numericValue left = some units ∧ numericValue right = some units := by
  obtain ⟨value, other, rfl, rfl, -, same⟩ := merged
  exact ⟨_, rfl, congrArg some same.symm⟩

theorem answer_less (left_units : numericValue left = some first)
    (right_units : numericValue right = some second) :
    answer field left right .less = decide (first < second) := by
  simp [answer_eq, compareValues, left_units, right_units]

theorem answer_greater (left_units : numericValue left = some first)
    (right_units : numericValue right = some second) :
    answer field left right .greater = decide (second < first) := by
  simp [answer_eq, compareValues, left_units, right_units]

theorem answer_equal (left_units : numericValue left = some first)
    (right_units : numericValue right = some second) (apart : ¬ Merged left right) :
    answer field left right .equal = decide (first = second) := by
  rw [answer_eq]
  exact Bool.eq_iff_iff.mpr
    ((valuesEqual_iff left_units right_units apart).trans decide_eq_true_iff.symm)

theorem PairLaws.of_apart (left_units : numericValue left = some first)
    (right_units : numericValue right = some second) (apart : ¬ Merged left right) :
    PairLaws field left right where
  one := by
    simp only [List.countP_cons, List.countP_nil, answer_less left_units right_units,
      answer_greater left_units right_units, answer_equal left_units right_units apart,
      decide_eq_true_eq]
    split_ifs <;> omega
  less_equal := by
    rw [answer_less left_units right_units, answer_equal left_units right_units apart, answer_eq]
    simp [compareValues, left_units, right_units, le_iff_lt_or_eq]
  greater_equal := by
    rw [answer_greater left_units right_units, answer_equal left_units right_units apart,
      answer_eq]
    simp [compareValues, left_units, right_units, le_iff_lt_or_eq, eq_comm]
  not_equal := by
    simp only [answer_eq, compareValues]

/-- Of merged integers none of the three comparisons holds. -/
theorem PairLaws.apart (laws : PairLaws field left right) : ¬ Merged left right := by
  intro merged
  obtain ⟨units, left_units, right_units⟩ := merged_units merged
  have one := laws.one
  have unequal : answer field left right .equal = false := by
    rw [answer_eq]
    exact merged_unequal merged
  simp [answer_less left_units right_units, answer_greater left_units right_units, unequal] at one

theorem ChainLaws.of_apart (left_units : numericValue left = some first)
    (right_units : numericValue right = some second)
    (third_units : numericValue third = some last) (near : ¬ Merged left right)
    (far : ¬ Merged right third) (ends : ¬ Merged left third) :
    ChainLaws field left right third where
  equal := by
    rw [answer_equal left_units right_units near, answer_equal right_units third_units far,
      answer_equal left_units third_units ends]
    simp only [decide_eq_true_eq]
    exact Eq.trans
  less := by
    rw [answer_less left_units right_units, answer_less right_units third_units,
      answer_less left_units third_units]
    simp only [decide_eq_true_eq]
    exact lt_trans

end Numbers

/-- The laws hold among three numbers if and only if no two of them are merged. -/
theorem condition_order_iff (field : ByteString) {a b c : Value} (a_number : IsNumber a)
    (b_number : IsNumber b) (c_number : IsNumber c) :
    ((∀ left ∈ [a, b, c], ∀ right ∈ [a, b, c], PairLaws field left right) ∧
        ∀ left ∈ [a, b, c], ∀ right ∈ [a, b, c], ∀ third ∈ [a, b, c],
          ChainLaws field left right third) ↔
      ∀ left ∈ [a, b, c], ∀ right ∈ [a, b, c], ¬ Merged left right := by
  have units : ∀ value ∈ [a, b, c], ∃ number, numericValue value = some number := by
    intro value member
    simp only [List.mem_cons, List.not_mem_nil, or_false] at member
    rcases member with rfl | rfl | rfl
    · exact a_number.numericValue
    · exact b_number.numericValue
    · exact c_number.numericValue
  constructor
  · rintro ⟨pairs, -⟩ left left_in right right_in
    exact (pairs left left_in right right_in).apart
  · intro apart
    constructor
    · intro left left_in right right_in
      obtain ⟨_, left_units⟩ := units left left_in
      obtain ⟨_, right_units⟩ := units right right_in
      exact .of_apart left_units right_units (apart left left_in right right_in)
    · intro left left_in right right_in third third_in
      obtain ⟨_, left_units⟩ := units left left_in
      obtain ⟨_, right_units⟩ := units right right_in
      obtain ⟨_, third_units⟩ := units third third_in
      exact .of_apart left_units right_units third_units (apart left left_in right right_in)
        (apart right right_in third third_in) (apart left left_in third third_in)

/-- The double `1.0`. -/
def oneReal : Value := .real 0x3FF0000000000000

theorem condition_order_small :
    answer [] (.integer 1) oneReal .equal = true ∧
      ChainLaws [] (.integer 1) oneReal (.integer 2) := by
  have apart : ∀ left ∈ [Value.integer 1, oneReal, .integer 2],
      ∀ right ∈ [Value.integer 1, oneReal, .integer 2], ¬ Merged left right := by
    intro left left_in right right_in merged
    obtain ⟨first, second, rfl, rfl, differ, same⟩ := merged
    simp only [List.mem_cons, oneReal, Value.integer.injEq, reduceCtorEq, List.not_mem_nil,
      or_false, false_or] at left_in right_in
    rcases left_in with rfl | rfl <;> rcases right_in with rfl | rfl
    · exact differ rfl
    · exact absurd same (by decide +kernel)
    · exact absurd same (by decide +kernel)
    · exact differ rfl
  refine ⟨by decide +kernel, ?_⟩
  exact ((condition_order_iff [] (a := .integer 1) (b := oneReal) (c := .integer 2) trivial
    (by show Binary64.isFinite _ = true; decide +kernel) trivial).mpr apart).2 _ (by simp) _
      (by simp) _ (by simp)

/-- `2 ^ 53` and `2 ^ 53 + 1` are neither equal nor ordered. -/
theorem neighbours_unordered :
    ¬ ∀ a b c : Value, IsNumber a → IsNumber b → IsNumber c →
      PairLaws [] a b ∧ ChainLaws [] a b c := by
  intro claim
  refine (claim (.integer 9007199254740992) (.integer 9007199254740993) (.integer 0) trivial
    trivial trivial).1.apart ⟨_, _, rfl, rfl, by decide, ?_⟩
  decide +kernel

end GeoWorld.Rules
