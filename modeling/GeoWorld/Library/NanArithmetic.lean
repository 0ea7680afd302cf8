import Mathlib

/-!
Exact arithmetic with a value that is no number. It comes out of every operation it goes
into, and no comparison with it holds.
-/

namespace GeoWorld.Library

inductive OrNan (α : Type*) where
  | number (value : α)
  | nan
  deriving DecidableEq

namespace OrNan

variable {α : Type*}

def map (f : α → α) : OrNan α → OrNan α
  | .number value => .number (f value)
  | .nan => .nan

def combine (f : α → α → α) : OrNan α → OrNan α → OrNan α
  | .number left, .number right => .number (f left right)
  | _, _ => .nan

instance [Add α] : Add (OrNan α) :=
  ⟨combine (· + ·)⟩

instance [Sub α] : Sub (OrNan α) :=
  ⟨combine (· - ·)⟩

/-- The comparison `value > bound`. -/
def exceeds [LT α] [DecidableLT α] : OrNan α → α → Bool
  | .number value, bound => decide (bound < value)
  | .nan, _ => false

/-- The comparison `value ≤ bound`. -/
def AtMost [LE α] : OrNan α → α → Prop
  | .number value, bound => value ≤ bound
  | .nan, _ => False

def IsNumber : OrNan α → Prop
  | .number _ => True
  | .nan => False

/-- What does not exceed a bound may also be no number. -/
theorem atMost_iff [LinearOrder α] (value : OrNan α) (bound : α) :
    value.AtMost bound ↔ value.IsNumber ∧ value.exceeds bound = false := by
  cases value with
  | number value => simp [AtMost, IsNumber, exceeds]
  | nan => simp [AtMost, IsNumber]

@[simp] theorem isNumber_map (f : α → α) (value : OrNan α) :
    (value.map f).IsNumber ↔ value.IsNumber := by
  cases value <;> rfl

@[simp] theorem isNumber_sub [Sub α] (left right : OrNan α) :
    (left - right).IsNumber ↔ left.IsNumber ∧ right.IsNumber := by
  cases left with
  | number left =>
    cases right with
    | number right => exact ⟨fun _ => ⟨trivial, trivial⟩, fun _ => trivial⟩
    | nan => exact ⟨False.elim, And.right⟩
  | nan => exact ⟨False.elim, And.left⟩

section Spread

variable [Field α] [LinearOrder α] [IsStrictOrderedRing α]

/-- The width of the interval of a radius around a centre. -/
theorem spread_atMost (center radius : OrNan α) (bound : α) :
    (((center + radius) - (center - radius)).map abs).AtMost bound ↔
      center.IsNumber ∧ (radius.map fun value => 2 * |value|).AtMost bound := by
  cases center with
  | nan =>
    cases radius with
    | nan => exact ⟨False.elim, And.left⟩
    | number radius => exact ⟨False.elim, And.left⟩
  | number center =>
    cases radius with
    | nan => exact ⟨False.elim, And.right⟩
    | number radius =>
      have width : center + radius - (center - radius) = 2 * radius := by ring
      have size : |center + radius - (center - radius)| = 2 * |radius| := by
        rw [width, abs_mul, abs_two]
      change |center + radius - (center - radius)| ≤ bound ↔ True ∧ 2 * |radius| ≤ bound
      rw [size, true_and]

end Spread

end OrNan

end GeoWorld.Library
