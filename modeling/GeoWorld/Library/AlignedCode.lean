import Mathlib

/-!
Writers against a coarser equality. Where values that `same` takes for equal are written in
the same length, what is written tells them apart as soon as they differ at all, also in
front of other text and in a row.
-/

namespace GeoWorld.Library

variable {α β : Type}

structure Aligned (same : α → α → Bool) (write : α → List β) : Prop where
  length : ∀ a b, same a b = true → (write a).length = (write b).length
  injective : ∀ a b, same a b = true → write a = write b → a = b

variable {same : α → α → Bool} {write : α → List β}

theorem aligned_of_eq (exact : ∀ a b, same a b = true → a = b) : Aligned same write where
  length a b alike := congrArg (fun value => (write value).length) (exact a b alike)
  injective a b alike _ := exact a b alike

/-- The first value is told apart whatever is written behind it. -/
theorem Aligned.split (aligned : Aligned same write) {a b : α} {rest rest' : List β}
    (alike : same a b = true) (written : write a ++ rest = write b ++ rest') :
    a = b ∧ rest = rest' := by
  obtain ⟨front, back⟩ := List.append_inj written (aligned.length a b alike)
  exact ⟨aligned.injective a b alike front, back⟩

theorem Aligned.flatMap (aligned : Aligned same write) :
    Aligned (fun left right : List α => left.isEqv right same)
      fun items : List α => items.flatMap write := by
  constructor
  · intro left
    induction left with
    | nil =>
      intro right alike
      cases right with
      | nil => rfl
      | cons b right => cases alike
    | cons a left ih =>
      intro right alike
      cases right with
      | nil => cases alike
      | cons b right =>
        rw [List.isEqv_cons_cons, Bool.and_eq_true] at alike
        rw [List.flatMap_cons, List.flatMap_cons, List.length_append, List.length_append,
          aligned.length a b alike.1, ih right alike.2]
  · intro left
    induction left with
    | nil =>
      intro right alike _
      cases right with
      | nil => rfl
      | cons b right => cases alike
    | cons a left ih =>
      intro right alike written
      cases right with
      | nil => cases alike
      | cons b right =>
        rw [List.isEqv_cons_cons, Bool.and_eq_true] at alike
        obtain ⟨rfl, rest⟩ := aligned.split alike.1 written
        rw [ih right alike.2 rest]

/-- Behind a head that both write alike. -/
theorem Aligned.behind (aligned : Aligned same write) {head : α → List β}
    (alike_heads : ∀ a b, same a b = true → head a = head b) :
    Aligned same fun value => head value ++ write value := by
  constructor
  · intro a b alike
    rw [List.length_append, List.length_append, alike_heads a b alike, aligned.length a b alike]
  · intro a b alike written
    rw [alike_heads a b alike] at written
    exact aligned.injective a b alike (List.append_cancel_left written)

end GeoWorld.Library
