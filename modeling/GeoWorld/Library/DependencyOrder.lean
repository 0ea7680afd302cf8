import Mathlib

/-!
Orders in which everything stands behind what it needs. Such an order of all elements
exists only where no element needs itself, directly or through others.
-/

namespace GeoWorld.Library

open Relation

variable {α : Type} {needs : α → α → Prop}

/-- Every element stands behind the ones it needs. -/
def InDependencyOrder (needs : α → α → Prop) (order : List α) : Prop :=
  ∀ front element back, order = front ++ element :: back →
    ∀ needed, needs element needed → needed ∈ front

theorem inDependencyOrder_nil : InDependencyOrder needs [] := by
  intro front element back split
  simp at split

/-- An element whose needs are met is put behind an order. -/
theorem InDependencyOrder.append {order : List α} (ordered : InDependencyOrder needs order)
    {last : α} (met : ∀ needed, needs last needed → needed ∈ order) :
    InDependencyOrder needs (order ++ [last]) := by
  intro front element back split needed need
  rcases List.eq_nil_or_concat back with rfl | ⟨before, final, rfl⟩
  · obtain ⟨rfl, same⟩ := List.append_inj' split rfl
    obtain rfl := List.singleton_inj.mp same
    exact met needed need
  · have inner : order = front ++ element :: before := by
      refine (List.append_inj' (?_ : order ++ [last] = (front ++ element :: before) ++ [final])
        rfl).1
      simpa using split
    exact ordered front element before inner needed need

theorem InDependencyOrder.closed {order : List α} (ordered : InDependencyOrder needs order)
    {element needed : α} (member : element ∈ order) (need : needs element needed) :
    needed ∈ order := by
  obtain ⟨front, back, rfl⟩ := List.append_of_mem member
  exact List.mem_append_left _ (ordered front element back rfl needed need)

/-- What an element needs through others stands in front of it as well. -/
theorem InDependencyOrder.transGen {order : List α} (ordered : InDependencyOrder needs order)
    {element needed : α} (need : TransGen needs element needed) {front back : List α}
    (split : order = front ++ element :: back) : needed ∈ front := by
  induction need using TransGen.head_induction_on generalizing front back with
  | single need => exact ordered _ _ _ split _ need
  | @head current next need _ ih =>
    have met := ordered _ _ _ split _ need
    obtain ⟨before, behind, rfl⟩ := List.append_of_mem met
    exact List.mem_append_left _ (@ih before (behind ++ current :: back) (by rw [split]; simp))

/-- Nothing in such an order needs itself. -/
theorem InDependencyOrder.acyclic {order : List α} (ordered : InDependencyOrder needs order)
    (distinct : order.Nodup) {element : α} (member : element ∈ order) :
    ¬ TransGen needs element element := by
  intro cycle
  obtain ⟨front, back, split⟩ := List.append_of_mem member
  have before := ordered.transGen cycle split
  rw [split] at distinct
  exact (List.nodup_append.mp distinct).2.2 element before element (by simp) rfl

end GeoWorld.Library
