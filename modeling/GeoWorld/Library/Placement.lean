import Mathlib
import GeoWorld.Library.TreeMap

/-!
Items placed in cells, recorded from both sides: the cell of every item and the items of
every cell. Placing and removing keep the two tables the same relation, so what is collected
from some cells is what is placed in one of them.
-/

namespace GeoWorld.Library

open Std

structure Placement (ι κ : Type) (itemCmp : ι → ι → Ordering) (cellCmp : κ → κ → Ordering) where
  members : ExtTreeMap κ (ExtTreeSet ι itemCmp) cellCmp := ∅
  locations : ExtTreeMap ι κ itemCmp := ∅

namespace Placement

variable {ι κ : Type} {itemCmp : ι → ι → Ordering} {cellCmp : κ → κ → Ordering}
variable [TransCmp itemCmp] [TransCmp cellCmp] [DecidableEq κ]

/-- The items of a cell. -/
def membersOf (index : Placement ι κ itemCmp cellCmp) (cell : κ) : ExtTreeSet ι itemCmp :=
  (index.members[cell]?).getD ∅

def place (index : Placement ι κ itemCmp cellCmp) (id : ι) (cell : κ) :
    Placement ι κ itemCmp cellCmp :=
  match index.locations[id]? with
  | none =>
    { members := index.members.insert cell ((index.membersOf cell).insert id)
      locations := index.locations.insert id cell }
  | some previous =>
    if previous = cell then
      index
    else
      let left := index.members.insert previous ((index.membersOf previous).erase id)
      { members := left.insert cell (((left[cell]?).getD ∅).insert id)
        locations := index.locations.insert id cell }

def remove (index : Placement ι κ itemCmp cellCmp) (id : ι) : Placement ι κ itemCmp cellCmp :=
  match index.locations[id]? with
  | none => index
  | some cell =>
    { members := index.members.insert cell ((index.membersOf cell).erase id)
      locations := index.locations.erase id }

/-- The items of some cells. -/
def collect (index : Placement ι κ itemCmp cellCmp) (cells : List κ) : ExtTreeSet ι itemCmp :=
  cells.foldl (fun found cell => found ∪ index.membersOf cell) ∅

/-- Both tables say the same. -/
def Consistent (index : Placement ι κ itemCmp cellCmp) : Prop :=
  ∀ id cell, id ∈ index.membersOf cell ↔ index.locations[id]? = some cell

omit [DecidableEq κ] in
theorem consistent_empty : Consistent ({} : Placement ι κ itemCmp cellCmp) := by
  intro id cell
  simp [membersOf]

omit [DecidableEq κ] in
theorem mem_collect (index : Placement ι κ itemCmp cellCmp) (cells : List κ) (id : ι) :
    id ∈ index.collect cells ↔ ∃ cell ∈ cells, id ∈ index.membersOf cell := by
  have collected : ∀ (cells : List κ) (found : ExtTreeSet ι itemCmp),
      id ∈ cells.foldl (fun found cell => found ∪ index.membersOf cell) found ↔
        id ∈ found ∨ ∃ cell ∈ cells, id ∈ index.membersOf cell := by
    intro cells
    induction cells with
    | nil => simp
    | cons cell rest ih =>
      intro found
      rw [List.foldl_cons, ih, ExtTreeSet.mem_union_iff]
      simp [or_assoc]
  rw [collect, collected]
  simp

variable [LawfulEqCmp itemCmp] [LawfulEqCmp cellCmp] [DecidableEq ι]
variable {index : Placement ι κ itemCmp cellCmp}

omit [DecidableEq ι] [LawfulEqCmp itemCmp] in
theorem mem_insert_members (members : ExtTreeMap κ (ExtTreeSet ι itemCmp) cellCmp)
    (cell other : κ) (items : ExtTreeSet ι itemCmp) (id : ι) :
    id ∈ ((members.insert cell items)[other]?).getD ∅ ↔
      if other = cell then id ∈ items else id ∈ (members[other]?).getD ∅ := by
  rw [lookup_insert]
  split <;> rfl

omit [LawfulEqCmp cellCmp] in
theorem place_locations (index : Placement ι κ itemCmp cellCmp) (id : ι) (cell : κ) (other : ι) :
    (index.place id cell).locations[other]? =
      if other = id then some cell else index.locations[other]? := by
  unfold place
  cases located : index.locations[id]? with
  | none => exact lookup_insert _ _ _ _
  | some previous =>
    simp only
    split
    · next same =>
      by_cases own : other = id
      · rw [if_pos own, own, located, same]
      · rw [if_neg own]
    · exact lookup_insert _ _ _ _

omit [DecidableEq κ] [LawfulEqCmp cellCmp] in
theorem remove_locations (index : Placement ι κ itemCmp cellCmp) (id other : ι) :
    (index.remove id).locations[other]? = if other = id then none else index.locations[other]? := by
  unfold remove
  cases located : index.locations[id]? with
  | none =>
    by_cases own : other = id
    · rw [if_pos own, own]
      exact located
    · rw [if_neg own]
  | some cell => exact lookup_erase _ _ _

theorem place_consistent (consistent : index.Consistent) (id : ι) (cell : κ) :
    (index.place id cell).Consistent := by
  intro other place
  rw [place_locations]
  have before := consistent other place
  have placed := consistent id
  unfold membersOf at before placed
  unfold Placement.place membersOf
  cases located : index.locations[id]? with
  | none =>
    simp only [located, reduceCtorEq, iff_false] at placed
    rw [mem_insert_members]
    by_cases own : other = id
    · subst own
      by_cases here : place = cell
      · simp [here]
      · simp [here, placed, Ne.symm here]
    · by_cases here : place = cell
      · subst here
        simp [own, Ne.symm own, ← before]
      · simp [here, own, before]
  | some previous =>
    simp only [located, Option.some.injEq] at placed
    simp only
    split
    · next unmoved =>
      by_cases own : other = id
      · subst own
        rw [if_pos rfl, ← unmoved, before, located]
      · rw [if_neg own, before]
    · next moved =>
      rw [mem_insert_members, mem_insert_members]
      by_cases own : other = id
      · subst own
        by_cases here : place = cell
        · simp [here]
        · by_cases left : place = previous
          · simp [left, moved, Ne.symm moved]
          · have absent := placed place
            simp [here, left, Ne.symm here, absent, Ne.symm left]
      · by_cases here : place = cell
        · subst here
          simp [own, Ne.symm own, ← before, lookup_insert_ne _ (Ne.symm moved)]
        · by_cases left : place = previous
          · subst left
            simp [here, own, Ne.symm own, ← before]
          · simp [here, left, own, before]

theorem remove_consistent (consistent : index.Consistent) (id : ι) :
    (index.remove id).Consistent := by
  intro other place
  rw [remove_locations]
  have before := consistent other place
  have placed := consistent id
  unfold membersOf at before placed
  unfold remove membersOf
  cases located : index.locations[id]? with
  | none =>
    by_cases own : other = id
    · subst own
      simp [before, located]
    · simp [own, before]
  | some previous =>
    simp only [located, Option.some.injEq] at placed
    rw [mem_insert_members]
    by_cases own : other = id
    · subst own
      by_cases left : place = previous
      · simp [left]
      · simp [left, placed, Ne.symm left]
    · by_cases left : place = previous
      · subst left
        simp [own, Ne.symm own, ← before]
      · simp [left, own, before]

omit [LawfulEqCmp itemCmp] [LawfulEqCmp cellCmp] [DecidableEq κ] [DecidableEq ι] in
/-- What is collected is what is placed in one of the cells. -/
theorem mem_collect_iff (consistent : index.Consistent) (cells : List κ) (id : ι) :
    id ∈ index.collect cells ↔ ∃ cell ∈ cells, index.locations[id]? = some cell := by
  simp only [mem_collect, consistent id]

end Placement

end GeoWorld.Library
