import Mathlib
import GeoWorld.Library.SortedMerge
import GeoWorld.Library.TreeMap

/-!
Where two recorded sequences of state hashes part: `first_hash_divergence`, and the loop
of the same purpose in `gw-replay`. Both walk the two maps by ascending tick.
-/

namespace GeoWorld.Persistence

open Library

/-- The hashes recorded under their ticks. -/
abbrev RecordedHashes := Std.ExtTreeMap UInt64 UInt64 compare

structure HashDivergence where
  tick : UInt64
  left : Option UInt64
  right : Option UInt64
  deriving DecidableEq

/-- The loop of `first_hash_divergence` over what the two iterators have left. -/
def firstDivergence :
    List (UInt64 × UInt64) → List (UInt64 × UInt64) → Option HashDivergence
  | [], [] => none
  | a :: _, [] => some ⟨a.1, some a.2, none⟩
  | [], b :: _ => some ⟨b.1, none, some b.2⟩
  | a :: left, b :: right =>
    if a.1 < b.1 then some ⟨a.1, some a.2, none⟩
    else if b.1 < a.1 then some ⟨b.1, none, some b.2⟩
    else if a.2 ≠ b.2 then some ⟨a.1, some a.2, some b.2⟩
    else firstDivergence left right

def firstHashDivergence (left right : RecordedHashes) : Option HashDivergence :=
  firstDivergence left.toList right.toList

/-- The loop of `compare`: the tick it stops at, and what the iterators have left. -/
def compareLoop : List (UInt64 × UInt64) → List (UInt64 × UInt64) →
    Option UInt64 × List (UInt64 × UInt64) × List (UInt64 × UInt64)
  | ai :: left, bi :: right =>
    if ai.1 ≠ bi.1 ∨ ai.2 ≠ bi.2 then (some (min ai.1 bi.1), ai :: left, bi :: right)
    else compareLoop left right
  | left, right => (none, left, right)

/-- The tick of the first entry that one of the iterators has left. -/
def remainingTick : List (UInt64 × UInt64) → List (UInt64 × UInt64) → Option UInt64
  | ai :: _, _ => some ai.1
  | [], bi :: _ => some bi.1
  | [], [] => none

/-- The tick `compare` prints. -/
def compareTick (left right : RecordedHashes) : Option UInt64 :=
  let stopped := compareLoop left.toList right.toList
  stopped.1.or (remainingTick stopped.2.1 stopped.2.2)

section Walks

/-- Hashes are compared as they are. -/
abbrev hashesDiffer (left right : UInt64) : Bool := left != right

theorem differs_hashes {left right : Option UInt64} :
    Differs hashesDiffer left right = false ↔ left = right := by
  cases left <;> cases right <;> simp [Differs]

theorem firstDivergence_eq (left right : List (UInt64 × UInt64)) :
    firstDivergence left right = (differences hashesDiffer left right).head?.map
      fun difference => ⟨difference.key, difference.left, difference.right⟩ := by
  fun_induction firstDivergence left right with
  | case1 => simp [differences]
  | case2 a left => simp [differences]
  | case3 b right => simp [differences]
  | case4 a left b right early => simp [differences, early]
  | case5 a left b right early late => simp [differences, early, late]
  | case6 a left b right early late apart => simp [differences, early, late, apart]
  | case7 a left b right early late alike ih =>
    simp only [not_not] at alike
    simp [differences, early, late, alike, ih]

theorem tick_min (one other : UInt64) : min one other = if one ≤ other then one else other :=
  rfl

theorem compareLoop_eq (left right : List (UInt64 × UInt64)) :
    (compareLoop left right).1.or
        (remainingTick (compareLoop left right).2.1 (compareLoop left right).2.2) =
      (firstDivergence left right).map HashDivergence.tick := by
  fun_induction compareLoop left right with
  | case1 ai left bi right apart =>
    rw [Option.some_or]
    by_cases early : ai.1 < bi.1
    · simp [firstDivergence, early, tick_min, UInt64.le_of_lt early]
    · by_cases late : bi.1 < ai.1
      · simp [firstDivergence, early, late, tick_min, UInt64.not_le.mpr late]
      · have same : ai.1 = bi.1 := UInt64.le_antisymm (UInt64.not_lt.mp late) (UInt64.not_lt.mp early)
        have hashes : ai.2 ≠ bi.2 := apart.resolve_left fun ticks => ticks same
        simp [firstDivergence, same, hashes, tick_min]
  | case2 ai left bi right alike ih =>
    rw [not_or, not_not, not_not] at alike
    simp [firstDivergence, alike.1, alike.2, ih]
  | case3 left right ends =>
    cases left with
    | nil => cases right <;> rfl
    | cons ai left =>
      cases right with
      | nil => rfl
      | cons bi right => exact (ends ai left bi right rfl rfl).elim

/-- The two finders agree: they answer nothing exactly when the maps are equal, and else the
least tick at which the maps differ, with what each of them holds there. -/
theorem divergence_finders_agree (left right : RecordedHashes) :
    (firstHashDivergence left right = none ↔ left = right) ∧
      compareTick left right = (firstHashDivergence left right).map HashDivergence.tick ∧
      ∀ divergence, firstHashDivergence left right = some divergence →
        left[divergence.tick]? ≠ right[divergence.tick]? ∧
        (∀ tick < divergence.tick, left[tick]? = right[tick]?) ∧
        divergence.left = left[divergence.tick]? ∧
        divergence.right = right[divergence.tick]? := by
  have one := toList_ascending left
  have two := toList_ascending right
  refine ⟨?_, compareLoop_eq left.toList right.toList, fun divergence found => ?_⟩
  · rw [firstHashDivergence, firstDivergence_eq, Option.map_eq_none_iff, List.head?_eq_none_iff,
      differences_eq_nil one two]
    simp only [entryAt_toList, differs_hashes]
    exact ⟨fun same => Std.ExtTreeMap.ext_getElem? fun tick => same tick, fun same tick => same ▸ rfl⟩
  · rw [firstHashDivergence, firstDivergence_eq] at found
    obtain ⟨difference, first, rfl⟩ := Option.map_eq_some_iff.mp found
    obtain ⟨⟨before, after, differs⟩, least⟩ := head_differences one two first
    rw [entryAt_toList] at before after
    refine ⟨fun same => ?_, fun tick early => ?_, before, after⟩
    · rw [before, after, differs_hashes.mpr same] at differs
      cases differs
    · have alike := least tick early
      rwa [entryAt_toList, entryAt_toList, differs_hashes] at alike

end Walks

end GeoWorld.Persistence
