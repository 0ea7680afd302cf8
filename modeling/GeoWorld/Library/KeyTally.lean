import Mathlib
import GeoWorld.Library.TreeMap

/-!
A map from keys to counts that stands for a multiset of keys: a key of the multiset has its
multiplicity, any other key has no entry.
-/

namespace GeoWorld.Library

open Std

section Tally

variable {α : Type} {cmp : α → α → Ordering} [TransCmp cmp] [DecidableEq α]

/-- One occurrence more. -/
def tallyAdd (counts : ExtTreeMap α Nat cmp) (key : α) : ExtTreeMap α Nat cmp :=
  counts.insert key ((counts[key]?).getD 0 + 1)

/-- One occurrence less; the last one takes the entry with it. -/
def tallyRelease (counts : ExtTreeMap α Nat cmp) (key : α) : ExtTreeMap α Nat cmp :=
  match counts[key]? with
  | none => counts
  | some count => if count - 1 = 0 then counts.erase key else counts.insert key (count - 1)

def Tallies (counts : ExtTreeMap α Nat cmp) (keys : Multiset α) : Prop :=
  ∀ key, counts[key]? = if key ∈ keys then some (keys.count key) else none

namespace Tallies

variable {counts : ExtTreeMap α Nat cmp} {keys : Multiset α}

theorem empty : Tallies (∅ : ExtTreeMap α Nat cmp) 0 := by
  intro key
  simp

theorem getD_eq (tallies : Tallies counts keys) (key : α) :
    (counts[key]?).getD 0 = keys.count key := by
  rw [tallies key]
  split
  · rfl
  · next absent => exact (Multiset.count_eq_zero.mpr absent).symm

theorem ne_zero (tallies : Tallies counts keys) (key : α) : counts[key]? ≠ some 0 := by
  rw [tallies key]
  split
  · next member =>
    intro zero
    exact absurd (Option.some.inj zero) (Multiset.count_pos.mpr member).ne'
  · simp

variable [LawfulEqCmp cmp]

theorem add (tallies : Tallies counts keys) (key : α) :
    Tallies (tallyAdd counts key) (key ::ₘ keys) := by
  intro other
  rw [tallyAdd, tallies.getD_eq key, lookup_insert]
  by_cases same : other = key
  · subst same
    simp
  · rw [if_neg same, tallies other]
    simp [same]

theorem release {key : α} (tallies : Tallies counts (key ::ₘ keys)) :
    Tallies (tallyRelease counts key) keys := by
  have found : counts[key]? = some (keys.count key + 1) := by
    rw [tallies key]
    simp
  intro other
  unfold tallyRelease
  rw [found]
  simp only [Nat.add_sub_cancel]
  by_cases same : other = key
  · subst same
    split
    · next last =>
      rw [lookup_erase_self, if_neg (Multiset.count_eq_zero.mp last)]
    · next more =>
      rw [lookup_insert_self, if_pos (Multiset.count_ne_zero.mp more)]
  · have unchanged : counts[other]? = if other ∈ keys then some (keys.count other) else none := by
      rw [tallies other]
      simp [same]
    split
    · rw [lookup_erase_ne _ same, unchanged]
    · rw [lookup_insert_ne _ same, unchanged]

theorem addAll (tallies : Tallies counts keys) (added : List α) :
    Tallies (added.foldl tallyAdd counts) (keys + added) := by
  induction added generalizing counts keys with
  | nil => simpa using tallies
  | cons key rest ih =>
    rw [List.foldl_cons, ← Multiset.cons_coe, Multiset.add_cons, ← Multiset.cons_add]
    exact ih (tallies.add key)

theorem releaseAll {removed : List α} (tallies : Tallies counts (removed + keys)) :
    Tallies (removed.foldl tallyRelease counts) keys := by
  induction removed generalizing counts with
  | nil => simpa using tallies
  | cons key rest ih =>
    rw [← Multiset.cons_coe, Multiset.cons_add] at tallies
    exact ih tallies.release

end Tallies

end Tally

end GeoWorld.Library
