import Mathlib

/-!
Tasks that write slots of their own, run in whatever order. A row of indices
visited once each gives the same slots as a pass from the first to the last,
also when the indices are dealt out in chunks and when two kinds of tasks share
one range of task numbers.
-/

namespace GeoWorld.Library

/-- An order in which `count` tasks are run, each of them once. -/
abbrev TaskOrder (count : Nat) := { order : List Nat // order.Perm (List.range count) }

/-- What the threads make of a dispatch, whatever its number of tasks. -/
abbrev Schedule := (count : Nat) → TaskOrder count

section Slots

variable {α β : Type}

def visit (change : Nat → α → α) (slots : List α) (index : Nat) : List α :=
  slots.modify index (change index)

/-- The indices of one chunk: `[chunk * size, min(count, chunk * size + size))`. -/
def chunkIndices (size count chunk : Nat) : List Nat :=
  List.range' (chunk * size) (min count (chunk * size + size) - chunk * size)

/-- One task of a chunked loop. -/
def visitChunk (change : Nat → α → α) (size count : Nat) (slots : List α) (chunk : Nat) :
    List α :=
  (chunkIndices size count chunk).foldl (visit change) slots

def dispatch (first : α → Nat → α) (second : β → Nat → β) (split : Nat) (state : α × β)
    (task : Nat) : α × β :=
  if task < split then (first state.1 task, state.2)
  else (state.1, second state.2 (task - split))

theorem filter_high_perm {split others : Nat} {order : List Nat}
    (all : order.Perm (List.range (split + others))) :
    ((order.filter fun task => !decide (task < split)).map (· - split)).Perm
      (List.range others) := by
  refine ((all.filter _).map _).trans ?_
  rw [List.range_add, List.filter_append, List.filter_eq_nil_iff.mpr, List.nil_append,
    List.filter_eq_self.mpr, List.map_map]
  · have shifted : (fun task => task - split) ∘ (fun index => split + index) = id := by
      funext index
      simp
    rw [shifted, List.map_id]
  · intro task member
    obtain ⟨index, _, rfl⟩ := List.mem_map.mp member
    simp
  · intro task member
    simpa using member

end Slots

end GeoWorld.Library
