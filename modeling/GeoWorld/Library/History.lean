import Mathlib

/-!
Histories, newest event first, and what has held since something last occurred.
-/

namespace GeoWorld.Library

variable {ε : Type}

/-- Something occurred, and every event since then has been of a kind that keeps it. -/
def Since (occurred keeps : ε → Prop) (history : List ε) : Prop :=
  ∃ newer event older, history = newer ++ event :: older ∧ occurred event ∧
    ∀ later ∈ newer, keeps later

variable {occurred keeps : ε → Prop} {history : List ε}

theorem Since.now {event : ε} (occurs : occurred event) : Since occurred keeps (event :: history) :=
  ⟨[], event, history, rfl, occurs, by simp⟩

theorem Since.later (since : Since occurred keeps history) {event : ε} (kept : keeps event) :
    Since occurred keeps (event :: history) := by
  obtain ⟨newer, first, older, rfl, occurs, all⟩ := since
  refine ⟨event :: newer, first, older, rfl, occurs, ?_⟩
  rw [List.forall_mem_cons]
  exact ⟨kept, all⟩

theorem Since.mono {weaker : ε → Prop} (since : Since occurred keeps history)
    (implies : ∀ event, occurred event → weaker event) : Since weaker keeps history := by
  obtain ⟨newer, first, older, split, occurs, all⟩ := since
  exact ⟨newer, first, older, split, implies first occurs, all⟩

end GeoWorld.Library
