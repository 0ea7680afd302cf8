import Mathlib

/-!
The nodes that a work list comes to. Nodes are taken off the end of the list; one that is
known and was not reached before is reached, and the targets of its edges are put on the list.
The fuel that the edges of the known nodes give is enough.
-/

namespace GeoWorld.Library

namespace Worklist

variable {α : Type*} [DecidableEq α]

/-- The nodes reached, the latest first; `pending` is kept with its end in front. -/
def sweep (ids : List α) (edges : α → List α) : Nat → List α → List α → List α
  | 0, _, reached => reached
  | _ + 1, [], reached => reached
  | fuel + 1, current :: pending, reached =>
    if current ∉ ids ∨ current ∈ reached then
      sweep ids edges fuel pending reached
    else
      sweep ids edges fuel ((edges current).reverse ++ pending) (current :: reached)

/-- The edges that nodes still to be reached can put on the list. -/
def remaining (ids : List α) (edges : α → List α) (reached : List α) : Nat :=
  ((ids.filter fun id => id ∉ reached).map fun id => (edges id).length).sum

def reachableFrom (root : α) (ids : List α) (edges : α → List α) : List α :=
  sweep ids edges (remaining ids edges [] + 1) [root] []

/-- An edge between known nodes. -/
def Edge (ids : List α) (edges : α → List α) (source target : α) : Prop :=
  target ∈ edges source ∧ target ∈ ids

variable {ids pending reached : List α} {edges : α → List α} {current node root : α} {fuel : Nat}

theorem remaining_cons (known : current ∈ ids) (fresh : current ∉ reached) :
    remaining ids edges (current :: reached) + (edges current).length ≤
      remaining ids edges reached := by
  unfold remaining
  induction ids with
  | nil => cases known
  | cons first rest ih =>
    have rest_le : ((rest.filter fun id => id ∉ current :: reached).map
        fun id => (edges id).length).sum ≤
          ((rest.filter fun id => id ∉ reached).map fun id => (edges id).length).sum := by
      refine List.Sublist.sum_le_sum (List.Sublist.map _ ?_) (fun _ _ => Nat.zero_le _)
      exact List.monotone_filter_right _ (by simp)
    by_cases same : first = current
    · subst same
      simp only [List.filter_cons, List.mem_cons, true_or, not_true_eq_false, decide_false, fresh,
        not_false_eq_true, decide_true, if_true, List.map_cons, List.sum_cons]
      simp only [List.mem_cons] at rest_le
      simp only [Bool.false_eq_true, if_false]
      omega
    · have below := ih (List.mem_of_ne_of_mem (Ne.symm same) known)
      by_cases skipped : first ∈ reached
      · simpa [List.filter_cons, same, skipped] using below
      · simp only [List.filter_cons, List.mem_cons, same, skipped, or_self, not_false_eq_true,
          decide_true, if_true, List.map_cons, List.sum_cons]
        simp only [List.mem_cons] at below
        omega

/-- What is reached stays so, and everything is reached over edges from the list. -/
theorem sweep_sound (ids : List α) (edges : α → List α) (fuel : Nat) (pending reached : List α) :
    ∀ node ∈ sweep ids edges fuel pending reached, node ∈ reached ∨
      ∃ start ∈ pending, start ∈ ids ∧ Relation.ReflTransGen (Edge ids edges) start node := by
  induction fuel generalizing pending reached with
  | zero => exact fun node member => .inl member
  | succ fuel ih =>
    cases pending with
    | nil => exact fun node member => .inl member
    | cons current pending =>
      intro node member
      rw [sweep] at member
      split at member
      · rcases ih pending reached node member with old | ⟨start, listed, path⟩
        · exact .inl old
        · exact .inr ⟨start, List.mem_cons_of_mem _ listed, path⟩
      · rename_i visited
        rw [not_or, not_not] at visited
        rcases ih _ _ node member with old | ⟨start, listed, known, path⟩
        · rcases List.mem_cons.mp old with rfl | old
          · exact .inr ⟨node, List.mem_cons_self, visited.1, .refl⟩
          · exact .inl old
        · rcases List.mem_append.mp listed with target | listed
          · exact .inr ⟨current, List.mem_cons_self, visited.1,
              .head ⟨List.mem_reverse.mp target, known⟩ path⟩
          · exact .inr ⟨start, List.mem_cons_of_mem _ listed, known, path⟩

theorem sweep_reached (ids : List α) (edges : α → List α) (fuel : Nat) (pending reached : List α) :
    ∀ node ∈ reached, node ∈ sweep ids edges fuel pending reached := by
  induction fuel generalizing pending reached with
  | zero => exact fun node member => member
  | succ fuel ih =>
    cases pending with
    | nil => exact fun node member => member
    | cons current pending =>
      intro node member
      rw [sweep]
      split
      · exact ih _ _ node member
      · exact ih _ _ node (List.mem_cons_of_mem _ member)

/-- With enough fuel the list is worked off: what it held is reached, and the reached nodes
are closed under edges. -/
theorem sweep_closed (enough : pending.length + remaining ids edges reached ≤ fuel)
    (begun : ∀ source ∈ reached, ∀ target, Edge ids edges source target →
      target ∈ reached ∨ target ∈ pending) :
    (∀ node ∈ pending, node ∈ ids → node ∈ sweep ids edges fuel pending reached) ∧
      ∀ source ∈ sweep ids edges fuel pending reached, ∀ target, Edge ids edges source target →
        target ∈ sweep ids edges fuel pending reached := by
  induction fuel generalizing pending reached with
  | zero =>
    have empty : pending = [] := List.eq_nil_of_length_eq_zero (by omega)
    subst empty
    refine ⟨nofun, fun source member target edge => ?_⟩
    exact (begun source member target edge).resolve_right List.not_mem_nil
  | succ fuel ih =>
    cases pending with
    | nil =>
      refine ⟨nofun, fun source member target edge => ?_⟩
      exact (begun source member target edge).resolve_right List.not_mem_nil
    | cons current pending =>
      rw [List.length_cons] at enough
      rw [sweep]
      split
      · rename_i skipped
        have reached_if_known : current ∈ ids → current ∈ reached := fun known =>
          skipped.resolve_left (not_not.mpr known)
        have room : pending.length + remaining ids edges reached ≤ fuel := by omega
        obtain ⟨listed, closed⟩ := ih room fun source member target edge => by
          rcases begun source member target edge with old | next
          · exact .inl old
          · rcases List.mem_cons.mp next with rfl | next
            · exact .inl (reached_if_known edge.2)
            · exact .inr next
        refine ⟨fun node member known => ?_, closed⟩
        rcases List.mem_cons.mp member with rfl | member
        · exact sweep_reached _ _ _ _ _ _ (reached_if_known known)
        · exact listed node member known
      · rename_i visited
        rw [not_or, not_not] at visited
        have fewer : remaining ids edges (current :: reached) + (edges current).length ≤
            remaining ids edges reached := remaining_cons visited.1 visited.2
        have room : ((edges current).reverse ++ pending).length +
            remaining ids edges (current :: reached) ≤ fuel := by
          rw [List.length_append, List.length_reverse]
          omega
        obtain ⟨listed, closed⟩ := ih room fun source member target edge => by
          rcases List.mem_cons.mp member with rfl | member
          · exact .inr (List.mem_append_left _ (List.mem_reverse.mpr edge.1))
          · rcases begun source member target edge with old | next
            · exact .inl (List.mem_cons_of_mem _ old)
            · rcases List.mem_cons.mp next with rfl | next
              · exact .inl List.mem_cons_self
              · exact .inr (List.mem_append_right _ next)
        refine ⟨fun node member known => ?_, closed⟩
        rcases List.mem_cons.mp member with rfl | member
        · exact sweep_reached _ _ _ _ _ _ List.mem_cons_self
        · exact listed node (List.mem_append_right _ member) known

/-- The reached nodes are those that edges lead to. -/
theorem mem_reachableFrom : node ∈ reachableFrom root ids edges ↔
    root ∈ ids ∧ Relation.ReflTransGen (Edge ids edges) root node := by
  constructor
  · intro member
    rcases sweep_sound ids edges _ [root] [] node member with old | ⟨start, listed, path⟩
    · cases old
    · obtain rfl := List.mem_singleton.mp listed
      exact path
  · rintro ⟨known, path⟩
    obtain ⟨listed, closed⟩ := @sweep_closed _ _ ids [root] [] edges
      (remaining ids edges [] + 1) (by simp [Nat.add_comm]) nofun
    induction path with
    | refl => exact listed root List.mem_cons_self known
    | tail _ edge ih => exact closed _ ih _ edge

end Worklist

end GeoWorld.Library
