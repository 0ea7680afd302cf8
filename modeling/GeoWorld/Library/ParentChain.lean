import Mathlib

/-!
The way upward over a partial function from nodes to their parents: the nodes it meets until
one has no parent or comes a second time, and the first of them that has an answer.
-/

namespace GeoWorld.Library

namespace ParentChain

variable {α β : Type*}

def Up (next : α → Option α) (child parent : α) : Prop := next child = some parent

variable {next : α → Option α} {ids met : List α} {node other start top : α} {fuel : Nat}

/-- From a node on a cycle every way upward leads back to it. -/
theorem cycle_back (cycle : Relation.TransGen (Up next) node node)
    (path : Relation.ReflTransGen (Up next) node other) :
    Relation.ReflTransGen (Up next) other node := by
  induction path with
  | refl => exact .refl
  | @tail middle last _ edge ih =>
    have around : Relation.TransGen (Up next) middle node := Relation.TransGen.trans_right ih cycle
    obtain ⟨parent, first, rest⟩ := Relation.TransGen.head'_iff.mp around
    rw [Up] at first edge
    rw [first] at edge
    obtain rfl := Option.some.inj edge
    exact rest

theorem cycle_endless (cycle : Relation.TransGen (Up next) node node)
    (path : Relation.ReflTransGen (Up next) node top) : (next top).isSome := by
  have around : Relation.TransGen (Up next) top node :=
    Relation.TransGen.trans_right (cycle_back cycle path) cycle
  obtain ⟨parent, first, -⟩ := Relation.TransGen.head'_iff.mp around
  rw [Up] at first
  simp [first]

section Climb

variable [DecidableEq α]

/-- The nodes met on the way upward, and whether it came to one of `met` or of them again. -/
def climb (next : α → Option α) : Nat → List α → α → List α × Bool
  | 0, _, _ => ([], false)
  | fuel + 1, met, node =>
    match next node with
    | none => ([], false)
    | some parent =>
      if node ∈ met then
        ([], true)
      else
        let above := climb next fuel (node :: met) parent
        (node :: above.1, above.2)

/-- The nodes with a parent on the way upward from one. -/
def chain (ids : List α) (next : α → Option α) (node : α) : List α :=
  (climb next (ids.length + 1) [] node).1

/-- Whether the way upward from `node` meets `start` or any node twice. -/
def returns (ids : List α) (next : α → Option α) (start node : α) : Bool :=
  (climb next (ids.length + 1) [start] node).2

/-- A way that meets no node twice ends. -/
theorem climb_ends (listed : ∀ id, (next id).isSome → id ∈ ids) (distinct : met.Nodup)
    (inside : met ⊆ ids) (enough : ids.length < met.length + fuel)
    (open_way : (climb next fuel met node).2 = false) :
    ∃ top, Relation.ReflTransGen (Up next) node top ∧ next top = none := by
  induction fuel generalizing met node with
  | zero => exact absurd (distinct.subperm inside).length_le (by omega)
  | succ fuel ih =>
    rw [climb] at open_way
    cases up : next node with
    | none => exact ⟨node, .refl, up⟩
    | some parent =>
      simp only [up] at open_way
      split at open_way
      · cases open_way
      · rename_i fresh
        have known : node ∈ ids := listed node (by simp [up])
        obtain ⟨top, path, ended⟩ := ih (List.nodup_cons.mpr ⟨fresh, distinct⟩)
          (List.cons_subset.mpr ⟨known, inside⟩) (by rw [List.length_cons]; omega) open_way
        exact ⟨top, .head up path, ended⟩

theorem climb_sound (fuel : Nat) (met : List α) (node : α) :
    ∀ above ∈ (climb next fuel met node).1,
      Relation.ReflTransGen (Up next) node above ∧ (next above).isSome := by
  induction fuel generalizing met node with
  | zero => exact nofun
  | succ fuel ih =>
    rw [climb]
    cases up : next node with
    | none => exact nofun
    | some parent =>
      simp only
      split
      · exact nofun
      · intro above member
        rcases List.mem_cons.mp member with rfl | higher
        · exact ⟨.refl, by simp [up]⟩
        · obtain ⟨path, has_parent⟩ := ih _ parent above higher
          exact ⟨.head up path, has_parent⟩

/-- With enough fuel the nodes met are closed under going upward. -/
theorem climb_closed (listed : ∀ id, (next id).isSome → id ∈ ids) (distinct : met.Nodup)
    (inside : met ⊆ ids) (enough : ids.length < met.length + fuel)
    (begun : ∀ child ∈ met, ∀ parent, Up next child parent → (next parent).isSome →
      parent ∈ met ∨ parent = node) :
    ((next node).isSome → node ∈ met ∨ node ∈ (climb next fuel met node).1) ∧
      ∀ child, (child ∈ met ∨ child ∈ (climb next fuel met node).1) → ∀ parent,
        Up next child parent → (next parent).isSome →
          parent ∈ met ∨ parent ∈ (climb next fuel met node).1 := by
  induction fuel generalizing met node with
  | zero => exact absurd (distinct.subperm inside).length_le (by omega)
  | succ fuel ih =>
    rw [climb]
    cases up : next node with
    | none =>
      refine ⟨nofun, fun child member parent edge higher => ?_⟩
      rcases begun child (member.resolve_right List.not_mem_nil) parent edge higher with
        old | rfl
      · exact .inl old
      · simp [up] at higher
    | some above =>
      simp only
      split
      · rename_i again
        refine ⟨fun _ => .inl again, fun child member parent edge higher => ?_⟩
        rcases begun child (member.resolve_right List.not_mem_nil) parent edge higher with
          old | rfl
        · exact .inl old
        · exact .inl again
      · rename_i fresh
        have known : node ∈ ids := listed node (by simp [up])
        have above_begun : ∀ child ∈ node :: met, ∀ parent, next child = some parent →
            (next parent).isSome → parent ∈ node :: met ∨ parent = above := by
          intro child member parent edge higher
          rcases List.mem_cons.mp member with rfl | old
          · exact .inr (Option.some.inj (edge.symm.trans up))
          · rcases begun child old parent edge higher with old | rfl
            · exact .inl (List.mem_cons_of_mem _ old)
            · exact .inl List.mem_cons_self
        obtain ⟨reached, closed⟩ := ih (List.nodup_cons.mpr ⟨fresh, distinct⟩)
          (List.cons_subset.mpr ⟨known, inside⟩) (by rw [List.length_cons]; omega) above_begun
        refine ⟨fun _ => .inr List.mem_cons_self, fun child member parent edge higher => ?_⟩
        have met_before : child ∈ node :: met ∨
            child ∈ (climb next fuel (node :: met) above).1 := by
          rcases member with old | new
          · exact .inl (List.mem_cons_of_mem _ old)
          · rcases List.mem_cons.mp new with rfl | new
            · exact .inl List.mem_cons_self
            · exact .inr new
        rcases closed child met_before parent edge higher with old | new
        · rcases List.mem_cons.mp old with rfl | old
          · exact .inr List.mem_cons_self
          · exact .inl old
        · exact .inr (List.mem_cons_of_mem _ new)

theorem mem_chain (listed : ∀ id, (next id).isSome → id ∈ ids) :
    other ∈ chain ids next node ↔
      Relation.ReflTransGen (Up next) node other ∧ (next other).isSome := by
  constructor
  · exact climb_sound _ _ _ other
  · rintro ⟨path, has_parent⟩
    obtain ⟨reached, closed⟩ := @climb_closed _ next ids [] node (ids.length + 1) _ listed
      List.nodup_nil (List.nil_subset _) (by simp) nofun
    induction path with
    | refl => exact (reached has_parent).resolve_left List.not_mem_nil
    | tail _ edge ih =>
      have child_in := ih (by rw [Up] at edge; simp [edge])
      exact (closed _ (.inr child_in) _ edge has_parent).resolve_left List.not_mem_nil

theorem ends_of_not_returns (listed : ∀ id, (next id).isSome → id ∈ ids) (known : start ∈ ids)
    (open_way : returns ids next start node = false) :
    ∃ top, Relation.ReflTransGen (Up next) node top ∧ next top = none :=
  climb_ends listed (List.nodup_singleton start) (List.cons_subset.mpr ⟨known, List.nil_subset _⟩)
    (by rw [List.length_singleton]; omega) open_way

/-- The way upward from a node on a cycle comes back. -/
theorem returns_of_cycle (listed : ∀ id, (next id).isSome → id ∈ ids)
    (up : next start = some node) (cycle : Relation.TransGen (Up next) start start) :
    returns ids next start node = true := by
  by_contra open_way
  obtain ⟨top, path, ended⟩ := ends_of_not_returns listed (listed start (by simp [up]))
    (Bool.eq_false_iff.mpr open_way)
  have endless := cycle_endless cycle (.head up path)
  rw [ended] at endless
  cases endless

end Climb

/-- The first answer on the way upward; the outer `none` is a lack of fuel. -/
def firstUp (next : α → Option α) (answer : α → Option β) : Nat → α → Option (Option β)
  | 0, _ => none
  | fuel + 1, node =>
    match answer node with
    | some found => some (some found)
    | none =>
      match next node with
      | none => some none
      | some parent => firstUp next answer fuel parent

/-- The node with the first answer on the way upward, if any node has one. -/
inductive Nearest (next : α → Option α) (answer : α → Option β) : α → Option β → Prop where
  | here {node : α} {found : β} (own : answer node = some found) : Nearest next answer node (some found)
  | above {node parent : α} {result : Option β} (silent : answer node = none)
      (up : next node = some parent) (nearest : Nearest next answer parent result) :
      Nearest next answer node result
  | top {node : α} (silent : answer node = none) (ended : next node = none) :
      Nearest next answer node none

theorem firstUp_nearest {answer : α → Option β} {result : Option β}
    (climbed : firstUp next answer fuel node = some result) : Nearest next answer node result := by
  induction fuel generalizing node with
  | zero => cases climbed
  | succ fuel ih =>
    rw [firstUp] at climbed
    cases own : answer node with
    | some found =>
      rw [own] at climbed
      obtain rfl := Option.some.inj climbed
      exact .here own
    | none =>
      rw [own] at climbed
      cases up : next node with
      | none =>
        rw [up] at climbed
        obtain rfl := Option.some.inj climbed
        exact .top own up
      | some parent =>
        rw [up] at climbed
        exact .above own up (ih climbed)

theorem Nearest.reaches {answer : α → Option β} {result : Option β} {found : β}
    (nearest : Nearest next answer node result) (taken : result = some found) :
    ∃ above, Relation.ReflTransGen (Up next) node above ∧ answer above = some found := by
  induction nearest with
  | @here node own own_answer => exact ⟨node, .refl, own_answer.trans taken⟩
  | above _ up _ ih =>
    obtain ⟨above, path, answered⟩ := ih taken
    exact ⟨above, .head up path, answered⟩
  | top _ _ => cases taken

/-- The answer found is that of a node below which all are silent. -/
theorem Nearest.through {answer : α → Option β} {result : Option β} {found : β}
    (nearest : Nearest next answer node result) (taken : result = some found) :
    ∃ above, Relation.ReflTransGen (fun child parent => answer child = none ∧ Up next child parent)
      node above ∧ answer above = some found := by
  induction nearest with
  | @here node own own_answer => exact ⟨node, .refl, own_answer.trans taken⟩
  | above silent up _ ih =>
    obtain ⟨above, path, answered⟩ := ih taken
    exact ⟨above, .head ⟨silent, up⟩ path, answered⟩
  | top _ _ => cases taken

/-- Without an answer every node on the way upward is silent. -/
theorem Nearest.all_silent {answer : α → Option β} {result : Option β}
    (nearest : Nearest next answer node result) (missing : result = none) {above : α}
    (path : Relation.ReflTransGen (Up next) node above) : answer above = none := by
  induction nearest with
  | here _ => cases missing
  | above silent up _ ih =>
    rcases Relation.ReflTransGen.cases_head path with rfl | ⟨parent, first, rest⟩
    · exact silent
    · rw [Up, up] at first
      obtain rfl := Option.some.inj first
      exact ih missing rest
  | top silent ended =>
    rcases Relation.ReflTransGen.cases_head path with rfl | ⟨parent, first, -⟩
    · exact silent
    · rw [Up, ended] at first
      cases first

theorem firstUp_total {answer : α → Option β} (rank : α → Nat)
    (descends : ∀ child parent, Up next child parent → rank parent < rank child)
    (enough : rank node < fuel) : (firstUp next answer fuel node).isSome := by
  induction fuel generalizing node with
  | zero => exact absurd enough (Nat.not_lt_zero _)
  | succ fuel ih =>
    rw [firstUp]
    cases answer node with
    | some found => rfl
    | none =>
      cases up : next node with
      | none => rfl
      | some parent =>
        have lower := descends node parent up
        exact ih (by omega)

end ParentChain

end GeoWorld.Library
