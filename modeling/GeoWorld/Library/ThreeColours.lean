import Mathlib

/-!
Depth-first search in three colours: a node is grey while it is visited and black behind it,
and a grey node met again is reported. The search reports nothing if and only if no cycle is
reachable from its root.
-/

namespace GeoWorld.Library

inductive Colour where
  | white
  | grey
  | black
  deriving DecidableEq

namespace ThreeColours

variable {α : Type*}

/-- The colours so far and the nodes reported. -/
structure Search (α : Type*) where
  colours : α → Colour
  reported : List α

def Edge (children : α → Option (List α)) (source target : α) : Prop :=
  ∃ targets, children source = some targets ∧ target ∈ targets

def OnCycle (children : α → Option (List α)) (node : α) : Prop :=
  Relation.TransGen (Edge children) node node

/-- Every known node that a listed one has an edge to is listed behind it. -/
def Finished (children : α → Option (List α)) : List α → Prop
  | [] => True
  | node :: rest =>
    (∀ target, Edge children node target → (children target).isSome → target ∈ rest) ∧
      Finished children rest

/-- The black nodes in the order in which they were left, the latest first. -/
structure Ordered (children : α → Option (List α)) (colours : α → Colour) (order : List α) :
    Prop where
  black_iff : ∀ node, colours node = .black ↔ node ∈ order
  finished : Finished children order

/-- What visits of the targets do, one after the other. -/
structure Explored (children : α → Option (List α)) (targets : List α) (before after : Search α)
    (new : List α) : Prop where
  grey : ∀ node, after.colours node = .grey ↔ before.colours node = .grey
  black : ∀ node, before.colours node = .black → after.colours node = .black
  reported : after.reported = before.reported ++ new
  sound : (∀ target ∈ targets, ∀ node, before.colours node = .grey →
      Relation.TransGen (Edge children) node target) →
    ∀ node ∈ new, (∃ target ∈ targets, Relation.ReflTransGen (Edge children) target node) ∧
      OnCycle children node
  complete : new = [] → ∀ order, Ordered children before.colours order →
    ∃ later, Ordered children after.colours later ∧ order ⊆ later ∧
      ∀ target ∈ targets, (children target).isSome → target ∈ later

variable {children : α → Option (List α)} {before middle after : Search α} {id node : α}
variable {ids targets rest new newer : List α} {fuel : Nat}

theorem Explored.nil (children : α → Option (List α)) (state : Search α) :
    Explored children [] state state [] where
  grey := fun _ => .rfl
  black := fun _ black => black
  reported := (List.append_nil _).symm
  sound := fun _ => nofun
  complete := fun _ order ordered => ⟨order, ordered, fun _ member => member, nofun⟩

theorem Explored.append (first : Explored children targets before middle new)
    (second : Explored children rest middle after newer) :
    Explored children (targets ++ rest) before after (new ++ newer) where
  grey := fun node => (second.grey node).trans (first.grey node)
  black := fun node black => second.black node (first.black node black)
  reported := by rw [second.reported, first.reported, List.append_assoc]
  sound := by
    intro path node member
    rcases List.mem_append.mp member with earlier | later
    · have grounds := first.sound (fun target listed => path target (List.mem_append_left _ listed))
      obtain ⟨⟨target, listed, reach⟩, cycle⟩ := grounds node earlier
      exact ⟨⟨target, List.mem_append_left _ listed, reach⟩, cycle⟩
    · have grounds := second.sound fun target listed grey_node grey =>
        path target (List.mem_append_right _ listed) grey_node ((first.grey grey_node).mp grey)
      obtain ⟨⟨target, listed, reach⟩, cycle⟩ := grounds node later
      exact ⟨⟨target, List.mem_append_right _ listed, reach⟩, cycle⟩
  complete := by
    intro silent order ordered
    obtain ⟨none, none'⟩ := List.append_eq_nil_iff.mp silent
    obtain ⟨between, ordered, grows, reached⟩ := first.complete none order ordered
    obtain ⟨later, ordered, grows', reached'⟩ := second.complete none' between ordered
    refine ⟨later, ordered, fun node member => grows' (grows member), fun target listed known => ?_⟩
    rcases List.mem_append.mp listed with listed | listed
    · exact grows' (reached target listed known)
    · exact reached' target listed known

/-- The known nodes not visited yet. -/
def whites (ids : List α) (state : Search α) : Nat :=
  ids.countP fun id => state.colours id = .white

theorem Explored.whites_le (explored : Explored children targets before after new)
    (ids : List α) : whites ids after ≤ whites ids before := by
  refine List.countP_mono_left fun node _ white => ?_
  simp only [decide_eq_true_eq] at white ⊢
  cases colour : before.colours node with
  | white => rfl
  | grey =>
    rw [(explored.grey node).mpr colour] at white
    cases white
  | black =>
    rw [explored.black node colour] at white
    cases white

section Cycles

variable {order : List α} {target : α}

theorem edge_known (edge : Edge children node target) : (children node).isSome := by
  obtain ⟨targets, known, -⟩ := edge
  simp [known]

theorem Finished.closed (finished : Finished children order) (member : node ∈ order)
    (edge : Edge children node target) (known : (children target).isSome) : target ∈ order := by
  induction order with
  | nil => cases member
  | cons first rest ih =>
    rcases List.mem_cons.mp member with rfl | member
    · exact List.mem_cons_of_mem _ (finished.1 target edge known)
    · exact List.mem_cons_of_mem _ (ih finished.2 member)

theorem Finished.reach (finished : Finished children order) (member : node ∈ order)
    (path : Relation.ReflTransGen (Edge children) node target) (known : (children target).isSome) :
    target ∈ order := by
  induction path with
  | refl => exact member
  | tail _ edge ih => exact finished.closed (ih (edge_known edge)) edge known

theorem Finished.acyclic (finished : Finished children order) (member : node ∈ order) :
    ¬ OnCycle children node := by
  intro cycle
  induction order with
  | nil => cases member
  | cons first rest ih =>
    rcases List.mem_cons.mp member with rfl | member
    · obtain ⟨next, edge, path⟩ := Relation.TransGen.head'_iff.mp cycle
      have known : (children node).isSome := by
        obtain ⟨_, edge, -⟩ := Relation.TransGen.head'_iff.mp cycle
        exact edge_known edge
      have next_known : (children next).isSome := by
        rcases Relation.ReflTransGen.cases_head path with rfl | ⟨_, edge, -⟩
        · exact known
        · exact edge_known edge
      exact ih finished.2 (finished.2.reach (finished.1 next edge next_known) path known)
    · exact ih finished.2 member

end Cycles

variable [DecidableEq α]

/-- One visit, with fuel for the depth of the search; unknown nodes have no children. -/
def visit (children : α → Option (List α)) : Nat → Search α → α → Option (Search α)
  | 0, _, _ => none
  | fuel + 1, search, id =>
    match search.colours id with
    | .grey => some { search with reported := search.reported ++ [id] }
    | .black => some search
    | .white =>
      match children id with
      | none => some search
      | some targets =>
        (targets.foldlM (visit children fuel)
          { search with colours := Function.update search.colours id .grey }).map fun behind =>
            { behind with colours := Function.update behind.colours id .black }

/-- The search from one root. -/
def search (children : α → Option (List α)) (ids : List α) (root : α) : Option (Search α) :=
  visit children (ids.length + 1) ⟨fun _ => .white, []⟩ root

/-- The visits of a list compose, given that each of them explores. -/
theorem explored_foldlM
    (step : ∀ {before after : Search α} {target : α}, target ∈ targets →
      visit children fuel before target = some after →
        ∃ new, Explored children [target] before after new)
    (folded : targets.foldlM (visit children fuel) before = some after) :
    ∃ new, Explored children targets before after new := by
  induction targets generalizing before with
  | nil =>
    obtain rfl := Option.some.inj folded
    exact ⟨[], .nil children before⟩
  | cons target targets ih =>
    rw [List.foldlM_cons] at folded
    obtain ⟨middle, first, rest⟩ := Option.bind_eq_some_iff.mp folded
    obtain ⟨new, explored⟩ := step List.mem_cons_self first
    obtain ⟨newer, explored'⟩ := ih (fun member => step (List.mem_cons_of_mem _ member)) rest
    exact ⟨new ++ newer, explored.append explored'⟩

/-- A white node with its children, once these are explored. -/
theorem Explored.close (white : before.colours id = .white) (known : children id = some targets)
    (below : Explored children targets
      { before with colours := Function.update before.colours id .grey } middle new) :
    Explored children [id] before
      { middle with colours := Function.update middle.colours id .black } new where
  grey := by
    intro node
    by_cases same : node = id
    · subst same
      simp [white]
    · simp only [Function.update_of_ne same, below.grey]
  black := by
    intro node black
    by_cases same : node = id
    · subst same
      simp
    · simp only [Function.update_of_ne same]
      exact below.black node (by simpa only [Function.update_of_ne same] using black)
  reported := below.reported
  sound := by
    intro path node member
    have edge : ∀ target ∈ targets, Edge children id target := fun target listed =>
      ⟨targets, known, listed⟩
    have grounds := below.sound fun target listed grey_node grey => by
      by_cases same : grey_node = id
      · subst same
        exact .single (edge target listed)
      · simp only [Function.update_of_ne same] at grey
        exact (path id (List.mem_singleton_self id) grey_node grey).tail (edge target listed)
    obtain ⟨⟨target, listed, reach⟩, cycle⟩ := grounds node member
    exact ⟨⟨id, List.mem_singleton_self id, reach.head (edge target listed)⟩, cycle⟩
  complete := by
    intro silent order ordered
    have still : Ordered children (Function.update before.colours id .grey) order := by
      refine ⟨fun node => ?_, ordered.finished⟩
      rw [← ordered.black_iff node]
      by_cases same : node = id
      · subst same
        simp [white]
      · rw [Function.update_of_ne same]
    obtain ⟨later, finished, grows, reached⟩ := below.complete silent order still
    refine ⟨id :: later, ⟨fun node => ?_, ?_, finished.finished⟩,
      fun node member => List.mem_cons_of_mem _ (grows member), ?_⟩
    · by_cases same : node = id
      · subst same
        simp
      · simp only [Function.update_of_ne same, finished.black_iff, List.mem_cons]
        exact (or_iff_right same).symm
    · rintro target ⟨kids, kids_eq, listed⟩ target_known
      rw [known] at kids_eq
      obtain rfl := Option.some.inj kids_eq
      exact reached target listed target_known
    · intro target listed _
      obtain rfl := List.mem_singleton.mp listed
      exact List.mem_cons_self

theorem visit_explored (visited : visit children fuel before id = some after) :
    ∃ new, Explored children [id] before after new := by
  induction fuel generalizing before after id with
  | zero => cases visited
  | succ fuel ih =>
    rw [visit] at visited
    cases colour : before.colours id with
    | grey =>
      simp only [colour, Option.some.injEq] at visited
      subst visited
      refine ⟨[id], fun _ => .rfl, fun _ black => black, rfl, fun path node member => ?_, nofun⟩
      obtain rfl := List.mem_singleton.mp member
      exact ⟨⟨node, List.mem_singleton_self node, .refl⟩,
        path node (List.mem_singleton_self node) node colour⟩
    | black =>
      simp only [colour, Option.some.injEq] at visited
      subst visited
      refine ⟨[], fun _ => .rfl, fun _ black => black, (List.append_nil _).symm, fun _ => nofun,
        fun _ order ordered => ⟨order, ordered, fun _ member => member, ?_⟩⟩
      intro target listed _
      obtain rfl := List.mem_singleton.mp listed
      exact (ordered.black_iff target).mp colour
    | white =>
      simp only [colour] at visited
      cases known : children id with
      | none =>
        simp only [known, Option.some.injEq] at visited
        subst visited
        refine ⟨[], fun _ => .rfl, fun _ black => black, (List.append_nil _).symm, fun _ => nofun,
          fun _ order ordered => ⟨order, ordered, fun _ member => member, ?_⟩⟩
        intro target listed target_known
        obtain rfl := List.mem_singleton.mp listed
        simp [known] at target_known
      | some targets =>
        simp only [known, Option.map_eq_some_iff] at visited
        obtain ⟨middle, folded, rfl⟩ := visited
        obtain ⟨new, below⟩ := explored_foldlM (fun _ step => ih step) folded
        exact ⟨new, below.close colour known⟩

section Total

theorem whites_grey (white : before.colours id = .white) (member : id ∈ ids) :
    whites ids { before with colours := Function.update before.colours id .grey } <
      whites ids before := by
  unfold whites
  induction ids with
  | nil => cases member
  | cons first rest ih =>
    have rest_le : (rest.countP fun node =>
        decide (Function.update before.colours id .grey node = .white)) ≤
          rest.countP fun node => decide (before.colours node = .white) := by
      refine List.countP_mono_left fun node _ still => ?_
      simp only [decide_eq_true_eq] at still ⊢
      by_cases same : node = id
      · rw [same]
        exact white
      · rwa [Function.update_of_ne same] at still
    simp only [List.countP_cons]
    by_cases same : first = id
    · subst same
      simp only [Function.update_self, white, reduceCtorEq, decide_false, decide_true, if_true,
        Bool.false_eq_true, if_false]
      omega
    · have below := ih (List.mem_of_ne_of_mem (Ne.symm same) member)
      simp only [Function.update_of_ne same]
      simp only at below
      omega

theorem foldlM_total (step : ∀ {before : Search α} {target : α}, whites ids before < fuel →
      ∃ after, visit children fuel before target = some after)
    (enough : whites ids before < fuel) (targets : List α) :
    ∃ after, targets.foldlM (visit children fuel) before = some after := by
  induction targets generalizing before with
  | nil => exact ⟨before, rfl⟩
  | cons target targets ih =>
    obtain ⟨middle, first⟩ := @step before target enough
    obtain ⟨new, explored⟩ := visit_explored first
    obtain ⟨after, rest⟩ := ih ((explored.whites_le ids).trans_lt enough)
    exact ⟨after, by rw [List.foldlM_cons, first]; exact rest⟩

/-- The grey nodes are different known ones, so the depth stays below their number. -/
theorem visit_total (listed : ∀ node, (children node).isSome → node ∈ ids)
    (enough : whites ids before < fuel) (id : α) :
    ∃ after, visit children fuel before id = some after := by
  induction fuel generalizing before id with
  | zero => exact absurd enough (Nat.not_lt_zero _)
  | succ fuel ih =>
    rw [visit]
    cases colour : before.colours id with
    | grey => exact ⟨_, rfl⟩
    | black => exact ⟨_, rfl⟩
    | white =>
      cases known : children id with
      | none => exact ⟨_, rfl⟩
      | some targets =>
        have member := listed id (by simp [known])
        have fewer := whites_grey colour member
        have room : whites ids { before with
            colours := Function.update before.colours id .grey } < fuel := by omega
        obtain ⟨after, folded⟩ := foldlM_total (fun less => ih less _) room targets
        exact ⟨_, Option.map_eq_some_iff.mpr ⟨after, folded, rfl⟩⟩

theorem search_total (listed : ∀ node, (children node).isSome → node ∈ ids) (root : α) :
    ∃ after, search children ids root = some after :=
  visit_total listed (Nat.lt_succ_of_le List.countP_le_length) root

/-- The nodes reported by the search from one root. -/
def reportedFrom (children : α → Option (List α)) (ids : List α)
    (listed : ∀ node, (children node).isSome → node ∈ ids) (root : α) : List α :=
  ((search children ids root).get (Option.isSome_iff_exists.mpr (search_total listed root))).reported

end Total

/-- Nothing is reported if and only if no cycle is reachable. -/
theorem reportedFrom_nil_iff (listed : ∀ node, (children node).isSome → node ∈ ids) (root : α) :
    reportedFrom children ids listed root = [] ↔
      ¬ ∃ node, Relation.ReflTransGen (Edge children) root node ∧ OnCycle children node := by
  obtain ⟨new, explored⟩ := visit_explored (Option.some_get
    (Option.isSome_iff_exists.mpr (search_total listed root))).symm
  rw [reportedFrom, explored.reported, List.nil_append]
  constructor
  · rintro silent ⟨node, path, cycle⟩
    obtain ⟨order, ordered, -, reached⟩ := explored.complete silent []
      ⟨fun node => by simp, trivial⟩
    have known : (children node).isSome := by
      obtain ⟨_, edge, -⟩ := Relation.TransGen.head'_iff.mp cycle
      exact edge_known edge
    have root_known : (children root).isSome := by
      rcases Relation.ReflTransGen.cases_head path with rfl | ⟨_, edge, -⟩
      · exact known
      · exact edge_known edge
    have visited := reached root (List.mem_singleton_self root) root_known
    exact ordered.finished.acyclic (ordered.finished.reach visited path known) cycle
  · intro acyclic
    cases new with
    | nil => rfl
    | cons node rest =>
      obtain ⟨⟨target, member, path⟩, cycle⟩ :=
        explored.sound (fun _ _ _ grey => by cases grey) node List.mem_cons_self
      obtain rfl := List.mem_singleton.mp member
      exact absurd ⟨node, path, cycle⟩ acyclic

end ThreeColours

end GeoWorld.Library
