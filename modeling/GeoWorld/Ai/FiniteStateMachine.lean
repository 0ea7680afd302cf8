import Mathlib
import GeoWorld.Ai.Hfsm

/-!
The state machine without a hierarchy. Each state holds its own transitions, and their targets need
not be defined. A hierarchical machine whose states have no parents is another form of it.
-/

namespace GeoWorld.Ai

open WorldModel Library

structure FsmState where
  id : ByteString
  transitions : List FsmTransition := []

/-- Ids are distinct and not empty, and the current state is one of the states once there is one. -/
structure FiniteStateMachine where
  states : List FsmState := []
  current : ByteString := []
  named : ∀ state ∈ states, state.id ≠ [] := by exact List.forall_mem_nil _
  distinct : (states.map FsmState.id).Nodup := by exact List.nodup_nil
  located : current ≠ [] → current ∈ states.map FsmState.id := by exact fun moved => absurd rfl moved

/-- Matching transitions first, then higher priorities, then smaller targets. -/
def FsmTransition.before (event : ByteString) (left right : FsmTransition) : Bool :=
  if (left.event == event) ≠ (right.event == event) then
    left.event == event
  else if left.priority ≠ right.priority then
    decide (right.priority < left.priority)
  else
    decide (left.target < right.target)

namespace FiniteStateMachine

/-- `none` is the answer false, which leaves the machine as it was. -/
def defineState (machine : FiniteStateMachine) (state : FsmState) : Option FiniteStateMachine :=
  if refused : state.id = [] ∨ state.id ∈ machine.states.map FsmState.id then
    none
  else
    some { machine with
      states := machine.states ++ [state]
      named := by
        rw [not_or] at refused
        simpa [or_imp, forall_and] using ⟨machine.named, refused.1⟩
      distinct := by
        rw [not_or] at refused
        rw [List.map_append, List.map_singleton]
        exact List.concat_eq_append ▸ machine.distinct.concat refused.2
      located := by
        intro moved
        rw [List.map_append]
        exact List.mem_append_left _ (machine.located moved) }

def setInitial (machine : FiniteStateMachine) (state : ByteString) : Option FiniteStateMachine :=
  if defined : state ∈ machine.states.map FsmState.id then
    some { machine with current := state, located := fun _ => defined }
  else
    none

/-- The transition that `dispatch` takes. A best match without a defined target hides the others. -/
def taken (machine : FiniteStateMachine) (event : ByteString) : Option FsmTransition :=
  (machine.states.find? fun item => item.id == machine.current).bind fun state =>
    (minElement (FsmTransition.before event) state.transitions).filter fun transition =>
      transition.event == event && decide (transition.target ∈ machine.states.map FsmState.id)

theorem taken_defined {machine : FiniteStateMachine} {event : ByteString}
    {transition : FsmTransition} (taken : machine.taken event = some transition) :
    transition.target ∈ machine.states.map FsmState.id := by
  obtain ⟨state, -, found⟩ := Option.bind_eq_some_iff.mp taken
  obtain ⟨-, fits⟩ := Option.filter_eq_some_iff.mp found
  rw [Bool.and_eq_true, decide_eq_true_eq] at fits
  exact fits.2

def dispatch (machine : FiniteStateMachine) (event : ByteString) :
    TransitionResult × FiniteStateMachine :=
  match found : machine.taken event with
  | none => (.ignored, machine)
  | some transition =>
    (.transitioned, { machine with
      current := transition.target
      located := fun _ => taken_defined found })

/-- The answers to a sequence of events, each with the state that follows. -/
def responses (machine : FiniteStateMachine) : List ByteString → List (TransitionResult × ByteString)
  | [] => []
  | event :: rest =>
    let answer := machine.dispatch event
    (answer.1, answer.2.current) :: answer.2.responses rest

/-- The transitions with the states they leave. -/
def links (machine : FiniteStateMachine) : List HierarchicalTransition :=
  machine.states.flatMap fun state => state.transitions.map fun transition => ⟨state.id, transition⟩

/-- The hierarchical machine with these states and transitions, the transitions in some order. -/
def flat (machine : FiniteStateMachine) (order : List HierarchicalTransition) :
    Option HierarchicalStateMachine := do
  let defined ← machine.states.foldlM (fun flat state => flat.defineState ⟨state.id, []⟩) {}
  let linked ← order.foldlM HierarchicalStateMachine.addTransition defined
  if machine.current = [] then some linked else linked.setInitial machine.current

/-- Every transition has an event and leads to a defined state. -/
def Complete (machine : FiniteStateMachine) : Prop :=
  ∀ state ∈ machine.states, ∀ transition ∈ state.transitions, transition.event ≠ [] ∧
    transition.target ∈ machine.states.map FsmState.id

instance (machine : FiniteStateMachine) : Decidable machine.Complete :=
  inferInstanceAs (Decidable (∀ _ ∈ _, ∀ _ ∈ _, _))

end FiniteStateMachine

def HierarchicalStateMachine.responses (machine : HierarchicalStateMachine) :
    List ByteString → List (TransitionResult × ByteString)
  | [] => []
  | event :: rest =>
    let answer := machine.dispatch event
    (answer.1, answer.2.current) :: answer.2.responses rest

section Choice

variable {state event : ByteString}

theorem minElement_map {α β : Type} (f : α → β) (before : β → β → Bool) (elements : List α) :
    minElement before (elements.map f) =
      (minElement (fun left right => before (f left) (f right)) elements).map f := by
  cases elements with
  | nil => rfl
  | cons first rest =>
    simp only [List.map_cons, minElement, Option.map_some, Option.some.injEq, List.foldl_map]
    induction rest generalizing first with
    | nil => rfl
    | cons element rest ih =>
      simp only [List.foldl_cons]
      rw [← ih, apply_ite f]

/-- The matching transition that goes before the others. -/
def bestMatch (state event : ByteString) (items : List HierarchicalTransition) :
    Option HierarchicalTransition :=
  (minElement (HierarchicalTransition.before state event) items).filter
    (HierarchicalTransition.matching state event)

/-- Matching transitions neither of which is before the other are the same. -/
theorem matching_antisymm {left right : HierarchicalTransition}
    (left_fits : left.matching state event = true) (right_fits : right.matching state event = true)
    (not_before : left.before state event right = false)
    (not_after : right.before state event left = false) : left = right := by
  rw [Bool.eq_false_iff, ne_eq, HierarchicalTransition.before_iff] at not_before not_after
  rw [not_or] at not_before not_after
  have lower := not_and.mp not_before.2 (left_fits.trans right_fits.symm)
  have higher := not_and.mp not_after.2 (right_fits.trans left_fits.symm)
  rw [not_or, not_and] at lower higher
  have tied : left.transition.priority = right.transition.priority :=
    Int32.le_antisymm (Int32.not_lt.mp lower.1) (Int32.not_lt.mp higher.1)
  have target : left.transition.target = right.transition.target :=
    List.le_antisymm (List.not_lt.mp (higher.2 tied.symm)) (List.not_lt.mp (lower.2 tied))
  simp only [HierarchicalTransition.matching, Bool.and_eq_true, beq_iff_eq] at left_fits right_fits
  obtain ⟨source, ⟨own, goal, rank⟩⟩ := left
  obtain ⟨source', ⟨own', goal', rank'⟩⟩ := right
  simp_all

theorem bestMatch_iff {items : List HierarchicalTransition} {best : HierarchicalTransition} :
    bestMatch state event items = some best ↔
      best ∈ items ∧ best.matching state event = true ∧
        ∀ other ∈ items, other.matching state event = true →
          other.before state event best = false := by
  rw [bestMatch, Option.filter_eq_some_iff]
  constructor
  · rintro ⟨least, fits⟩
    exact ⟨minElement_mem least, fits, fun other inside _ =>
      minElement_least HierarchicalTransition.before_irrefl HierarchicalTransition.before_trans least
        other inside⟩
  · rintro ⟨inside, fits, first⟩
    obtain ⟨least, found⟩ : ∃ least,
        minElement (HierarchicalTransition.before state event) items = some least := by
      cases items with
      | nil => cases inside
      | cons item rest => exact ⟨_, rfl⟩
    have not_before := minElement_least HierarchicalTransition.before_irrefl
      HierarchicalTransition.before_trans found best inside
    have least_fits : least.matching state event = true := by
      by_contra misses
      rw [(HierarchicalTransition.before_iff best least).mpr
        (.inl ⟨fits, Bool.eq_false_iff.mpr misses⟩)] at not_before
      cases not_before
    have same := matching_antisymm fits least_fits not_before
      (first least (minElement_mem found) least_fits)
    exact ⟨same ▸ found, fits⟩

/-- The choice depends on the matching transitions alone, not on their order. -/
theorem bestMatch_congr {first second : List HierarchicalTransition}
    (same : ∀ item, item.matching state event = true → (item ∈ first ↔ item ∈ second)) :
    bestMatch state event first = bestMatch state event second := by
  refine Option.ext fun best => ?_
  rw [bestMatch_iff, bestMatch_iff]
  constructor
  · rintro ⟨inside, fits, least⟩
    exact ⟨(same best fits).mp inside, fits, fun other member matched =>
      least other ((same other matched).mpr member) matched⟩
  · rintro ⟨inside, fits, least⟩
    exact ⟨(same best fits).mpr inside, fits, fun other member matched =>
      least other ((same other matched).mp member) matched⟩

end Choice

namespace FiniteStateMachine

variable {machine : FiniteStateMachine} {event : ByteString}

theorem find_current (moved : machine.current ≠ []) : ∃ state ∈ machine.states,
    state.id = machine.current ∧
      (machine.states.find? fun item => item.id == machine.current) = some state := by
  obtain ⟨listed, inside, same⟩ := List.mem_map.mp (machine.located moved)
  obtain ⟨state, found⟩ := Option.isSome_iff_exists.mp
    (List.find?_isSome.mpr ⟨listed, inside, beq_iff_eq.mpr same⟩ :
      (machine.states.find? fun item => item.id == machine.current).isSome)
  exact ⟨state, List.mem_of_find?_eq_some found, by simpa using List.find?_some found, found⟩

/-- The links that match the current state are its own transitions. -/
theorem mem_links {state : FsmState} (inside : state ∈ machine.states)
    {item : HierarchicalTransition} (fits : item.matching state.id event = true) :
    item ∈ machine.links ↔ item ∈ state.transitions.map (HierarchicalTransition.mk state.id) := by
  rw [HierarchicalTransition.matching, Bool.and_eq_true, beq_iff_eq] at fits
  rw [links, List.mem_flatMap]
  constructor
  · rintro ⟨other, listed, member⟩
    obtain ⟨transition, own, rfl⟩ := List.mem_map.mp member
    obtain rfl := List.inj_on_of_nodup_map machine.distinct listed inside fits.1
    exact member
  · exact fun member => ⟨state, inside, member⟩

/-- The flat choice among the links is the choice of the current state. -/
theorem taken_eq (complete : machine.Complete) (moved : machine.current ≠ []) (event : ByteString) :
    bestMatch machine.current event machine.links =
      (machine.taken event).map (HierarchicalTransition.mk machine.current) := by
  obtain ⟨state, inside, own, found⟩ := find_current moved
  rw [taken, found, Option.bind_some, ← own]
  rw [bestMatch_congr fun item fits => mem_links inside fits, bestMatch, minElement_map,
    Option.filter_map]
  have order : (fun left right : FsmTransition => HierarchicalTransition.before state.id event
      ⟨state.id, left⟩ ⟨state.id, right⟩) = FsmTransition.before event := by
    funext left right
    simp [HierarchicalTransition.before, FsmTransition.before, HierarchicalTransition.matching]
  rw [order]
  cases least : minElement (FsmTransition.before event) state.transitions with
  | none => rfl
  | some transition =>
    have defined := (complete state inside transition (minElement_mem least)).2
    simp [HierarchicalTransition.matching, Option.filter, defined]

/-- A hierarchical machine of the same states, without parents, and of the same transitions. -/
structure FlatCopy (machine : FiniteStateMachine) (flat : HierarchicalStateMachine) : Prop where
  states : flat.states = machine.states.map fun state => ⟨state.id, []⟩
  transitions : flat.transitions.Perm machine.links
  current : flat.current = machine.current

variable {flat : HierarchicalStateMachine}

theorem FlatCopy.parentOf (copy : FlatCopy machine flat) (id : ByteString) :
    flat.parentOf id = none := by
  rw [HierarchicalStateMachine.parentOf, Option.bind_eq_none_iff]
  intro state found
  have listed : state ∈ flat.states := List.mem_of_find?_eq_some found
  rw [copy.states] at listed
  obtain ⟨own, -, rfl⟩ := List.mem_map.mp listed
  rfl

theorem FlatCopy.chosen (copy : FlatCopy machine flat) (complete : machine.Complete)
    (moved : machine.current ≠ []) (event : ByteString) : flat.chosen flat.current event =
      (machine.taken event).map (HierarchicalTransition.mk machine.current) := by
  have own : flat.transitionFor machine.current event =
      (machine.taken event).map (HierarchicalTransition.mk machine.current) := by
    rw [← taken_eq complete moved]
    exact bestMatch_congr fun item _ => copy.transitions.mem_iff
  rw [← own, copy.current]
  have nearest := flat.chosen_nearest machine.current event
  generalize flat.chosen machine.current event = result at nearest
  cases nearest with
  | here found => exact found.symm
  | above silent up _ =>
    rw [copy.parentOf] at up
    cases up
  | top silent _ => exact silent.symm

theorem dispatch_cases (machine : FiniteStateMachine) (event : ByteString) :
    machine.taken event = none ∧ machine.dispatch event = (.ignored, machine) ∨
      ∃ transition, machine.taken event = some transition ∧
        (machine.dispatch event).1 = .transitioned ∧
        (machine.dispatch event).2.states = machine.states ∧
        (machine.dispatch event).2.current = transition.target := by
  unfold dispatch
  split
  · rename_i missing
    exact .inl ⟨missing, rfl⟩
  · rename_i transition found
    exact .inr ⟨transition, found, rfl, rfl, rfl⟩

theorem taken_start (start : machine.current = []) (event : ByteString) :
    machine.taken event = none := by
  have missing : (machine.states.find? fun item => item.id == machine.current) = none := by
    refine List.find?_eq_none.mpr fun item inside => ?_
    simpa [start] using machine.named item inside
  rw [taken, missing, Option.bind_none]

theorem FlatCopy.dispatch (copy : FlatCopy machine flat) (complete : machine.Complete)
    (event : ByteString) : (flat.dispatch event).1 = (machine.dispatch event).1 ∧
      FlatCopy (machine.dispatch event).2 (flat.dispatch event).2 := by
  rcases machine.dispatch_cases event with
    ⟨missing, same⟩ | ⟨transition, taken, answer, states, current⟩
  · have stays : flat.current = [] ∨ flat.chosen flat.current event = none := by
      by_cases start : machine.current = []
      · exact .inl (copy.current.trans start)
      · exact .inr (by rw [copy.chosen complete start, missing, Option.map_none])
    rcases flat.dispatch_cases event with ⟨-, ignored⟩ | ⟨item, moved, chosen, -⟩
    · rw [same, ignored]
      exact ⟨rfl, copy⟩
    · rw [chosen] at stays
      exact (stays.elim moved fun missing => by cases missing).elim
  · have start : machine.current ≠ [] := fun start => by
      rw [taken_start start] at taken
      cases taken
    have goes := copy.chosen complete start event
    rw [taken, Option.map_some] at goes
    rcases flat.dispatch_cases event with ⟨stays, -⟩ | ⟨item, -, chosen, moves⟩
    · rw [goes, copy.current] at stays
      exact (stays.elim start fun missing => by cases missing).elim
    · rw [goes] at chosen
      obtain rfl := Option.some.inj chosen
      rw [moves, answer]
      refine ⟨rfl, ?_, ?_, current.symm⟩
      · rw [states]
        exact copy.states
      · rw [links, states]
        exact copy.transitions

theorem FlatCopy.responses (copy : FlatCopy machine flat) (complete : machine.Complete)
    (events : List ByteString) : flat.responses events = machine.responses events := by
  induction events generalizing machine flat with
  | nil => rfl
  | cons event rest ih =>
    obtain ⟨answer, next⟩ := copy.dispatch complete event
    have still : (machine.dispatch event).2.Complete := by
      rcases machine.dispatch_cases event with ⟨-, same⟩ | ⟨-, -, -, states, -⟩
      · rw [same]
        exact complete
      · rw [Complete, states]
        exact complete
    rw [HierarchicalStateMachine.responses, FiniteStateMachine.responses, answer, next.current,
      ih next still]

theorem findState_isSome_iff {states : List HierarchicalState} {id : ByteString} :
    (findState states id).isSome ↔ id ∈ states.map HierarchicalState.id := by
  rw [findState_isSome, List.mem_map]

/-- States without parents are all accepted. -/
theorem define_all {states : List FsmState} (named : ∀ state ∈ states, state.id ≠ [])
    {flat : HierarchicalStateMachine}
    (distinct : (flat.states.map HierarchicalState.id ++ states.map FsmState.id).Nodup) :
    ∃ defined, (states.foldlM (fun flat state => flat.defineState ⟨state.id, []⟩) flat) =
        some defined ∧
      defined.states = flat.states ++ states.map (fun state => ⟨state.id, []⟩) ∧
      defined.transitions = flat.transitions ∧ defined.current = flat.current := by
  induction states generalizing flat with
  | nil => exact ⟨flat, rfl, (List.append_nil _).symm, rfl, rfl⟩
  | cons state rest ih =>
    obtain ⟨own, others⟩ := List.forall_mem_cons.mp named
    have fresh : state.id ∉ flat.states.map HierarchicalState.id := fun listed =>
      (List.nodup_append.mp distinct).2.2 _ listed _ List.mem_cons_self rfl
    have accepted : ¬ (state.id = [] ∨ (∃ item ∈ flat.states, item.id = state.id) ∨
        ([] : ByteString) ≠ [] ∧ (findState flat.states []).isNone) := by
      rw [← List.mem_map]
      simp [own, fresh]
    rw [List.foldlM_cons, HierarchicalStateMachine.defineState, dif_neg accepted]
    obtain ⟨defined, done, states, transitions, current⟩ := @ih others
      { flat with
        states := flat.states ++ [⟨state.id, []⟩]
        parents_first := .define flat.parents_first own (fun other inside same =>
          fresh (List.mem_map.mpr ⟨other, inside, same⟩)) (.inl rfl) } (by simpa using distinct)
    refine ⟨defined, done, ?_, transitions, current⟩
    rw [states, List.append_assoc, List.map_cons, List.singleton_append]

/-- What `add_transition` asks of a transition. -/
def Linkable (states : List HierarchicalState) (item : HierarchicalTransition) : Prop :=
  (item.source ≠ [] ∧ item.transition.event ≠ [] ∧ item.transition.target ≠ []) ∧
    item.source ∈ states.map HierarchicalState.id ∧
    item.transition.target ∈ states.map HierarchicalState.id

instance (states : List HierarchicalState) (item : HierarchicalTransition) :
    Decidable (Linkable states item) :=
  inferInstanceAs (Decidable ((_ ∧ _ ∧ _) ∧ _ ∧ _))

theorem addTransition_eq (flat : HierarchicalStateMachine) (item : HierarchicalTransition) :
    flat.addTransition item = if Linkable flat.states item then
      some { flat with transitions := flat.transitions ++ [item] } else none := by
  have refused : (item.source.isEmpty || item.transition.event.isEmpty ||
      item.transition.target.isEmpty || (findState flat.states item.source).isNone ||
        (findState flat.states item.transition.target).isNone) = !decide (Linkable flat.states item) := by
    simp only [Linkable, ← findState_isSome_iff]
    rw [Bool.eq_iff_iff]
    cases findState flat.states item.source <;>
      cases findState flat.states item.transition.target <;> simp
    tauto
  rw [HierarchicalStateMachine.addTransition, refused]
  by_cases linkable : Linkable flat.states item <;> simp [linkable]

theorem link_all (order : List HierarchicalTransition) (flat : HierarchicalStateMachine) :
    order.foldlM HierarchicalStateMachine.addTransition flat =
      if ∀ item ∈ order, Linkable flat.states item then
        some { flat with transitions := flat.transitions ++ order } else none := by
  induction order generalizing flat with
  | nil => simp
  | cons item rest ih =>
    rw [List.foldlM_cons, addTransition_eq]
    by_cases linkable : Linkable flat.states item
    · rw [if_pos linkable]
      simp only [Option.bind_eq_bind, Option.bind_some, ih]
      simp [linkable]
    · rw [if_neg linkable, if_neg fun all => linkable (all item List.mem_cons_self)]
      rfl

theorem linkable_links {states : List HierarchicalState}
    (same : states.map HierarchicalState.id = machine.states.map FsmState.id)
    {order : List HierarchicalTransition} (perm : order.Perm machine.links) :
    (∀ item ∈ order, Linkable states item) ↔ machine.Complete := by
  simp only [Linkable, same]
  constructor
  · intro linkable state inside transition own
    have listed : (⟨state.id, transition⟩ : HierarchicalTransition) ∈ order :=
      perm.mem_iff.mpr (List.mem_flatMap.mpr ⟨state, inside, List.mem_map_of_mem own⟩)
    exact ⟨(linkable _ listed).1.2.1, (linkable _ listed).2.2⟩
  · intro complete item listed
    obtain ⟨state, inside, member⟩ := List.mem_flatMap.mp (perm.mem_iff.mp listed)
    obtain ⟨transition, own, rfl⟩ := List.mem_map.mp member
    obtain ⟨event, target⟩ := complete state inside transition own
    obtain ⟨goal, defined, reached⟩ := List.mem_map.mp target
    exact ⟨⟨machine.named state inside, event, reached ▸ machine.named goal defined⟩,
      List.mem_map_of_mem inside, target⟩

/-- The flat machine can be built just when every transition has an event and a defined target, in
whatever order they are added, and then it answers every sequence of events alike. -/
theorem flat_machine_agrees {machine : FiniteStateMachine} {order : List HierarchicalTransition}
    (perm : order.Perm machine.links) : ((machine.flat order).isSome ↔ machine.Complete) ∧
      ∀ flat ∈ machine.flat order, ∀ events, flat.responses events = machine.responses events := by
  obtain ⟨defined, done, states, transitions, current⟩ :=
    @define_all machine.states machine.named {} machine.distinct
  rw [List.nil_append] at states
  have ids : defined.states.map HierarchicalState.id = machine.states.map FsmState.id := by
    rw [states, List.map_map]
    rfl
  have linked : order.foldlM HierarchicalStateMachine.addTransition defined =
      if machine.Complete then some { defined with transitions := order } else none := by
    rw [link_all]
    simp only [linkable_links ids perm, transitions, List.nil_append]
  rw [flat, done, Option.bind_eq_bind, Option.bind_some, linked]
  by_cases complete : machine.Complete
  · have placed : (if machine.current = [] then some { defined with transitions := order }
        else ({ defined with transitions := order } : HierarchicalStateMachine).setInitial
          machine.current) =
        some { defined with transitions := order, current := machine.current } := by
      split_ifs with start
      · simp [start, show defined.current = [] from current]
      · have listed : (findState defined.states machine.current).isSome := by
          rw [findState_isSome_iff, ids]
          exact machine.located start
        have known : ¬ (findState defined.states machine.current).isNone := by
          rw [Option.isNone_iff_eq_none]
          exact Option.isSome_iff_ne_none.mp listed
        rw [HierarchicalStateMachine.setInitial, if_neg known]
    rw [if_pos complete, Option.bind_some, placed]
    refine ⟨iff_of_true rfl complete, fun flat same events => ?_⟩
    have copy : FlatCopy machine
        { defined with transitions := order, current := machine.current } := ⟨states, perm, rfl⟩
    obtain rfl := Option.some.inj same
    exact copy.responses complete events
  · rw [if_neg complete]
    refine ⟨iff_of_false Bool.false_ne_true complete, fun flat built => ?_⟩
    cases built

/-- A machine under way whose transitions are added in another order. -/
theorem flat_machine_agrees_reordered :
    let machine : FiniteStateMachine := {
      states := [⟨[1], [⟨[9], [2], 0⟩, ⟨[9], [1], 3⟩, ⟨[8], [2], -1⟩]⟩, ⟨[2], [⟨[8], [1], 0⟩]⟩]
      current := [1]
      named := by decide
      distinct := by decide
      located := by decide }
    (machine.flat machine.links.reverse).map (fun flat => flat.responses [[9], [8], [7], [8]]) =
      some [(.transitioned, [1]), (.transitioned, [2]), (.ignored, [2]), (.transitioned, [1])] := by
  intro machine
  obtain ⟨buildable, alike⟩ := flat_machine_agrees (List.reverse_perm machine.links)
  obtain ⟨flat, built⟩ := Option.isSome_iff_exists.mp (buildable.mpr (by decide +kernel))
  rw [built, Option.map_some, alike flat built]
  decide +kernel

end FiniteStateMachine

end GeoWorld.Ai
