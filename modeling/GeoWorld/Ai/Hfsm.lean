import Mathlib
import GeoWorld.Library.ParentChain
import GeoWorld.Tooling.Diagnostic

/-!
The hierarchical state machine that runs: states that are defined after their parents,
transitions between them, and the dispatch of an event by the nearest state that takes it.
-/

namespace GeoWorld.Ai

open WorldModel Library

structure HierarchicalState where
  id : ByteString
  parent : ByteString
  deriving DecidableEq

structure FsmTransition where
  event : ByteString
  target : ByteString
  priority : Int32 := 0
  deriving DecidableEq

structure HierarchicalTransition where
  source : ByteString
  transition : FsmTransition
  deriving DecidableEq

inductive TransitionResult where
  | ignored
  | transitioned
  deriving DecidableEq

/-- Lists that `define_state` builds: ids are not empty and new, parents come first. -/
inductive ParentsFirst : List HierarchicalState → Prop where
  | nil : ParentsFirst []
  | define {states : List HierarchicalState} {state : HierarchicalState}
      (before : ParentsFirst states) (named : state.id ≠ [])
      (fresh : ∀ other ∈ states, other.id ≠ state.id)
      (founded : state.parent = [] ∨ ∃ other ∈ states, other.id = state.parent) :
      ParentsFirst (states ++ [state])

structure HierarchicalStateMachine where
  states : List HierarchicalState := []
  transitions : List HierarchicalTransition := []
  current : ByteString := []
  parents_first : ParentsFirst states := by exact .nil

/-- `std::min_element`: the first of the elements that no other is before. -/
def minElement {α : Type} (before : α → α → Bool) : List α → Option α
  | [] => none
  | first :: rest =>
    some (rest.foldl (fun least element => if before element least then element else least) first)

theorem minElement_mem {α : Type} {before : α → α → Bool} {elements : List α} {least : α}
    (found : minElement before elements = some least) : least ∈ elements := by
  cases elements with
  | nil => cases found
  | cons first rest =>
    rw [minElement, Option.some.injEq] at found
    subst found
    suffices inside : ∀ start, rest.foldl (fun least element =>
        if before element least then element else least) start ∈ start :: rest from inside first
    intro start
    induction rest generalizing start with
    | nil => exact List.mem_singleton_self start
    | cons element rest ih =>
      rw [List.foldl_cons]
      split
      · exact List.mem_cons_of_mem _ (ih element)
      · rcases List.mem_cons.mp (ih start) with same | later
        · rw [same]
          exact List.mem_cons_self
        · exact List.mem_cons_of_mem _ (List.mem_cons_of_mem _ later)

/-- The least element: none of the elements is before it. -/
theorem minElement_least {α : Type} {before : α → α → Bool}
    (irrefl : ∀ element, before element element = false)
    (transitive : ∀ first second third, before first second = true → before second third = true →
      before first third = true) {elements : List α} {least : α}
    (found : minElement before elements = some least) :
    ∀ element ∈ elements, before element least = false := by
  cases elements with
  | nil => exact nofun
  | cons first rest =>
    rw [minElement, Option.some.injEq] at found
    subst found
    -- what was not before the start is not before the result either
    suffices kept : ∀ start, (∀ element, before element start = false →
        before element (rest.foldl (fun least element =>
          if before element least then element else least) start) = false) ∧
        ∀ element ∈ rest, before element (rest.foldl (fun least element =>
          if before element least then element else least) start) = false by
      refine List.forall_mem_cons.mpr ⟨(kept first).1 first (irrefl first), (kept first).2⟩
    intro start
    induction rest generalizing start with
    | nil => exact ⟨fun _ smaller => smaller, nofun⟩
    | cons next rest ih =>
      rw [List.foldl_cons]
      cases smaller : before next start with
      | false =>
        obtain ⟨earlier, later⟩ := ih start
        exact ⟨earlier, List.forall_mem_cons.mpr ⟨earlier next smaller, later⟩⟩
      | true =>
        obtain ⟨earlier, later⟩ := ih next
        refine ⟨fun element apart => earlier element ?_,
          List.forall_mem_cons.mpr ⟨earlier next (irrefl next), later⟩⟩
        refine Bool.eq_false_iff.mpr fun below => ?_
        rw [transitive element next start below smaller] at apart
        cases apart

def findState (states : List HierarchicalState) (id : ByteString) : Option HierarchicalState :=
  states.find? fun state => state.id == id

namespace HierarchicalTransition

def matching (state event : ByteString) (item : HierarchicalTransition) : Bool :=
  item.source == state && item.transition.event == event

/-- Matching transitions first, then higher priorities, then smaller targets. -/
def before (state event : ByteString) (left right : HierarchicalTransition) : Bool :=
  if left.matching state event ≠ right.matching state event then
    left.matching state event
  else if left.transition.priority ≠ right.transition.priority then
    decide (right.transition.priority < left.transition.priority)
  else
    decide (left.transition.target < right.transition.target)

variable {state event : ByteString}

theorem before_iff (left right : HierarchicalTransition) : left.before state event right = true ↔
    left.matching state event = true ∧ right.matching state event = false ∨
      left.matching state event = right.matching state event ∧
        (right.transition.priority < left.transition.priority ∨
          left.transition.priority = right.transition.priority ∧
            left.transition.target < right.transition.target) := by
  rw [before]
  by_cases level : left.matching state event = right.matching state event
  · rw [if_neg (not_not.mpr level)]
    by_cases tied : left.transition.priority = right.transition.priority
    · simp [level, tied]
    · simp [level, tied]
  · rw [if_pos level]
    cases own : left.matching state event <;> cases other : right.matching state event <;>
      simp_all

theorem before_irrefl (item : HierarchicalTransition) : item.before state event item = false := by
  rw [Bool.eq_false_iff, ne_eq, before_iff]
  rintro (⟨fits, misses⟩ | ⟨-, higher | ⟨-, smaller⟩⟩)
  · rw [fits] at misses
    cases misses
  · exact Int32.lt_irrefl higher
  · exact List.lt_irrefl _ smaller

theorem before_trans (first second third : HierarchicalTransition)
    (left : first.before state event second = true)
    (right : second.before state event third = true) : first.before state event third = true := by
  rw [before_iff] at left right ⊢
  rcases left with ⟨fits, misses⟩ | ⟨level, rank⟩
  · rcases right with ⟨fits', -⟩ | ⟨level', -⟩
    · rw [misses] at fits'
      cases fits'
    · exact .inl ⟨fits, level' ▸ misses⟩
  · rcases right with ⟨fits', misses'⟩ | ⟨level', rank'⟩
    · exact .inl ⟨level.trans fits', misses'⟩
    · refine .inr ⟨level.trans level', ?_⟩
      rcases rank with higher | ⟨tied, smaller⟩
      · rcases rank' with higher' | ⟨tied', -⟩
        · exact .inl (Int32.lt_trans higher' higher)
        · exact .inl (tied' ▸ higher)
      · rcases rank' with higher' | ⟨tied', smaller'⟩
        · exact .inl (tied ▸ higher')
        · exact .inr ⟨tied.trans tied', List.lt_trans smaller smaller'⟩

end HierarchicalTransition

namespace HierarchicalStateMachine

/-- `none` is the answer false, which leaves the machine as it was. -/
def defineState (machine : HierarchicalStateMachine) (state : HierarchicalState) :
    Option HierarchicalStateMachine :=
  if refused : state.id = [] ∨ (∃ item ∈ machine.states, item.id = state.id) ∨
      state.parent ≠ [] ∧ (findState machine.states state.parent).isNone then
    none
  else
    some { machine with
      states := machine.states ++ [state]
      parents_first := by
        rw [not_or, not_or, not_and_or, not_not, findState, Option.isNone_iff_eq_none,
          List.find?_eq_none] at refused
        obtain ⟨named, fresh, founded⟩ := refused
        refine .define machine.parents_first named (fun other member same =>
          fresh ⟨other, member, same⟩) (founded.imp_right fun found => ?_)
        simpa using found }

def addTransition (machine : HierarchicalStateMachine) (transition : HierarchicalTransition) :
    Option HierarchicalStateMachine :=
  if transition.source.isEmpty || transition.transition.event.isEmpty ||
      transition.transition.target.isEmpty ||
      (findState machine.states transition.source).isNone ||
      (findState machine.states transition.transition.target).isNone then
    none
  else
    some { machine with transitions := machine.transitions ++ [transition] }

def setInitial (machine : HierarchicalStateMachine) (state : ByteString) :
    Option HierarchicalStateMachine :=
  if (findState machine.states state).isNone then none else some { machine with current := state }

def transitionFor (machine : HierarchicalStateMachine) (state event : ByteString) :
    Option HierarchicalTransition :=
  (minElement (HierarchicalTransition.before state event) machine.transitions).filter
    (HierarchicalTransition.matching state event)

theorem transitionFor_some {machine : HierarchicalStateMachine} {state event : ByteString}
    {item : HierarchicalTransition} (found : machine.transitionFor state event = some item) :
    item ∈ machine.transitions ∧ item.source = state ∧ item.transition.event = event := by
  obtain ⟨least, fits⟩ := Option.filter_eq_some_iff.mp found
  rw [HierarchicalTransition.matching, Bool.and_eq_true, beq_iff_eq, beq_iff_eq] at fits
  exact ⟨minElement_mem least, fits⟩

/-- No matching transition has a higher priority than the one found. -/
theorem transitionFor_highest {machine : HierarchicalStateMachine} {state event : ByteString}
    {item other : HierarchicalTransition} (found : machine.transitionFor state event = some item)
    (member : other ∈ machine.transitions) (fits : other.matching state event = true) :
    other.transition.priority ≤ item.transition.priority := by
  obtain ⟨least, own_fits⟩ := Option.filter_eq_some_iff.mp found
  have apart := minElement_least HierarchicalTransition.before_irrefl
    HierarchicalTransition.before_trans least other member
  refine Int32.not_lt.mp fun higher => ?_
  rw [(HierarchicalTransition.before_iff other item).mpr
    (.inr ⟨fits.trans own_fits.symm, .inl higher⟩)] at apart
  cases apart

/-- Among the matching transitions of that priority none has a smaller target. -/
theorem transitionFor_smallest {machine : HierarchicalStateMachine} {state event : ByteString}
    {item other : HierarchicalTransition} (found : machine.transitionFor state event = some item)
    (member : other ∈ machine.transitions) (fits : other.matching state event = true)
    (tied : other.transition.priority = item.transition.priority) :
    ¬ other.transition.target < item.transition.target := by
  obtain ⟨least, own_fits⟩ := Option.filter_eq_some_iff.mp found
  have apart := minElement_least HierarchicalTransition.before_irrefl
    HierarchicalTransition.before_trans least other member
  intro smaller
  rw [(HierarchicalTransition.before_iff other item).mpr
    (.inr ⟨fits.trans own_fits.symm, .inr ⟨tied, smaller⟩⟩)] at apart
  cases apart

theorem transitionFor_none {machine : HierarchicalStateMachine} {state event : ByteString}
    (absent : machine.transitionFor state event = none) {other : HierarchicalTransition}
    (member : other ∈ machine.transitions) : other.matching state event = false := by
  cases found : minElement (HierarchicalTransition.before state event) machine.transitions with
  | none =>
    cases elements : machine.transitions with
    | nil => simp [elements] at member
    | cons first rest => simp [elements, minElement] at found
  | some least =>
    have misses : least.matching state event = false := by
      rw [transitionFor, found] at absent
      simpa using absent
    have apart := minElement_least HierarchicalTransition.before_irrefl
      HierarchicalTransition.before_trans found other member
    refine Bool.eq_false_iff.mpr fun fits => ?_
    rw [(HierarchicalTransition.before_iff other least).mpr (.inl ⟨fits, misses⟩)] at apart
    cases apart

/-- The next candidate of `dispatch`; `none` once it is empty. -/
def parentOf (machine : HierarchicalStateMachine) (candidate : ByteString) : Option ByteString :=
  (findState machine.states candidate).bind fun state =>
    if state.parent.isEmpty then none else some state.parent

end HierarchicalStateMachine

theorem findState_append (states : List HierarchicalState) (last : HierarchicalState)
    (id : ByteString) : findState (states ++ [last]) id =
      (findState states id).or (if last.id = id then some last else none) := by
  rw [findState, findState, List.find?_append, List.find?_singleton]
  simp

theorem findState_isSome {states : List HierarchicalState} {id : ByteString} :
    (findState states id).isSome ↔ ∃ state ∈ states, state.id = id := by
  rw [findState, List.find?_isSome]
  simp

/-- Every parent stands before its children. -/
theorem ParentsFirst.earlier {states : List HierarchicalState} (ordered : ParentsFirst states)
    {child : ByteString} {state : HierarchicalState} (found : findState states child = some state)
    (has_parent : state.parent ≠ []) :
    states.findIdx (fun item => item.id == state.parent) <
      states.findIdx (fun item => item.id == child) := by
  induction ordered with
  | nil => cases found
  | @define states last before named fresh founded ih =>
    have place : ∀ id, (∃ other ∈ states, other.id = id) →
        (states ++ [last]).findIdx (fun item => item.id == id) =
          states.findIdx (fun item => item.id == id) ∧
        states.findIdx (fun item => item.id == id) < states.length := by
      rintro id ⟨other, member, same⟩
      have inside : states.findIdx (fun item => item.id == id) < states.length :=
        List.findIdx_lt_length_of_exists ⟨other, member, by simpa using same⟩
      exact ⟨by rw [List.findIdx_append, if_pos inside], inside⟩
    rw [findState_append] at found
    cases old : findState states child with
    | some earlier =>
      rw [old] at found
      obtain rfl := Option.some.inj found
      have parent_before := ih old
      have child_place := place child (findState_isSome.mp (by simp [old]))
      have parent_listed : states.findIdx (fun item => item.id == earlier.parent) <
          states.length := parent_before.trans child_place.2
      rw [child_place.1, List.findIdx_append, if_pos parent_listed]
      exact parent_before
    | none =>
      rw [old, Option.none_or] at found
      split at found
      · rename_i same
        obtain rfl := Option.some.inj found
        obtain ⟨parent_place, inside⟩ := place last.parent (founded.resolve_left has_parent)
        have absent : states.findIdx (fun item => item.id == child) = states.length := by
          refine List.findIdx_eq_length.mpr fun item member => ?_
          simpa [← same] using fresh item member
        rw [parent_place, List.findIdx_append, absent, if_neg (lt_irrefl _)]
        omega
      · cases found

namespace HierarchicalStateMachine

theorem climb_total (machine : HierarchicalStateMachine) (event : ByteString)
    (candidate : ByteString) : (ParentChain.firstUp machine.parentOf
      (fun state => machine.transitionFor state event) (machine.states.length + 1)
        candidate).isSome := by
  refine ParentChain.firstUp_total (fun id => machine.states.findIdx fun item => item.id == id)
    (fun child parent edge => ?_) (Nat.lt_succ_of_le List.findIdx_le_length)
  obtain ⟨state, found, kept⟩ := Option.bind_eq_some_iff.mp edge
  split at kept
  · cases kept
  · rename_i has_parent
    obtain rfl := Option.some.inj kept
    exact machine.parents_first.earlier found (by simpa using has_parent)

/-- The transition that `dispatch` takes from a state. -/
def chosen (machine : HierarchicalStateMachine) (candidate event : ByteString) :
    Option HierarchicalTransition :=
  (ParentChain.firstUp machine.parentOf (fun state => machine.transitionFor state event)
    (machine.states.length + 1) candidate).get (machine.climb_total event candidate)

def dispatch (machine : HierarchicalStateMachine) (event : ByteString) :
    TransitionResult × HierarchicalStateMachine :=
  match if machine.current.isEmpty then none else machine.chosen machine.current event with
  | some item => (.transitioned, { machine with current := item.transition.target })
  | none => (.ignored, machine)

theorem chosen_nearest (machine : HierarchicalStateMachine) (candidate event : ByteString) :
    ParentChain.Nearest machine.parentOf (fun state => machine.transitionFor state event) candidate
      (machine.chosen candidate event) :=
  ParentChain.firstUp_nearest (Option.some_get (machine.climb_total event candidate)).symm

/-- A dispatch leaves the machine as it is or moves it along the chosen transition. -/
theorem dispatch_cases (machine : HierarchicalStateMachine) (event : ByteString) :
    (machine.current = [] ∨ machine.chosen machine.current event = none) ∧
        machine.dispatch event = (.ignored, machine) ∨
      ∃ item, machine.current ≠ [] ∧ machine.chosen machine.current event = some item ∧
        machine.dispatch event =
          (.transitioned, { machine with current := item.transition.target }) := by
  unfold dispatch
  by_cases empty : machine.current = []
  · simp [empty]
  · rw [if_neg (by simpa using empty)]
    cases chosen : machine.chosen machine.current event with
    | none => exact .inl ⟨.inr rfl, rfl⟩
    | some item => exact .inr ⟨item, empty, rfl, rfl⟩

/-- A sequence of events. -/
def dispatchAll (machine : HierarchicalStateMachine) (events : List ByteString) :
    HierarchicalStateMachine :=
  events.foldl (fun machine event => (machine.dispatch event).2) machine

end HierarchicalStateMachine

end GeoWorld.Ai
