import Mathlib
import GeoWorld.Ai.Hfsm

/-!
The dispatch of an event by a machine that calls have built: it ends, it fires exactly when a
state on the parent chain of the current one takes the event, and the nearest such state's best
transition is the one that fires.
-/

namespace GeoWorld.Ai

open WorldModel Library

/-- The calls that build and run a machine; a refused one leaves it as it was. -/
inductive Call where
  | defineState (state : HierarchicalState)
  | addTransition (transition : HierarchicalTransition)
  | setInitial (state : ByteString)
  | dispatch (event : ByteString)

namespace HierarchicalStateMachine

def call (machine : HierarchicalStateMachine) : Call → HierarchicalStateMachine
  | .defineState state => (machine.defineState state).getD machine
  | .addTransition transition => (machine.addTransition transition).getD machine
  | .setInitial state => (machine.setInitial state).getD machine
  | .dispatch event => (machine.dispatch event).2

def afterCalls (calls : List Call) : HierarchicalStateMachine := calls.foldl call {}

variable {machine next : HierarchicalStateMachine} {state event : ByteString}

/-- The states on the parent chain of the current state, itself the first. -/
def OnChain (machine : HierarchicalStateMachine) (state : ByteString) : Prop :=
  machine.current ≠ [] ∧
    Relation.ReflTransGen (ParentChain.Up machine.parentOf) machine.current state

/-- A state with a transition of its own for the event. -/
def Takes (machine : HierarchicalStateMachine) (event state : ByteString) : Prop :=
  ∃ item ∈ machine.transitions, item.matching state event = true

/-- The item belongs to the nearest state that takes the event, no transition of that state for it
has a higher priority, and none of that priority a smaller target. -/
structure Picked (machine : HierarchicalStateMachine) (event : ByteString)
    (item : HierarchicalTransition) : Prop where
  nearest : Relation.ReflTransGen (fun child parent => ¬ machine.Takes event child ∧
    ParentChain.Up machine.parentOf child parent) machine.current item.source
  member : item ∈ machine.transitions
  fits : item.transition.event = event
  highest : ∀ other ∈ machine.transitions, other.matching item.source event = true →
    other.transition.priority ≤ item.transition.priority
  smallest : ∀ other ∈ machine.transitions, other.matching item.source event = true →
    other.transition.priority = item.transition.priority →
      ¬ other.transition.target < item.transition.target

theorem takes_iff : machine.Takes event state ↔ (machine.transitionFor state event).isSome := by
  constructor
  · rintro ⟨item, member, fits⟩
    cases found : machine.transitionFor state event with
    | none => exact absurd fits (by simp [transitionFor_none found member])
    | some _ => rfl
  · intro found
    obtain ⟨item, found⟩ := Option.isSome_iff_exists.mp found
    obtain ⟨member, source, fits⟩ := transitionFor_some found
    exact ⟨item, member, by simp [HierarchicalTransition.matching, source, fits]⟩

theorem not_takes_iff : ¬ machine.Takes event state ↔ machine.transitionFor state event = none := by
  rw [takes_iff, Option.not_isSome_iff_eq_none]

/-- The transition chosen from the current state is the best of the nearest state. -/
theorem picked_of_chosen {item : HierarchicalTransition}
    (chosen : machine.chosen machine.current event = some item) : machine.Picked event item := by
  obtain ⟨state, path, found⟩ := (machine.chosen_nearest machine.current event).through chosen
  obtain ⟨member, rfl, fits⟩ := transitionFor_some found
  refine ⟨?_, member, fits, fun other => transitionFor_highest found,
    fun other => transitionFor_smallest found⟩
  refine Relation.ReflTransGen.mono (fun child parent step => ?_) _ _ path
  exact ⟨not_takes_iff.mpr step.1, step.2⟩

/-- A dispatch fires if and only if a state on the chain takes the event. -/
theorem dispatch_fires_iff (machine : HierarchicalStateMachine) (event : ByteString) :
    (machine.dispatch event).1 = .transitioned ↔
      ∃ state, machine.OnChain state ∧ machine.Takes event state := by
  rcases machine.dispatch_cases event with ⟨silent, ignored⟩ | ⟨item, active, chosen, moved⟩
  · rw [ignored]
    refine iff_of_false nofun ?_
    rintro ⟨state, ⟨active, path⟩, takes⟩
    have missing := silent.resolve_left active
    have quiet := (machine.chosen_nearest machine.current event).all_silent missing path
    exact not_takes_iff.mpr quiet takes
  · rw [moved]
    obtain ⟨state, path, found⟩ := (machine.chosen_nearest machine.current event).reaches chosen
    exact iff_of_true rfl ⟨state, ⟨active, path⟩, takes_iff.mpr (by simp [found])⟩

def Defined (machine : HierarchicalStateMachine) (id : ByteString) : Prop :=
  ∃ state ∈ machine.states, state.id = id

/-- Transitions lead to defined states. -/
def Targeted (machine : HierarchicalStateMachine) : Prop :=
  ∀ item ∈ machine.transitions, machine.Defined item.transition.target

theorem defined_iff : machine.Defined state ↔ (findState machine.states state).isSome :=
  findState_isSome.symm

section Calls

theorem defineState_cases (machine : HierarchicalStateMachine) (added : HierarchicalState) :
    (machine.defineState added).getD machine = machine ∨
      ((machine.defineState added).getD machine).states = machine.states ++ [added] ∧
        ((machine.defineState added).getD machine).transitions = machine.transitions ∧
        ((machine.defineState added).getD machine).current = machine.current := by
  unfold defineState
  split
  · exact .inl rfl
  · exact .inr ⟨rfl, rfl, rfl⟩

theorem call_defined (call : Call) {id : ByteString} (defined : machine.Defined id) :
    (machine.call call).Defined id := by
  cases call with
  | defineState added =>
    rcases machine.defineState_cases added with same | ⟨states, -, -⟩
    · rwa [HierarchicalStateMachine.call, same]
    · obtain ⟨state, member, named⟩ := defined
      exact ⟨state, by rw [HierarchicalStateMachine.call, states]; exact List.mem_append_left _ member,
        named⟩
  | addTransition transition =>
    rw [HierarchicalStateMachine.call, addTransition]
    split <;> exact defined
  | setInitial state =>
    rw [HierarchicalStateMachine.call, setInitial]
    split <;> exact defined
  | dispatch event =>
    rw [HierarchicalStateMachine.call]
    rcases machine.dispatch_cases event with ⟨-, ignored⟩ | ⟨item, -, -, moved⟩
    · rwa [ignored]
    · rwa [moved]

theorem call_targeted (call : Call) (targeted : machine.Targeted) :
    (machine.call call).Targeted := by
  -- the states only grow, so the old transitions keep their targets
  suffices listed : ∀ item ∈ (machine.call call).transitions, item ∈ machine.transitions ∨
      machine.Defined item.transition.target from fun item member =>
    call_defined call ((listed item member).elim (targeted item) id)
  intro item member
  cases call with
  | defineState added =>
    rcases machine.defineState_cases added with same | ⟨-, transitions, -⟩
    · rw [HierarchicalStateMachine.call, same] at member
      exact .inl member
    · rw [HierarchicalStateMachine.call, transitions] at member
      exact .inl member
  | addTransition transition =>
    rw [HierarchicalStateMachine.call, addTransition] at member
    split at member
    · exact .inl member
    · rename_i accepted
      rcases List.mem_append.mp member with old | new
      · exact .inl old
      · obtain rfl := List.mem_singleton.mp new
        rw [Bool.or_eq_true, not_or, Option.isNone_iff_eq_none] at accepted
        exact .inr (defined_iff.mpr (Option.isSome_iff_ne_none.mpr accepted.2))
  | setInitial state =>
    rw [HierarchicalStateMachine.call, setInitial] at member
    split at member <;> exact .inl member
  | dispatch event =>
    rw [HierarchicalStateMachine.call] at member
    rcases machine.dispatch_cases event with ⟨-, ignored⟩ | ⟨_, -, -, moved⟩
    · rw [ignored] at member
      exact .inl member
    · rw [moved] at member
      exact .inl member

/-- Once the current state is defined it stays so, whatever is called. -/
theorem call_current (call : Call) (targeted : machine.Targeted)
    (current : machine.Defined machine.current) :
    (machine.call call).Defined (machine.call call).current := by
  cases call with
  | defineState added =>
    have kept := call_defined (.defineState added) current
    rcases machine.defineState_cases added with same | ⟨-, -, unmoved⟩
    · rwa [HierarchicalStateMachine.call, same]
    · rwa [HierarchicalStateMachine.call, unmoved]
  | addTransition transition =>
    rw [HierarchicalStateMachine.call, addTransition]
    split <;> exact current
  | setInitial state =>
    rw [HierarchicalStateMachine.call, setInitial]
    split
    · exact current
    · rename_i found
      exact defined_iff.mpr (Option.isSome_iff_ne_none.mpr (by simpa using found))
  | dispatch event =>
    rw [HierarchicalStateMachine.call]
    rcases machine.dispatch_cases event with ⟨-, ignored⟩ | ⟨item, -, chosen, moved⟩
    · rwa [ignored]
    · rw [moved]
      exact targeted item (picked_of_chosen chosen).member

theorem afterCalls_targeted (calls : List Call) : (afterCalls calls).Targeted := by
  have start : Targeted {} := nofun
  suffices kept : ∀ machine : HierarchicalStateMachine, machine.Targeted →
      (calls.foldl call machine).Targeted from kept {} start
  induction calls with
  | nil => exact fun _ targeted => targeted
  | cons call calls ih => exact fun machine targeted => ih _ (call_targeted call targeted)

theorem foldl_current (calls : List Call) (targeted : machine.Targeted)
    (current : machine.Defined machine.current) :
    (calls.foldl call machine).Defined (calls.foldl call machine).current := by
  induction calls generalizing machine with
  | nil => exact current
  | cons call calls ih => exact ih (call_targeted call targeted) (call_current call targeted current)

end Calls

/-- After any calls a dispatch ends, within as many steps as there are states; it fires if and only
if a state on the chain takes the event, along a transition picked as stated; and after a
successful `set_initial` the current state is defined. -/
theorem event_dispatch (calls : List Call) (event : ByteString) :
    (ParentChain.firstUp (afterCalls calls).parentOf
      (fun state => (afterCalls calls).transitionFor state event)
        ((afterCalls calls).states.length + 1) (afterCalls calls).current).isSome ∧
      (((afterCalls calls).dispatch event).1 = .transitioned ↔
        ∃ state, (afterCalls calls).OnChain state ∧ (afterCalls calls).Takes event state) ∧
      (((afterCalls calls).dispatch event).1 = .transitioned → ∃ item,
        (afterCalls calls).Picked event item ∧ ((afterCalls calls).dispatch event).2 =
          { afterCalls calls with current := item.transition.target }) ∧
      (((afterCalls calls).dispatch event).1 = .ignored →
        ((afterCalls calls).dispatch event).2 = afterCalls calls) ∧
      ∀ (before after : List Call) (initial : ByteString),
        calls = before ++ .setInitial initial :: after →
          ((afterCalls before).setInitial initial).isSome →
            (afterCalls calls).Defined (afterCalls calls).current := by
  refine ⟨climb_total _ event _, dispatch_fires_iff _ event, ?_, ?_, ?_⟩
  · rcases (afterCalls calls).dispatch_cases event with ⟨-, ignored⟩ | ⟨item, -, chosen, moved⟩
    · rw [ignored]
      exact nofun
    · exact fun _ => ⟨item, picked_of_chosen chosen, by rw [moved]⟩
  · rcases (afterCalls calls).dispatch_cases event with ⟨-, ignored⟩ | ⟨item, -, -, moved⟩
    · exact fun _ => by rw [ignored]
    · rw [moved]
      exact nofun
  · rintro before after initial rfl accepted
    obtain ⟨begun, accepted⟩ := Option.isSome_iff_exists.mp accepted
    have called : (afterCalls before).call (.setInitial initial) = begun := by
      rw [call, accepted, Option.getD_some]
    have targeted : begun.Targeted := called ▸ call_targeted _ (afterCalls_targeted before)
    have current : begun.Defined begun.current := by
      rw [setInitial] at accepted
      split at accepted
      · cases accepted
      · rename_i found
        obtain rfl := Option.some.inj accepted
        exact defined_iff.mpr (Option.isSome_iff_ne_none.mpr (by simpa using found))
    have later : afterCalls (before ++ .setInitial initial :: after) = after.foldl call begun := by
      rw [afterCalls, List.foldl_append, List.foldl_cons, ← called, afterCalls]
    rw [later]
    exact foldl_current after targeted current

def doorCalls : List Call :=
  [.defineState ⟨[1], []⟩, .defineState ⟨[2], [1]⟩, .addTransition ⟨[1], ⟨[9], [1], 0⟩⟩,
    .setInitial [2]]

theorem event_dispatch_door : (afterCalls doorCalls).Defined (afterCalls doorCalls).current :=
  (event_dispatch doorCalls [9]).2.2.2.2 (doorCalls.take 3) [] [2] rfl (by decide +kernel)

end HierarchicalStateMachine

end GeoWorld.Ai
