import Mathlib
import GeoWorld.Ai.Hfsm
import GeoWorld.Tooling.HfsmValidation

/-!
The state machine of a document. Passes over the states that are still pending define those
whose parents are defined, until none is left or a pass defines nothing.
-/

namespace GeoWorld.Ai

open WorldModel Library Tooling DocumentValidation

def hierarchicalState (state : HfsmStateDocument) : HierarchicalState := ⟨state.id, state.parent⟩

def hierarchicalTransition (item : HfsmTransitionDocument) : HierarchicalTransition :=
  ⟨item.source, item.event, item.target, item.priority⟩

/-- The machine under construction and the ids defined so far. -/
structure Definitions where
  loaded : HierarchicalStateMachine := {}
  defined : List ByteString := []

namespace Definitions

/-- `none` keeps the state pending. -/
def define (definitions : Definitions) (state : HfsmStateDocument) : Option Definitions :=
  if !state.parent.isEmpty ∧ state.parent ∉ definitions.defined then
    none
  else
    (definitions.loaded.defineState (hierarchicalState state)).map fun loaded =>
      ⟨loaded, state.id :: definitions.defined⟩

/-- One `std::erase_if` over the pending states, with those it keeps. -/
def pass : Definitions → List HfsmStateDocument → Definitions × List HfsmStateDocument
  | definitions, [] => (definitions, [])
  | definitions, state :: rest =>
    match definitions.define state with
    | some next => pass next rest
    | none =>
      let after := pass definitions rest
      (after.1, state :: after.2)

theorem pass_length_le (definitions : Definitions) (pending : List HfsmStateDocument) :
    (definitions.pass pending).2.length ≤ pending.length := by
  induction pending generalizing definitions with
  | nil => exact le_rfl
  | cons state rest ih =>
    rw [pass]
    cases definitions.define state with
    | some next => exact (ih next).trans (Nat.le_succ _)
    | none => exact Nat.succ_le_succ (ih definitions)

/-- Each pass but the last shortens the list, so its length bounds the passes. -/
def defineStates : (fuel : Nat) → Definitions → (pending : List HfsmStateDocument) →
    pending.length ≤ fuel → Except ByteString HierarchicalStateMachine
  | _, definitions, [], _ => .ok definitions.loaded
  | 0, _, _ :: _, short => absurd short (Nat.not_succ_le_zero _)
  | fuel + 1, definitions, state :: rest, short =>
    let after := definitions.pass (state :: rest)
    if same : after.2.length = (state :: rest).length then
      .error (utf8 "HFSM 状态层级无法构建: " ++ state.id)
    else
      defineStates fuel after.1 after.2 (by
        have shorter : after.2.length ≤ (state :: rest).length := pass_length_le _ _
        rw [List.length_cons] at short same shorter
        omega)

end Definitions

def addTransitions : HierarchicalStateMachine → List HfsmTransitionDocument →
    Except ByteString HierarchicalStateMachine
  | loaded, [] => .ok loaded
  | loaded, item :: rest =>
    match loaded.addTransition (hierarchicalTransition item) with
    | some next => addTransitions next rest
    | none => .error (utf8 "HFSM 转换无法构建: " ++ item.source ++ utf8 "/" ++ item.event)

/-- What `load_hfsm_artifact` makes of the document of an artifact. -/
def loadMachine (document : HfsmDocument) : Except ByteString HierarchicalStateMachine := do
  let loaded ← Definitions.defineStates document.states.length {} document.states le_rfl
  let loaded ← addTransitions loaded document.transitions
  match loaded.setInitial document.initialState with
  | some loaded => .ok loaded
  | none => .error (utf8 "HFSM 初始状态无法设置")

/-- The machine holds the states and transitions of the document. -/
structure Holds (document : HfsmDocument) (machine : HierarchicalStateMachine) : Prop where
  states : machine.states.Perm (document.states.map hierarchicalState)
  transitions : machine.transitions = document.transitions.map hierarchicalTransition
  events : ∀ item ∈ document.transitions, item.event ≠ []

section Build

variable {machine next : HierarchicalStateMachine} {state : HierarchicalState}

theorem defineState_some (defined : machine.defineState state = some next) :
    next.states = machine.states ++ [state] ∧ next.transitions = machine.transitions := by
  unfold HierarchicalStateMachine.defineState at defined
  split at defined
  · cases defined
  · obtain rfl := Option.some.inj defined
    exact ⟨rfl, rfl⟩

theorem addTransition_some {item : HierarchicalTransition}
    (added : machine.addTransition item = some next) :
    next.states = machine.states ∧ next.transitions = machine.transitions ++ [item] ∧
      item.transition.event ≠ [] := by
  unfold HierarchicalStateMachine.addTransition at added
  split at added
  · cases added
  · rename_i allowed
    obtain rfl := Option.some.inj added
    refine ⟨rfl, rfl, ?_⟩
    rintro empty
    simp [empty] at allowed

theorem setInitial_some {id : ByteString} (initial : machine.setInitial id = some next) :
    next = { machine with current := id } := by
  unfold HierarchicalStateMachine.setInitial at initial
  split at initial
  · cases initial
  · exact (Option.some.inj initial).symm

/-- What the states defined so far have in common with the machine. -/
structure Definitions.Sound (definitions : Definitions) (done : List HfsmStateDocument) : Prop where
  states : definitions.loaded.states = done.map hierarchicalState
  transitions : definitions.loaded.transitions = []
  defined : ∀ id, id ∈ definitions.defined ↔ id ∈ done.map HfsmStateDocument.id

variable {definitions after : Definitions} {done pending : List HfsmStateDocument}

theorem Definitions.Sound.define {state : HfsmStateDocument} (sound : definitions.Sound done)
    (defined : definitions.define state = some after) : after.Sound (done ++ [state]) := by
  unfold Definitions.define at defined
  split at defined
  · cases defined
  · obtain ⟨loaded, stepped, rfl⟩ := Option.map_eq_some_iff.mp defined
    obtain ⟨states, transitions⟩ := defineState_some stepped
    refine ⟨?_, transitions.trans sound.transitions, fun id => ?_⟩
    · rw [states, sound.states, List.map_append]
      rfl
    · rw [List.mem_cons, sound.defined, List.map_append, List.mem_append, or_comm]
      simp

theorem Definitions.Sound.pass (sound : definitions.Sound done) (pending : List HfsmStateDocument) :
    ∃ new, (new ++ (definitions.pass pending).2).Perm pending ∧
      (definitions.pass pending).1.Sound (done ++ new) := by
  induction pending generalizing definitions done with
  | nil => exact ⟨[], .refl _, by simpa [Definitions.pass] using sound⟩
  | cons state rest ih =>
    rw [Definitions.pass]
    cases step : definitions.define state with
    | some next =>
      obtain ⟨new, perm, sound'⟩ := ih (sound.define step)
      refine ⟨state :: new, perm.cons state, ?_⟩
      simpa only [List.append_assoc, List.singleton_append] using sound'
    | none =>
      obtain ⟨new, perm, sound'⟩ := ih sound
      exact ⟨new, List.perm_middle.trans (perm.cons state), sound'⟩

theorem defineStates_ok {fuel : Nat} (sound : definitions.Sound done)
    (short : pending.length ≤ fuel)
    (built : definitions.defineStates fuel pending short = .ok machine) :
    machine.states.Perm ((done ++ pending).map hierarchicalState) ∧ machine.transitions = [] := by
  induction fuel generalizing definitions done pending with
  | zero =>
    obtain rfl := List.eq_nil_of_length_eq_zero (Nat.le_zero.mp short)
    obtain rfl := Except.ok.inj built
    rw [List.append_nil, sound.states]
    exact ⟨.refl _, sound.transitions⟩
  | succ fuel ih =>
    cases pending with
    | nil =>
      obtain rfl := Except.ok.inj built
      rw [List.append_nil, sound.states]
      exact ⟨.refl _, sound.transitions⟩
    | cons state rest =>
      rw [Definitions.defineStates] at built
      split at built
      · cases built
      · obtain ⟨new, perm, sound'⟩ := sound.pass (state :: rest)
        obtain ⟨states, transitions⟩ := ih sound' _ built
        refine ⟨states.trans (List.Perm.map _ ?_), transitions⟩
        rw [List.append_assoc]
        exact perm.append_left done

theorem addTransitions_ok {items : List HfsmTransitionDocument}
    (added : addTransitions machine items = .ok next) :
    next.states = machine.states ∧
      next.transitions = machine.transitions ++ items.map hierarchicalTransition ∧
        ∀ item ∈ items, item.event ≠ [] := by
  induction items generalizing machine with
  | nil =>
    obtain rfl := Except.ok.inj added
    exact ⟨rfl, (List.append_nil _).symm, nofun⟩
  | cons item rest ih =>
    rw [addTransitions] at added
    cases step : machine.addTransition (hierarchicalTransition item) with
    | none =>
      rw [step] at added
      cases added
    | some middle =>
      rw [step] at added
      obtain ⟨states, transitions, named⟩ := addTransition_some step
      obtain ⟨states', transitions', others⟩ := ih added
      refine ⟨states'.trans states, ?_, List.forall_mem_cons.mpr ⟨named, others⟩⟩
      rw [transitions', transitions, List.append_assoc]
      rfl

/-- A loaded machine holds its document and starts in the initial state. -/
theorem loadMachine_ok {document : HfsmDocument} (built : loadMachine document = .ok machine) :
    Holds document machine ∧ machine.current = document.initialState := by
  unfold loadMachine at built
  cases first : Definitions.defineStates document.states.length {} document.states le_rfl with
  | error message =>
    rw [first] at built
    cases built
  | ok defined =>
    rw [first] at built
    have fresh : ({} : Definitions).Sound [] := ⟨rfl, rfl, fun id => .rfl⟩
    obtain ⟨states, none⟩ := defineStates_ok fresh le_rfl first
    cases second : addTransitions defined document.transitions with
    | error message =>
      simp only [bind, Except.bind, second] at built
      cases built
    | ok connected =>
      simp only [bind, Except.bind, second] at built
      obtain ⟨states', transitions, events⟩ := addTransitions_ok second
      cases third : connected.setInitial document.initialState with
      | none =>
        rw [third] at built
        cases built
      | some final =>
        rw [third] at built
        obtain rfl := Except.ok.inj built
        obtain rfl := setInitial_some third
        refine ⟨⟨?_, ?_, events⟩, rfl⟩
        · exact (states' ▸ states : connected.states.Perm _)
        · exact transitions.trans (by rw [none, List.nil_append])

end Build

end GeoWorld.Ai
