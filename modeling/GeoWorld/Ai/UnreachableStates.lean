import Mathlib
import GeoWorld.Ai.ArtifactRuntime

/-!
No run of a loaded machine comes to a state that the validation warned of, or below one: the
current state stays among the reached states, whatever the events are.
-/

namespace GeoWorld.Ai

open WorldModel Library Tooling DocumentValidation

variable {document : HfsmDocument} {machine : HierarchicalStateMachine}

theorem Holds.findState (holds : Holds document machine) (unique : document.ids.Nodup)
    (id : ByteString) : findState machine.states id =
      (document.states.find? fun state => state.id == id).map hierarchicalState := by
  have single : {state ∈ machine.states | (state.id == id) = true}.Subsingleton := by
    rintro first ⟨listed, same⟩ second ⟨listed', same'⟩
    obtain ⟨left, member, rfl⟩ := List.mem_map.mp (holds.states.mem_iff.mp listed)
    obtain ⟨right, member', rfl⟩ := List.mem_map.mp (holds.states.mem_iff.mp listed')
    rw [beq_iff_eq] at same same'
    rw [List.inj_on_of_nodup_map unique member member' (same.trans same'.symm)]
  rw [Ai.findState, List.find?_eq_find?_of_perm holds.states single, List.find?_map]
  rfl

/-- The machine's parents are those of the document. -/
theorem Holds.parentOf (holds : Holds document machine) (unique : document.ids.Nodup)
    {child parent : ByteString} : machine.parentOf child = some parent ↔
      document.ParentEdge child parent := by
  rw [HierarchicalStateMachine.parentOf, holds.findState unique, Option.bind_map,
    Option.bind_eq_some_iff]
  constructor
  · rintro ⟨state, found, kept⟩
    by_cases orphan : state.parent = []
    · simp [hierarchicalState, orphan] at kept
    · have same : state.parent = parent := by simpa [hierarchicalState, orphan] using kept
      exact ⟨same ▸ orphan, state, found, same⟩
  · rintro ⟨named, state, found, rfl⟩
    exact ⟨state, found, by simp [hierarchicalState, named]⟩

theorem Holds.ids_named (holds : Holds document machine) {id : ByteString}
    (known : id ∈ document.ids) : id ≠ [] := by
  obtain ⟨state, member, rfl⟩ := List.mem_map.mp known
  have listed : hierarchicalState state ∈ machine.states :=
    holds.states.mem_iff.mpr (List.mem_map_of_mem member)
  have named : ∀ {states : List HierarchicalState}, ParentsFirst states →
      ∀ other ∈ states, other.id ≠ [] := by
    intro states ordered
    induction ordered with
    | nil => exact nofun
    | define _ named _ _ ih =>
      intro other inside
      rcases List.mem_append.mp inside with earlier | last
      · exact ih other earlier
      · rwa [List.mem_singleton.mp last]
  exact named machine.parents_first _ listed

theorem Holds.dispatch (holds : Holds document machine) (event : ByteString) :
    Holds document (machine.dispatch event).2 := by
  rcases machine.dispatch_cases event with ⟨-, ignored⟩ | ⟨item, -, -, moved⟩
  · rwa [ignored]
  · rw [moved]
    exact ⟨holds.states, holds.transitions, holds.events⟩

/-- The step lemma: the target of a transition of the current state or of an ancestor. -/
theorem Holds.dispatch_reached (holds : Holds document machine) (formed : document.WellFormed)
    (reached : machine.current ∈ document.reached) (event : ByteString) :
    (machine.dispatch event).2.current ∈ document.reached := by
  rcases machine.dispatch_cases event with ⟨-, ignored⟩ | ⟨item, named, chosen, moved⟩
  · rwa [ignored]
  · rw [moved]
    obtain ⟨above, path, taken⟩ :=
      (machine.chosen_nearest machine.current event).reaches chosen
    obtain ⟨listed, rfl, -⟩ := HierarchicalStateMachine.transitionFor_some taken
    rw [holds.transitions, List.mem_map] at listed
    obtain ⟨transition, member, rfl⟩ := listed
    have ancestor : document.Ancestor machine.current transition.source :=
      Relation.ReflTransGen.mono (fun _ _ edge => (holds.parentOf formed.unique_ids).mp edge) _ _
        path
    obtain ⟨up, source_named⟩ := HfsmDocument.ancestor_up ancestor named
    have source_known := formed.sources_known transition member
    exact HfsmDocument.reached_target reached member (HfsmDocument.mem_lineage.mpr
      ⟨up, (HfsmDocument.parentOf_isSome source_named).mpr source_known⟩)
      (formed.targets_known transition member)

theorem Holds.dispatchAll_reached (holds : Holds document machine) (formed : document.WellFormed)
    (reached : machine.current ∈ document.reached) (events : List ByteString) :
    Holds document (machine.dispatchAll events) ∧
      (machine.dispatchAll events).current ∈ document.reached := by
  induction events generalizing machine with
  | nil => exact ⟨holds, reached⟩
  | cons event rest ih => exact ih (holds.dispatch event) (holds.dispatch_reached formed reached event)

theorem reached_known {id : ByteString} (formed : document.WellFormed)
    (reached : id ∈ document.reached) : id ∈ document.ids := by
  obtain ⟨-, path⟩ := Worklist.mem_reachableFrom.mp reached
  rcases Relation.ReflTransGen.cases_tail path with rfl | ⟨_, -, edge⟩
  · exact formed.initial_known
  · exact edge.2

/-- Neither a state that is warned of nor one below it is ever current, and a cycle of parents
is an error. -/
theorem unreachable_states_sound (document : HfsmDocument) (machine : HierarchicalStateMachine)
    (valid_document : valid document.validate = true)
    (loaded : loadMachine document = .ok machine) :
    (∀ id, Warned document.validate id → ∀ events,
      ¬ document.Ancestor (machine.dispatchAll events).current id) ∧
    ∀ other : HfsmDocument, (∃ id, Relation.TransGen other.ParentEdge id id) →
      ∃ id, HasError other.validate .cycle id := by
  obtain ⟨-, formed⟩ := document.validate_valid_iff.mp valid_document
  obtain ⟨holds, started⟩ := loadMachine_ok loaded
  constructor
  · intro id warned events path
    have start_reached : machine.current ∈ document.reached := by
      rw [started]
      exact HfsmDocument.initial_reached formed.initial_known
    obtain ⟨-, reached⟩ := holds.dispatchAll_reached formed start_reached events
    exact HfsmDocument.not_warned_of_reached reached
      (holds.ids_named (reached_known formed reached)) path warned
  · rintro other ⟨id, cycle⟩
    exact ⟨id, HfsmDocument.cycle_error cycle⟩

/-- A child before its parent, and a state that no transition leads to. -/
def sleeperDocument : HfsmDocument where
  machineId := utf8 "runtime-agent"
  initialState := utf8 "idle"
  states := [
    { id := utf8 "active/running", name := utf8 "运行", parent := utf8 "active" },
    { id := utf8 "active", name := utf8 "活动", parent := [] },
    { id := utf8 "idle", name := utf8 "空闲", parent := [] },
    { id := utf8 "asleep", name := utf8 "睡眠", parent := [] }]
  transitions := [
    { source := utf8 "idle", event := utf8 "start", target := utf8 "active/running", priority := 10 },
    { source := utf8 "asleep", event := utf8 "wake", target := utf8 "idle" }]

def parentCycle : HfsmDocument where
  machineId := utf8 "agent"
  initialState := utf8 "a"
  states := [
    { id := utf8 "a", name := utf8 "a", parent := utf8 "b" },
    { id := utf8 "b", name := utf8 "b", parent := utf8 "a" }]
  transitions := []

theorem unreachable_states_sleeper : ∃ machine, loadMachine sleeperDocument = .ok machine ∧
    (machine.dispatchAll [utf8 "start"]).current = utf8 "active/running" ∧
    ¬ sleeperDocument.Ancestor (machine.dispatchAll [utf8 "start"]).current (utf8 "asleep") ∧
    ∃ id, HasError parentCycle.validate .cycle id := by
  have runs : (loadMachine sleeperDocument).toOption.map (fun machine =>
      (machine.dispatchAll [utf8 "start"]).current) = some (utf8 "active/running") := by
    decide +kernel
  obtain ⟨machine, loaded, current⟩ := Option.map_eq_some_iff.mp runs
  have loaded : loadMachine sleeperDocument = .ok machine := by
    cases built : loadMachine sleeperDocument with
    | error message => simp [built, Except.toOption] at loaded
    | ok other => simpa [built, Except.toOption] using loaded
  obtain ⟨never, reported⟩ := unreachable_states_sound sleeperDocument machine
    (by decide +kernel) loaded
  have warned : Warned sleeperDocument.validate (utf8 "asleep") :=
    ⟨⟨.unreachable, .warning, utf8 "asleep", utf8 "状态无法从初始状态到达"⟩, by decide +kernel,
      rfl, rfl, rfl⟩
  have first : parentCycle.ParentEdge (utf8 "a") (utf8 "b") :=
    ⟨by decide +kernel, ⟨utf8 "a", utf8 "a", utf8 "b", {}⟩, by decide +kernel, rfl⟩
  have second : parentCycle.ParentEdge (utf8 "b") (utf8 "a") :=
    ⟨by decide +kernel, ⟨utf8 "b", utf8 "b", utf8 "a", {}⟩, by decide +kernel, rfl⟩
  exact ⟨machine, loaded, current, never _ warned _, reported parentCycle ⟨_, .tail (.single first) second⟩⟩

end GeoWorld.Ai
