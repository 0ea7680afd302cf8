import Mathlib
import GeoWorld.Tooling.HfsmDocument

/-!
What the validation of a state machine accepts, the error that a cycle of parents gives, and
the states that it does not warn of: they are closed under transitions and ancestors.
-/

namespace GeoWorld.Tooling

open WorldModel Library DocumentValidation

namespace HfsmDocument

/-- The parent of the state that an id names; of states with one id the first is meant. -/
def ParentEdge (document : HfsmDocument) (child parent : ByteString) : Prop :=
  parent ≠ [] ∧ ∃ state, document.states.find? (fun state => state.id == child) = some state ∧
    state.parent = parent

/-- The state or one of its ancestors. -/
def Ancestor (document : HfsmDocument) : ByteString → ByteString → Prop :=
  Relation.ReflTransGen document.ParentEdge

structure WellFormed (document : HfsmDocument) : Prop where
  unique_ids : document.ids.Nodup
  initial_known : document.initialState ∈ document.ids
  parents_known : ∀ state ∈ document.states, state.parent ≠ [] → state.parent ∈ document.ids
  open_ways : ∀ state ∈ document.states,
    ParentChain.returns document.ids document.parentOf state.id state.parent = false
  sources_known : ∀ transition ∈ document.transitions, transition.source ∈ document.ids
  targets_known : ∀ transition ∈ document.transitions, transition.target ∈ document.ids
  unique_keys : (document.transitions.map key).Nodup

section Checks

variable {document : HfsmDocument} {states : List HfsmStateDocument} {id : ByteString}

theorem lookup_stateMap (states : List HfsmStateDocument) (id : ByteString) :
    (stateMap states)[id]? = states.find? fun state => state.id == id := by
  rw [stateMap, lookup_foldl_insertIfNew]
  simp

theorem mem_stateMap : id ∈ stateMap document.states ↔ id ∈ document.ids := by
  rw [Std.ExtTreeMap.mem_iff_isSome_getElem?, lookup_stateMap, List.find?_isSome]
  simp [ids]

theorem checkIds_nil_iff (seen : StateMap) : checkIds seen states = [] ↔
    (states.map HfsmStateDocument.id).Nodup ∧ ∀ state ∈ states, state.id ∉ seen := by
  induction states generalizing seen with
  | nil => simp [checkIds]
  | cons state rest ih =>
    rw [checkIds, List.append_eq_nil_iff, ite_error_nil, ih, List.map_cons, List.nodup_cons]
    simp only [Std.ExtTreeMap.mem_insertIfNew, Std.LawfulEqCmp.compare_eq_iff_eq, not_or,
      List.forall_mem_cons, List.mem_map, not_exists, not_and]
    constructor
    · rintro ⟨fresh, distinct, apart⟩
      exact ⟨⟨fun other member same => (apart other member).1 same.symm, distinct⟩, fresh,
        fun other member => (apart other member).2⟩
    · rintro ⟨⟨differ, distinct⟩, fresh, apart⟩
      exact ⟨fresh, distinct, fun other member =>
        ⟨fun same => differ other member same.symm, apart other member⟩⟩

theorem checkIds_errors (seen : StateMap) (states : List HfsmStateDocument) :
    AllErrors (checkIds seen states) := by
  induction states generalizing seen with
  | nil => exact .nil
  | cons state rest ih => exact .append (.ite (allErrors_addError _ _ _) .nil) (ih _)

theorem checkParent_errors (document : HfsmDocument) (state : HfsmStateDocument) :
    AllErrors (document.checkParent state) :=
  .append (.ite (allErrors_addError _ _ _) .nil) (.ite (allErrors_addError _ _ _) .nil)

theorem checkTransitions_errors (states : StateMap) (keys : List HfsmTransitionKey)
    (transitions : List HfsmTransitionDocument) :
    AllErrors (checkTransitions states keys transitions) := by
  induction transitions generalizing keys with
  | nil => exact .nil
  | cons transition rest ih =>
    exact .append (.append (.append (.ite (allErrors_addError _ _ _) .nil)
      (.ite (allErrors_addError _ _ _) .nil)) (.ite (allErrors_addError _ _ _) .nil)) (ih _)

theorem checkTransitions_nil_iff (states : StateMap) (keys : List HfsmTransitionKey)
    (transitions : List HfsmTransitionDocument) : checkTransitions states keys transitions = [] ↔
      (∀ transition ∈ transitions, transition.source ∈ states ∧ transition.target ∈ states) ∧
        (transitions.map key).Nodup ∧ ∀ transition ∈ transitions, key transition ∉ keys := by
  induction transitions generalizing keys with
  | nil => simp [checkTransitions]
  | cons transition rest ih =>
    rw [checkTransitions, List.append_eq_nil_iff, List.append_eq_nil_iff, List.append_eq_nil_iff,
      ite_error_nil, ite_error_nil, ite_error_nil, not_not, not_not, ih, List.map_cons,
      List.nodup_cons]
    simp only [List.forall_mem_cons]
    simp only [List.mem_cons, not_or, List.mem_map, not_exists, not_and]
    constructor
    · rintro ⟨⟨ends, fresh⟩, known, distinct, apart⟩
      exact ⟨⟨ends, known⟩, ⟨fun other member => (apart other member).1, distinct⟩, fresh,
        fun other member => (apart other member).2⟩
    · rintro ⟨⟨ends, known⟩, ⟨differ, distinct⟩, fresh, apart⟩
      exact ⟨⟨ends, fresh⟩, known, distinct, fun other member =>
        ⟨differ other member, apart other member⟩⟩

theorem errors_allErrors (document : HfsmDocument) : AllErrors document.errors :=
  .append (.append (.append (.append (.ite (allErrors_addError _ _ _) .nil)
    (checkIds_errors _ _)) (.ite (allErrors_addError _ _ _) .nil))
      (.flatMap fun _ _ => checkParent_errors _ _)) (checkTransitions_errors _ _ _)

theorem checkParent_nil_iff (state : HfsmStateDocument) : document.checkParent state = [] ↔
    (state.parent ≠ [] → state.parent ∈ document.ids) ∧
      ParentChain.returns document.ids document.parentOf state.id state.parent = false := by
  rw [checkParent, List.append_eq_nil_iff, ite_error_nil, ite_error_nil, mem_stateMap,
    Bool.not_eq_true, not_and, not_not]
  simp

/-- Valid documents are those of the version that are well formed. -/
theorem validate_valid_iff (document : HfsmDocument) : valid document.validate = true ↔
    document.schemaVersion = behaviorDocumentSchemaVersion ∧ document.WellFormed := by
  rw [validate, valid_append, warnings, (warnings_allWarnings _ _ _ _).valid, and_iff_left rfl,
    document.errors_allErrors.valid_iff, errors]
  simp only [List.append_eq_nil_iff, ite_error_nil, not_not, checkIds_nil_iff,
    List.flatMap_eq_nil_iff, checkParent_nil_iff, checkTransitions_nil_iff, mem_stateMap]
  constructor
  · rintro ⟨⟨⟨⟨version, unique, -⟩, initial⟩, parents⟩, ends, keys, -⟩
    exact ⟨version, unique, initial, fun state member => (parents state member).1,
      fun state member => (parents state member).2, fun item member => (ends item member).1,
      fun item member => (ends item member).2, keys⟩
  · rintro ⟨version, formed⟩
    exact ⟨⟨⟨⟨version, formed.unique_ids, by simp⟩, formed.initial_known⟩,
      fun state member => ⟨formed.parents_known state member, formed.open_ways state member⟩⟩,
      fun item member => ⟨formed.sources_known item member, formed.targets_known item member⟩,
      formed.unique_keys, by simp⟩

end Checks

section Parents

variable {document : HfsmDocument} {id child parent other : ByteString}

theorem parentOf_eq (document : HfsmDocument) (named : id ≠ []) : document.parentOf id =
    (document.states.find? fun state => state.id == id).map HfsmStateDocument.parent := by
  rw [parentOf, lookup_stateMap, if_neg (by simpa using named)]

theorem parentOf_listed (document : HfsmDocument) (id : ByteString)
    (has_parent : (document.parentOf id).isSome) : id ∈ document.ids := by
  rw [parentOf] at has_parent
  split at has_parent
  · cases has_parent
  · rw [Option.isSome_map] at has_parent
    exact mem_stateMap.mp (Std.ExtTreeMap.mem_iff_isSome_getElem?.mpr has_parent)

theorem parentOf_isSome (named : id ≠ []) :
    (document.parentOf id).isSome ↔ id ∈ document.ids := by
  rw [parentOf_eq document named, Option.isSome_map, List.find?_isSome]
  simp [ids]

theorem ParentEdge.up (edge : document.ParentEdge child parent) (named : child ≠ []) :
    ParentChain.Up document.parentOf child parent := by
  obtain ⟨-, state, found, rfl⟩ := edge
  rw [ParentChain.Up, parentOf_eq document named, found]
  rfl

theorem ancestor_up (path : document.Ancestor child other) (named : child ≠ []) :
    Relation.ReflTransGen (ParentChain.Up document.parentOf) child other ∧ other ≠ [] := by
  induction path with
  | refl => exact ⟨.refl, named⟩
  | tail _ edge ih => exact ⟨.tail ih.1 (edge.up ih.2), edge.1⟩

/-- A cycle of parents gives an error at each of its states. -/
theorem cycle_error (cycle : Relation.TransGen document.ParentEdge id id) :
    HasError document.validate .cycle id := by
  obtain ⟨last, -, back⟩ := Relation.TransGen.tail'_iff.mp cycle
  have named : id ≠ [] := back.1
  obtain ⟨parent, first, path⟩ := Relation.TransGen.head'_iff.mp cycle
  have edge := first.up named
  obtain ⟨parent_named, state, found, rfl⟩ := first
  have around : Relation.TransGen (ParentChain.Up document.parentOf) id id :=
    Relation.TransGen.head' edge (ancestor_up path parent_named).1
  have member : state ∈ document.states := List.mem_of_find?_eq_some found
  have same : state.id = id := by simpa using List.find?_some found
  have returned := ParentChain.returns_of_cycle document.parentOf_listed edge around
  refine ⟨⟨.cycle, .error, id, utf8 "HFSM 父状态层级存在环路"⟩, ?_, rfl, rfl, rfl⟩
  have reported : (⟨.cycle, .error, id, utf8 "HFSM 父状态层级存在环路"⟩ : DocumentDiagnostic) ∈
      document.checkParent state := by
    rw [checkParent, same, if_pos returned]
    exact List.mem_append_right _ (List.mem_singleton_self _)
  exact List.mem_append_left _ (List.mem_append_left _ (List.mem_append_right _
    (List.mem_flatMap.mpr ⟨state, member, reported⟩)))

end Parents

section Reached

variable {document : HfsmDocument} {id current target : ByteString}

theorem mem_lineage : id ∈ document.lineage current ↔
    Relation.ReflTransGen (ParentChain.Up document.parentOf) current id ∧
      (document.parentOf id).isSome :=
  ParentChain.mem_chain document.parentOf_listed

/-- The reached states are closed under the transitions of a state and its ancestors. -/
theorem reached_target (reached : current ∈ document.reached) {transition : HfsmTransitionDocument}
    (member : transition ∈ document.transitions) (above : transition.source ∈ document.lineage current)
    (known : transition.target ∈ document.ids) : transition.target ∈ document.reached := by
  obtain ⟨initial, path⟩ := Worklist.mem_reachableFrom.mp reached
  refine Worklist.mem_reachableFrom.mpr ⟨initial, path.tail ⟨?_, known⟩⟩
  exact List.mem_flatMap.mpr ⟨transition.source, above,
    List.mem_map_of_mem (List.mem_filter.mpr ⟨member, by simp⟩)⟩

theorem initial_reached (known : document.initialState ∈ document.ids) :
    document.initialState ∈ document.reached :=
  Worklist.mem_reachableFrom.mpr ⟨known, .refl⟩

/-- A reached state keeps its ancestors from being warned of. -/
theorem not_warned_of_reached (reached : current ∈ document.reached) (named : current ≠ [])
    (path : document.Ancestor current id) : ¬ Warned document.validate id := by
  rw [validate, warned_append, or_iff_right (document.errors_allErrors.not_warned _), warnings,
    warned_flatMap]
  rintro ⟨state, member, unreachable, rfl⟩
  obtain ⟨up, id_named⟩ := ancestor_up path named
  have known : state.id ∈ document.ids := List.mem_map_of_mem member
  have inside : state.id ∈ document.lineage current :=
    mem_lineage.mpr ⟨up, (parentOf_isSome id_named).mpr known⟩
  have excused : document.containsReachedDescendant state.id = true :=
    List.any_eq_true.mpr ⟨current, reached, by simpa using inside⟩
  simp [HfsmDocument.unreachable, excused] at unreachable

end Reached

end HfsmDocument

end GeoWorld.Tooling

/-!
What a state machine document says: an event is answered by the nearest state from the current
one upward that has transitions for it, with the transition of the highest priority.
-/

namespace GeoWorld.Tooling

open WorldModel

namespace HfsmDocument

/-- A transition of a state for an event. -/
def Candidate (document : HfsmDocument) (state event : ByteString)
    (item : HfsmTransitionDocument) : Prop :=
  item ∈ document.transitions ∧ item.source = state ∧ item.event = event

/-- The answer to an event from a state upward; `none` when every state has passed it on. -/
inductive Answer (document : HfsmDocument) (event : ByteString) :
    ByteString → Option HfsmTransitionDocument → Prop where
  | taken {state : ByteString} {item : HfsmTransitionDocument}
      (own : document.Candidate state event item)
      (highest : ∀ other, document.Candidate state event other → other.priority ≤ item.priority) :
      Answer document event state (some item)
  | passed {state parent : ByteString} {answer : Option HfsmTransitionDocument}
      (silent : ∀ item, ¬ document.Candidate state event item)
      (above : document.ParentEdge state parent) (next : Answer document event parent answer) :
      Answer document event state answer
  | ignored {state : ByteString} (silent : ∀ item, ¬ document.Candidate state event item)
      (root : ∀ parent, ¬ document.ParentEdge state parent) : Answer document event state none

/-- The state after an event. -/
def Step (document : HfsmDocument) (event current next : ByteString) : Prop :=
  ∃ answer, document.Answer event current answer ∧
    next = (answer.map HfsmTransitionDocument.target).getD current

inductive Run (document : HfsmDocument) : ByteString → List ByteString → ByteString → Prop where
  | nil {current : ByteString} : Run document current [] current
  | cons {current next final event : ByteString} {events : List ByteString}
      (step : document.Step event current next) (rest : Run document next events final) :
      Run document current (event :: events) final

variable {document : HfsmDocument} {state event : ByteString}

theorem ParentEdge.unique {first second : ByteString} (left : document.ParentEdge state first)
    (right : document.ParentEdge state second) : first = second := by
  obtain ⟨-, _, found, rfl⟩ := left
  obtain ⟨-, _, found', rfl⟩ := right
  rw [Option.some.inj (found.symm.trans found')]

/-- No two transitions of one state for one event have the same priority. -/
theorem Answer.unique (keys : (document.transitions.map key).Nodup)
    {first second : Option HfsmTransitionDocument} (left : document.Answer event state first)
    (right : document.Answer event state second) : first = second := by
  induction left with
  | @taken state item own highest =>
    cases right with
    | @taken _ other own' highest' =>
      have level : item.priority = other.priority :=
        Int32.le_antisymm (highest' item own) (highest other own')
      have same : key item = key other := by
        rw [key, key, own.2.1, own.2.2, own'.2.1, own'.2.2, level]
      rw [List.inj_on_of_nodup_map keys own.1 own'.1 same]
    | passed silent _ _ => exact absurd own (silent item)
    | ignored silent _ => exact absurd own (silent item)
  | passed silent above _ ih =>
    cases right with
    | taken own _ => exact absurd own (silent _)
    | passed _ above' next =>
      obtain rfl := above.unique above'
      exact ih next
    | ignored _ root => exact absurd above (root _)
  | ignored silent root =>
    cases right with
    | taken own _ => exact absurd own (silent _)
    | passed _ above _ => exact absurd above (root _)
    | ignored _ _ => rfl

theorem Run.unique (keys : (document.transitions.map key).Nodup) {current first second : ByteString}
    {events : List ByteString} (left : document.Run current events first)
    (right : document.Run current events second) : first = second := by
  induction left with
  | nil =>
    cases right
    rfl
  | cons step rest ih =>
    cases right with
    | cons step' rest' =>
      obtain ⟨_, answer, rfl⟩ := step
      obtain ⟨_, answer', rfl⟩ := step'
      obtain rfl := answer.unique keys answer'
      exact ih rest'

end HfsmDocument

end GeoWorld.Tooling
