import Mathlib
import GeoWorld.Ai.UnreachableStates
import GeoWorld.Tooling.ArtifactCode
import GeoWorld.Tooling.HfsmValidation

/-!
Compiled state machines from document to run: which documents load again, and that a loaded
machine takes the transitions its document asks for.
-/

namespace GeoWorld.Ai

open WorldModel Library Tooling DocumentValidation

/-- `load_hfsm_artifact`; `none` when an exception leaves the call. -/
def loadHfsmArtifact (buffers : ArtifactBuffers) (dump : JsonDump) (bytes : List UInt8) :
    Option (Except ByteString HierarchicalStateMachine) :=
  (loadBehaviorArtifact buffers dump bytes {}).map fun loaded =>
    if valid loaded.1 then
      loadMachine loaded.2.hfsm
    else
      .error (if loaded.1.isEmpty then utf8 "HFSM 制品校验失败"
        else (loaded.1.head?.map DocumentDiagnostic.message).getD [])

section Stored

variable {document : HfsmDocument} {machine : HierarchicalStateMachine}

theorem ids_stored (document : HfsmDocument) : document.stored.ids = document.ids := by
  rw [HfsmDocument.ids, HfsmDocument.stored, List.map_map]
  rfl

theorem parentOf_stored (document : HfsmDocument) :
    document.stored.parentOf = document.parentOf := by
  funext id
  rw [HfsmDocument.parentOf, HfsmDocument.parentOf, HfsmDocument.lookup_stateMap,
    HfsmDocument.lookup_stateMap, HfsmDocument.stored, List.find?_map, Option.map_map]
  rfl

theorem wellFormed_stored (formed : document.WellFormed) : document.stored.WellFormed where
  unique_ids := by
    rw [ids_stored]
    exact formed.unique_ids
  initial_known := by
    rw [ids_stored]
    exact formed.initial_known
  parents_known := by
    rw [ids_stored]
    intro state member
    obtain ⟨original, listed, rfl⟩ := List.mem_map.mp member
    exact formed.parents_known original listed
  open_ways := by
    rw [ids_stored, parentOf_stored]
    intro state member
    obtain ⟨original, listed, rfl⟩ := List.mem_map.mp member
    exact formed.open_ways original listed
  sources_known := by
    rw [ids_stored]
    exact formed.sources_known
  targets_known := by
    rw [ids_stored]
    exact formed.targets_known
  unique_keys := formed.unique_keys

theorem Holds.of_stored (holds : Holds document.stored machine) : Holds document machine where
  states := by
    have same : document.stored.states.map hierarchicalState =
        document.states.map hierarchicalState := by
      rw [HfsmDocument.stored, List.map_map]
      rfl
    exact same ▸ holds.states
  transitions := holds.transitions
  events := holds.events

end Stored

section Build

variable {document : HfsmDocument} {definitions : Definitions}
variable {done pending : List HfsmStateDocument} {machine : HierarchicalStateMachine}

/-- A pass that drops no state could define none. -/
theorem pass_stuck (same : (definitions.pass pending).2.length = pending.length) :
    ∀ state ∈ pending, definitions.define state = none := by
  induction pending with
  | nil => exact nofun
  | cons state rest ih =>
    rw [Definitions.pass] at same
    cases step : definitions.define state with
    | some next =>
      have shorter := Definitions.pass_length_le next rest
      simp only [step, List.length_cons] at same
      omega
    | none =>
      simp only [step, List.length_cons, Nat.add_right_cancel_iff] at same
      exact List.forall_mem_cons.mpr ⟨step, ih same⟩

/-- A state that cannot be defined waits for a parent that is pending too. -/
theorem parent_pending (formed : document.WellFormed) (named : ∀ id ∈ document.ids, id ≠ [])
    (sound : definitions.Sound done) (all : (done ++ pending).Perm document.states)
    {state : HfsmStateDocument} (member : state ∈ pending)
    (stuck : definitions.define state = none) :
    state.parent ≠ [] ∧ state.parent ∈ pending.map HfsmStateDocument.id := by
  have listed : state ∈ document.states := all.mem_iff.mp (List.mem_append_right done member)
  have ids_perm : (done.map HfsmStateDocument.id ++ pending.map HfsmStateDocument.id).Perm
      document.ids := by
    rw [← List.map_append]
    exact all.map _
  have elsewhere : state.parent ≠ [] → state.parent ∉ definitions.defined →
      state.parent ∈ pending.map HfsmStateDocument.id := fun parent_named undefined =>
    (List.mem_append.mp (ids_perm.mem_iff.mpr
      (formed.parents_known state listed parent_named))).resolve_left
        fun early => undefined ((sound.defined _).mpr early)
  unfold Definitions.define at stuck
  split at stuck
  · rename_i waiting
    have parent_named : state.parent ≠ [] := by simpa using waiting.1
    exact ⟨parent_named, elsewhere parent_named waiting.2⟩
  · rename_i ready
    have refused := Option.map_eq_none_iff.mp stuck
    unfold HierarchicalStateMachine.defineState at refused
    split at refused
    · rename_i reasons
      rw [sound.states] at reasons
      rcases reasons with unnamed | ⟨item, earlier, same⟩ | ⟨parent_named, missing⟩
      · exact absurd unnamed (named _ (List.mem_map_of_mem listed))
      · obtain ⟨other, before, rfl⟩ := List.mem_map.mp earlier
        have distinct := ids_perm.nodup_iff.mpr formed.unique_ids
        exact absurd same ((List.nodup_append.mp distinct).2.2 _ (List.mem_map_of_mem before) _
          (List.mem_map_of_mem member))
      · refine ⟨parent_named, elsewhere parent_named fun defined => ?_⟩
        obtain ⟨parent, before, same⟩ := List.mem_map.mp ((sound.defined _).mp defined)
        have found : (findState (done.map hierarchicalState) state.parent).isSome :=
          findState_isSome.mpr ⟨hierarchicalState parent, List.mem_map_of_mem before, same⟩
        rw [Option.isNone_iff_eq_none] at missing
        rw [show (hierarchicalState state).parent = state.parent from rfl] at missing
        rw [missing] at found
        cases found
    · cases refused

/-- The way upward from a pending state ends, and it ends at a state that can be defined. -/
theorem not_all_stuck (formed : document.WellFormed) (named : ∀ id ∈ document.ids, id ≠ [])
    (sound : definitions.Sound done) (all : (done ++ pending).Perm document.states)
    (stuck : ∀ state ∈ pending, definitions.define state = none) : pending = [] := by
  cases pending with
  | nil => rfl
  | cons first rest =>
    have waits : ∀ state ∈ first :: rest, state.parent ∈ (first :: rest).map HfsmStateDocument.id :=
      fun state member => (parent_pending formed named sound all member (stuck state member)).2
    have inside : ∀ id ∈ (first :: rest).map HfsmStateDocument.id, id ∈ document.ids := by
      intro id member
      obtain ⟨state, listed, rfl⟩ := List.mem_map.mp member
      exact List.mem_map_of_mem (all.mem_iff.mp (List.mem_append_right done listed))
    have first_listed : first ∈ document.states :=
      all.mem_iff.mp (List.mem_append_right done List.mem_cons_self)
    obtain ⟨top, path, ended⟩ := ParentChain.ends_of_not_returns document.parentOf_listed
      (List.mem_map_of_mem first_listed) (formed.open_ways first first_listed)
    have top_pending : top ∈ (first :: rest).map HfsmStateDocument.id := by
      clear ended
      induction path with
      | refl => exact waits first List.mem_cons_self
      | @tail child parent _ edge ih =>
        obtain ⟨state, member, rfl⟩ := List.mem_map.mp ih
        have listed : state ∈ document.states := all.mem_iff.mp (List.mem_append_right done member)
        have found : document.states.find? (fun other => other.id == state.id) = some state := by
          obtain ⟨other, found⟩ := Option.isSome_iff_exists.mp
            (List.find?_isSome.mpr ⟨state, listed, by simp⟩ :
              (document.states.find? fun other => other.id == state.id).isSome)
          have same : other.id = state.id := by simpa using List.find?_some found
          rw [found, List.inj_on_of_nodup_map formed.unique_ids (List.mem_of_find?_eq_some found)
            listed same]
        rw [ParentChain.Up, HfsmDocument.parentOf_eq document (named _ (inside _ ih)), found] at edge
        obtain rfl := Option.some.inj edge
        exact waits state member
    have has_parent := (HfsmDocument.parentOf_isSome (named _ (inside top top_pending))).mpr
      (inside top top_pending)
    rw [ended] at has_parent
    cases has_parent

theorem defineStates_total (formed : document.WellFormed) (named : ∀ id ∈ document.ids, id ≠ [])
    {fuel : Nat} (sound : definitions.Sound done) (all : (done ++ pending).Perm document.states)
    (short : pending.length ≤ fuel) :
    ∃ machine, definitions.defineStates fuel pending short = .ok machine := by
  induction fuel generalizing definitions done pending with
  | zero =>
    obtain rfl := List.eq_nil_of_length_eq_zero (Nat.le_zero.mp short)
    exact ⟨_, rfl⟩
  | succ fuel ih =>
    cases pending with
    | nil => exact ⟨_, rfl⟩
    | cons state rest =>
      rw [Definitions.defineStates]
      split
      · rename_i same
        cases not_all_stuck formed named sound all (pass_stuck same)
      · obtain ⟨new, perm, sound'⟩ := sound.pass (state :: rest)
        refine ih sound' ?_ _
        rw [List.append_assoc]
        exact (perm.append_left done).trans all

theorem addTransitions_total (items : List HfsmTransitionDocument)
    (events : ∀ item ∈ items, item.event ≠ [])
    (sources : ∀ item ∈ items, item.source ≠ [] ∧ (findState machine.states item.source).isSome)
    (targets : ∀ item ∈ items, item.target ≠ [] ∧ (findState machine.states item.target).isSome) :
    ∃ next, addTransitions machine items = .ok next := by
  induction items generalizing machine with
  | nil => exact ⟨machine, rfl⟩
  | cons item rest ih =>
    rw [List.forall_mem_cons] at events sources targets
    have added : machine.addTransition (hierarchicalTransition item) =
        some { machine with
          transitions := machine.transitions ++ [hierarchicalTransition item] } := by
      refine if_neg ?_
      obtain ⟨source_named, source_found⟩ := sources.1
      obtain ⟨target_named, target_found⟩ := targets.1
      simp [hierarchicalTransition, events.1, source_named, target_named,
        Option.ne_none_iff_isSome.mpr source_found, Option.ne_none_iff_isSome.mpr target_found]
    obtain ⟨next, rest_added⟩ := @ih { machine with
      transitions := machine.transitions ++ [hierarchicalTransition item] } events.2 sources.2
        targets.2
    exact ⟨next, by rw [addTransitions, added]; exact rest_added⟩

/-- Well formed documents with ids and events that are not empty are built. -/
theorem loadMachine_total (formed : document.WellFormed) (named : ∀ id ∈ document.ids, id ≠ [])
    (events : ∀ item ∈ document.transitions, item.event ≠ []) :
    ∃ machine, loadMachine document = .ok machine := by
  have fresh : ({} : Definitions).Sound [] := ⟨rfl, rfl, fun id => .rfl⟩
  obtain ⟨defined, first⟩ := defineStates_total formed named fresh (.refl document.states) le_rfl
  obtain ⟨states, -⟩ := defineStates_ok fresh le_rfl first
  have found : ∀ {id}, id ∈ document.ids → (findState defined.states id).isSome := by
    intro id known
    obtain ⟨state, member, rfl⟩ := List.mem_map.mp known
    exact findState_isSome.mpr ⟨hierarchicalState state,
      states.mem_iff.mpr (List.mem_map_of_mem member), rfl⟩
  obtain ⟨connected, second⟩ := @addTransitions_total defined document.transitions events
    (fun item member => ⟨named _ (formed.sources_known item member),
      found (formed.sources_known item member)⟩)
    (fun item member => ⟨named _ (formed.targets_known item member),
      found (formed.targets_known item member)⟩)
  obtain ⟨states', -, -⟩ := addTransitions_ok second
  have initial : connected.setInitial document.initialState =
      some { connected with current := document.initialState } := by
    have known := found formed.initial_known
    rw [← states'] at known
    refine if_neg ?_
    simpa using Option.ne_none_iff_isSome.mpr known
  refine ⟨{ connected with current := document.initialState }, ?_⟩
  simp only [loadMachine, first, bind, Except.bind, second, initial]

end Build

section Run

variable {document : HfsmDocument} {machine : HierarchicalStateMachine} {state event : ByteString}

theorem Holds.candidate (holds : Holds document machine) {item : HfsmTransitionDocument}
    (own : document.Candidate state event item) :
    hierarchicalTransition item ∈ machine.transitions ∧
      (hierarchicalTransition item).matching state event = true := by
  obtain ⟨member, rfl, rfl⟩ := own
  rw [holds.transitions]
  exact ⟨List.mem_map_of_mem member, by simp [HierarchicalTransition.matching,
    hierarchicalTransition]⟩

/-- What the machine finds on its way upward is what the document answers. -/
theorem Holds.answer (holds : Holds document machine) (unique : document.ids.Nodup)
    {result : Option HierarchicalTransition}
    (nearest : ParentChain.Nearest machine.parentOf
      (fun state => machine.transitionFor state event) state result) :
    ∃ answer, document.Answer event state answer ∧
      answer.map hierarchicalTransition = result := by
  have silent_of_none : ∀ {state}, machine.transitionFor state event = none →
      ∀ item, ¬ document.Candidate state event item := by
    intro state absent item own
    obtain ⟨member, fits⟩ := holds.candidate own
    rw [HierarchicalStateMachine.transitionFor_none absent member] at fits
    cases fits
  induction nearest with
  | @here node found own =>
    obtain ⟨listed, source, event_eq⟩ := HierarchicalStateMachine.transitionFor_some own
    rw [holds.transitions, List.mem_map] at listed
    obtain ⟨item, member, rfl⟩ := listed
    refine ⟨some item, .taken ⟨member, source, event_eq⟩ fun other candidate => ?_, rfl⟩
    obtain ⟨other_listed, fits⟩ := holds.candidate candidate
    exact HierarchicalStateMachine.transitionFor_highest own other_listed fits
  | above silent up _ ih =>
    obtain ⟨answer, answered, same⟩ := ih
    exact ⟨answer, .passed (silent_of_none silent) ((holds.parentOf unique).mp up) answered, same⟩
  | top silent ended =>
    refine ⟨none, .ignored (silent_of_none silent) fun parent edge => ?_, rfl⟩
    rw [(holds.parentOf unique).mpr edge] at ended
    cases ended

theorem Holds.step (holds : Holds document machine) (unique : document.ids.Nodup)
    (known : machine.current ∈ document.ids) (event : ByteString) :
    document.Step event machine.current (machine.dispatch event).2.current := by
  obtain ⟨answer, answered, same⟩ :=
    holds.answer unique (machine.chosen_nearest machine.current event)
  refine ⟨answer, answered, ?_⟩
  rcases machine.dispatch_cases event with ⟨empty | silent, ignored⟩ | ⟨item, -, chosen, moved⟩
  · exact absurd empty (holds.ids_named known)
  · rw [silent, Option.map_eq_none_iff] at same
    rw [ignored, same]
    rfl
  · rw [chosen] at same
    obtain ⟨taken, rfl, rfl⟩ := Option.map_eq_some_iff.mp same
    rw [moved]
    rfl

theorem Holds.current_known (holds : Holds document machine) (formed : document.WellFormed)
    (known : machine.current ∈ document.ids) (event : ByteString) :
    (machine.dispatch event).2.current ∈ document.ids := by
  rcases machine.dispatch_cases event with ⟨-, ignored⟩ | ⟨item, -, chosen, moved⟩
  · rwa [ignored]
  · obtain ⟨above, -, taken⟩ := (machine.chosen_nearest machine.current event).reaches chosen
    obtain ⟨listed, -, -⟩ := HierarchicalStateMachine.transitionFor_some taken
    rw [holds.transitions, List.mem_map] at listed
    obtain ⟨transition, member, rfl⟩ := listed
    rw [moved]
    exact formed.targets_known transition member

theorem Holds.run (holds : Holds document machine) (formed : document.WellFormed)
    (known : machine.current ∈ document.ids) (events : List ByteString) :
    document.Run machine.current events (machine.dispatchAll events).current := by
  induction events generalizing machine with
  | nil => exact .nil
  | cons event rest ih =>
    exact .cons (holds.step formed.unique_ids known event)
      (ih (holds.dispatch event) (holds.current_known formed known event))

end Run

/-- Ids and events that the machine accepts, a buffer that the verifier accepts, and a source
hash that the stored positions keep. -/
structure Loadable (dump : JsonDump) (document : HfsmDocument) : Prop where
  ids : ∀ state ∈ document.states, state.id ≠ []
  events : ∀ item ∈ document.transitions, item.event ≠ []
  tables : 1 + 2 * document.states.length + document.transitions.length ≤ verifierMaxTables
  hash : (document.stored.canonicalJson dump).map sourceHash =
    (document.canonicalJson dump).map sourceHash

/-- A compiled document loads and runs as it says if and only if it is loadable. -/
theorem compiled_machine_iff (buffers : ArtifactBuffers) (faithful : buffers.Faithful)
    (dump : JsonDump) (document : HfsmDocument) (bytes : List UInt8)
    (compiled : document.compile buffers dump = some bytes) (nonempty : bytes ≠ []) :
    (∃ machine, loadHfsmArtifact buffers dump bytes = some (.ok machine) ∧
      ∀ events final, document.Run document.initialState events final ↔
        final = (machine.dispatchAll events).current) ↔ Loadable dump document := by
  obtain ⟨accepted, source, dumped, rfl⟩ := document.compile_some compiled nonempty
  obtain ⟨version, formed⟩ := document.validate_valid_iff.mp accepted
  have stored_valid : valid document.stored.validate = true :=
    document.stored.validate_valid_iff.mpr ⟨version, wellFormed_stored formed⟩
  obtain ⟨loaded, loaded_eq, load_eq⟩ := load_finish faithful source version {}
  constructor
  · rintro ⟨machine, ok, -⟩
    rw [loadHfsmArtifact, load_eq] at ok
    obtain ⟨result, returned, built⟩ := Option.map_eq_some_iff.mp ok
    split at returned
    · rename_i few
      obtain ⟨text, text_eq, rfl⟩ := Option.map_eq_some_iff.mp returned
      have same : sourceHash source = sourceHash text := by
        by_contra differ
        simp [differ, valid, addError] at built
      simp only [same, ne_eq, not_true_eq_false, if_false, List.append_nil, stored_valid, if_true,
        loaded_eq] at built
      obtain ⟨holds, -⟩ := loadMachine_ok built
      refine ⟨fun state member => ?_, holds.events, few, ?_⟩
      · exact holds.of_stored.ids_named (List.mem_map_of_mem member)
      · rw [text_eq, dumped, Option.map_some, Option.map_some, same]
    · obtain rfl := Option.some.inj returned
      simp [valid, addError] at built
  · intro loadable
    obtain ⟨text, text_eq, same⟩ : ∃ text, document.stored.canonicalJson dump = some text ∧
        sourceHash text = sourceHash source := by
      have hash := loadable.hash
      rw [dumped, Option.map_some] at hash
      exact Option.map_eq_some_iff.mp hash
    obtain ⟨machine, built⟩ := loadMachine_total (wellFormed_stored formed)
      (fun id known => by
        rw [ids_stored] at known
        obtain ⟨state, member, rfl⟩ := List.mem_map.mp known
        exact loadable.ids state member) loadable.events
    obtain ⟨holds, started⟩ := loadMachine_ok built
    refine ⟨machine, ?_, fun events final => ?_⟩
    · rw [loadHfsmArtifact, load_eq, if_pos loadable.tables, text_eq, Option.map_some,
        Option.map_some, same]
      simp [stored_valid, loaded_eq, built]
    · have run := holds.of_stored.run formed (started ▸ formed.initial_known) events
      rw [started] at run
      constructor
      · exact fun other => other.unique formed.unique_keys run
      · rintro rfl
        exact run

/-- Without a negative zero among the positions the buffer loses nothing. -/
theorem stored_eq {document : HfsmDocument} (positions : ∀ state ∈ document.states,
    state.position.x ≠ Protocol.negativeZero ∧ state.position.y ≠ Protocol.negativeZero) :
    document.stored = document := by
  have kept : document.states.map HfsmStateDocument.stored = document.states := by
    refine (List.map_congr_left fun state member => ?_).trans (List.map_id _)
    obtain ⟨x, y⟩ := positions state member
    simp [HfsmStateDocument.stored, EditorPosition.stored, Protocol.readBack, x, y]
  rw [HfsmDocument.stored, kept]

/-- A transition for the empty event, which the validation lets pass. -/
def unnamedEvent : HfsmDocument where
  machineId := utf8 "agent"
  initialState := utf8 "idle"
  states := [{ id := utf8 "idle", name := utf8 "空闲", parent := [] }]
  transitions := [{ source := utf8 "idle", event := [], target := utf8 "idle" }]

theorem unnamed_event_not_loaded : ¬ ∀ (buffers : ArtifactBuffers) (dump : JsonDump)
    (document : HfsmDocument) (bytes : List UInt8), buffers.Faithful →
      document.compile buffers dump = some bytes → bytes ≠ [] →
        ∃ machine, loadHfsmArtifact buffers dump bytes = some (.ok machine) ∧
          ∀ events final, document.Run document.initialState events final ↔
            final = (machine.dispatchAll events).current := by
  intro claimed
  obtain ⟨bytes, compiled⟩ := Option.isSome_iff_exists.mp
    (by decide +kernel : (unnamedEvent.compile plainBuffers plainDump).isSome = true)
  have nonempty : (unnamedEvent.compile plainBuffers plainDump).map List.isEmpty = some false := by
    decide +kernel
  have refused : (unnamedEvent.compile plainBuffers plainDump).bind (fun bytes =>
      (loadHfsmArtifact plainBuffers plainDump bytes).map Except.isOk) = some false := by
    decide +kernel
  rw [compiled] at nonempty refused
  obtain ⟨machine, loaded, -⟩ := claimed plainBuffers plainDump unnamedEvent bytes
    plainBuffers_faithful compiled (by simpa using nonempty)
  rw [Option.bind_some, loaded] at refused
  cases refused

theorem compiled_machine_sleeper : ∃ machine, loadHfsmArtifact plainBuffers plainDump
      ((sleeperDocument.compile plainBuffers plainDump).getD []) = some (.ok machine) ∧
    sleeperDocument.Run (utf8 "idle") [utf8 "start"] (utf8 "active/running") := by
  obtain ⟨bytes, compiled⟩ := Option.isSome_iff_exists.mp
    (by decide +kernel : (sleeperDocument.compile plainBuffers plainDump).isSome = true)
  have nonempty : (sleeperDocument.compile plainBuffers plainDump).map List.isEmpty =
      some false := by decide +kernel
  have moved : (sleeperDocument.compile plainBuffers plainDump).bind (fun bytes =>
      (loadHfsmArtifact plainBuffers plainDump bytes).bind fun result =>
        result.toOption.map fun machine => (machine.dispatchAll [utf8 "start"]).current) =
      some (utf8 "active/running") := by decide +kernel
  have loadable : Loadable plainDump sleeperDocument :=
    ⟨by decide +kernel, by decide +kernel, by decide +kernel, by decide +kernel⟩
  rw [compiled] at nonempty moved ⊢
  obtain ⟨machine, loaded, runs⟩ := (compiled_machine_iff plainBuffers plainBuffers_faithful
    plainDump sleeperDocument bytes compiled (by simpa using nonempty)).mpr loadable
  refine ⟨machine, loaded, (runs [utf8 "start"] _).mpr ?_⟩
  rw [Option.bind_some, loaded] at moved
  exact (Option.some.inj moved).symm

end GeoWorld.Ai
