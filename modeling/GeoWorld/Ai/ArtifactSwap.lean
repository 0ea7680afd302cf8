import Mathlib
import GeoWorld.Ai.CompiledMachine
import GeoWorld.Tooling.TreeArtifact

/-!
Exchange of a running behaviour for that of an artifact, and which failed loads leave the running
behaviour as it is.
-/

namespace GeoWorld.Ai

open WorldModel Tooling DocumentValidation

/-- A runtime whose tree the factory made or refused, or one that was moved from. -/
inductive BehaviorTreeRuntime (Tree : Type) where
  | running (tree : Tree)
  | rejected
  | moved

namespace BehaviorTreeRuntime

variable {Tree : Type}

def valid : BehaviorTreeRuntime Tree → Bool
  | running _ => true
  | rejected => false
  | moved => false

/-- The constructor; `factory` is `createTreeFromText`, `none` where it throws. -/
def ofXml (factory : ByteString → Option Tree) (xml : ByteString) : BehaviorTreeRuntime Tree :=
  match factory xml with
  | some tree => running tree
  | none => rejected

end BehaviorTreeRuntime

structure ArtifactLoadResult where
  valid : Bool
  message : ByteString := []

/-- The message of the first diagnostic. -/
def failureMessage (validation : DocumentValidation) (fallback : ByteString) : ByteString :=
  if validation.isEmpty then fallback
  else (validation.head?.map DocumentDiagnostic.message).getD []

section Load

variable {Tree : Type} (buffers : FieldBuffers) (dump : JsonDump) (bytes : List UInt8)

/-- The result and the runtime afterwards; `none` when an exception leaves the call. -/
def loadBehaviorTreeArtifact (factory : ByteString → Option Tree)
    (runtime : Option (BehaviorTreeRuntime Tree)) :
    Option (ArtifactLoadResult × Option (BehaviorTreeRuntime Tree)) :=
  (loadArtifact buffers dump bytes .behaviorTree {}).map fun loaded =>
    if valid loaded.1 then
      let emplaced := BehaviorTreeRuntime.ofXml factory loaded.2.runtimeXml
      (if emplaced.valid then ⟨true, []⟩
        else ⟨false, utf8 "BehaviorTree.CPP 拒绝加载制品 XML"⟩, some emplaced)
    else
      (⟨false, failureMessage loaded.1 (utf8 "行为树制品校验失败")⟩, runtime)

/-- `load_hfsm_artifact` with the runtime it is given. -/
def swapHfsmArtifact (runtime : HierarchicalStateMachine) :
    Option (ArtifactLoadResult × HierarchicalStateMachine) :=
  (loadArtifact buffers dump bytes .stateMachine {}).map fun loaded =>
    if valid loaded.1 then
      match loadMachine loaded.2.hfsm with
      | .ok machine => (⟨true, []⟩, machine)
      | .error message => (⟨false, message⟩, runtime)
    else
      (⟨false, failureMessage loaded.1 (utf8 "HFSM 制品校验失败")⟩, runtime)

/-- Over complete tables the machine is the one that the artifact makes. -/
theorem swapHfsmArtifact_ofTables (buffers : ArtifactBuffers) (runtime : HierarchicalStateMachine) :
    swapHfsmArtifact (.ofTables buffers) dump bytes runtime =
      (loadHfsmArtifact buffers dump bytes).map fun result =>
        match result with
        | .ok machine => (⟨true, []⟩, machine)
        | .error message => (⟨false, message⟩, runtime) := by
  rw [swapHfsmArtifact, loadHfsmArtifact, loadArtifact_stateMachine, Option.map_map]
  refine congrArg (fun change => Option.map change _) (funext fun loaded => ?_)
  rw [Function.comp_apply]
  split <;> rfl

/-- A reported failure leaves the runtime as it was. -/
def KeepsRuntime {Runtime : Type} (outcome : Option (ArtifactLoadResult × Runtime))
    (runtime : Runtime) : Prop :=
  ∀ result after, outcome = some (result, after) → result.valid = false → after = runtime

/-- A valid artifact whose XML the factory refuses. -/
def Refused (factory : ByteString → Option Tree) : Prop :=
  ∃ validation artifact, loadArtifact buffers dump bytes .behaviorTree {} =
    some (validation, artifact) ∧ valid validation = true ∧ factory artifact.runtimeXml = none

variable {buffers dump bytes}

theorem swapHfsmArtifact_keeps (runtime : HierarchicalStateMachine) :
    KeepsRuntime (swapHfsmArtifact buffers dump bytes runtime) runtime := by
  intro result after outcome failed
  obtain ⟨loaded, -, returned⟩ := Option.map_eq_some_iff.mp outcome
  split at returned
  · split at returned
    · obtain rfl := congrArg Prod.fst returned
      cases failed
    · exact (congrArg Prod.snd returned).symm
  · exact (congrArg Prod.snd returned).symm

theorem keeps_of_not_refused {factory : ByteString → Option Tree}
    {runtime : Option (BehaviorTreeRuntime Tree)} (accepted : ¬ Refused buffers dump bytes factory) :
    KeepsRuntime (loadBehaviorTreeArtifact buffers dump bytes factory runtime) runtime := by
  intro result after outcome failed
  obtain ⟨loaded, loads, returned⟩ := Option.map_eq_some_iff.mp outcome
  split at returned
  · rename_i fine
    cases made : factory loaded.2.runtimeXml with
    | none => exact absurd ⟨loaded.1, loaded.2, loads, fine, made⟩ accepted
    | some tree =>
      rw [BehaviorTreeRuntime.ofXml, made] at returned
      obtain rfl := congrArg Prod.fst returned
      cases failed
  · exact (congrArg Prod.snd returned).symm

/-- After a refused artifact the runtime holds the refused tree. -/
theorem load_refused {factory : ByteString → Option Tree}
    (refused : Refused buffers dump bytes factory) (runtime : Option (BehaviorTreeRuntime Tree)) :
    loadBehaviorTreeArtifact buffers dump bytes factory runtime =
      some (⟨false, utf8 "BehaviorTree.CPP 拒绝加载制品 XML"⟩, some .rejected) := by
  obtain ⟨validation, artifact, loads, fine, made⟩ := refused
  rw [loadBehaviorTreeArtifact, loads, Option.map_some, if_pos fine, BehaviorTreeRuntime.ofXml, made]
  rfl

/-- A failed load of a state machine keeps the machine. A failed load of a behaviour tree keeps the
runtime unless the artifact is valid and the factory refuses its XML. -/
theorem failed_load_keeps_iff (buffers : FieldBuffers) (dump : JsonDump) (bytes : List UInt8)
    (factory : ByteString → Option Tree) (runtime : Option (BehaviorTreeRuntime Tree))
    (machine : HierarchicalStateMachine) :
    KeepsRuntime (swapHfsmArtifact buffers dump bytes machine) machine ∧
      (KeepsRuntime (loadBehaviorTreeArtifact buffers dump bytes factory runtime) runtime ↔
        ¬ Refused buffers dump bytes factory ∨ runtime = some .rejected) := by
  refine ⟨swapHfsmArtifact_keeps machine, fun keeps => ?_, ?_⟩
  · by_cases refused : Refused buffers dump bytes factory
    · exact .inr (keeps _ _ (load_refused refused runtime) rfl).symm
    · exact .inl refused
  · rintro (accepted | rfl)
    · exact keeps_of_not_refused accepted
    · by_cases refused : Refused buffers dump bytes factory
      · intro result after outcome _
        rw [load_refused refused] at outcome
        exact (congrArg Prod.snd (Option.some.inj outcome)).symm
      · exact keeps_of_not_refused refused

/-- A factory that refuses the XML ends a running tree. -/
theorem refused_tree_replaces : ¬ ∀ (buffers : FieldBuffers) (dump : JsonDump) (bytes : List UInt8)
    (factory : ByteString → Option Unit) (runtime : Option (BehaviorTreeRuntime Unit)),
      KeepsRuntime (loadBehaviorTreeArtifact buffers dump bytes factory runtime) runtime := by
  intro keeps
  have accepted : valid (BehaviorTreeDocument.invertedLeaf.validate .defaults) = true := by
    decide +kernel
  obtain ⟨source, dumped⟩ := Option.isSome_iff_exists.mp
    (by decide +kernel : (BehaviorTreeDocument.invertedLeaf.canonicalJson plainDump).isSome = true)
  obtain ⟨validation, loads, fine, -⟩ := BehaviorTreeDocument.load_kept
    BehaviorTreeDocument.plainFields_faithful accepted dumped
      (by unfold BehaviorTreeDocument.NoNegativeZero; decide +kernel) (by decide +kernel) {}
  have refused : Refused BehaviorTreeDocument.plainFields plainDump
      (BehaviorTreeDocument.plainFields.finish
        (BehaviorTreeDocument.invertedLeaf.artifact source)) fun _ => (none : Option Unit) :=
    ⟨validation, _, loads, fine, rfl⟩
  have replaced := keeps _ _ _ _ (some (.running ())) _ _ (load_refused refused _) rfl
  cases replaced

end Load

end GeoWorld.Ai
