import Mathlib
import GeoWorld.Tooling.ArtifactFields
import GeoWorld.Tooling.TreeValidation

/-!
Compiled behaviour trees: when the artifact of a document loads back with the texts of the
document, and when the document of an accepted artifact survives another round.
-/

namespace GeoWorld.Tooling

open WorldModel Library DocumentValidation

def BehaviorNodeDocument.stored (node : BehaviorNodeDocument) : BehaviorNodeDocument :=
  { node with position := node.position.stored }

namespace BehaviorTreeDocument

/-- The document with its positions as FlatBuffers gives them back. -/
def stored (document : BehaviorTreeDocument) : BehaviorTreeDocument :=
  { document with nodes := document.nodes.map BehaviorNodeDocument.stored }

/-- The tables of the artifact. -/
def tables (document : BehaviorTreeDocument) : Nat :=
  1 + (document.nodes.map fun node => 2 + node.parameters.toList.length).sum

def FinitePositions (document : BehaviorTreeDocument) : Prop := ∀ node ∈ document.nodes,
  Binary64.isFinite node.position.x = true ∧ Binary64.isFinite node.position.y = true

def NoNegativeZero (document : BehaviorTreeDocument) : Prop := ∀ node ∈ document.nodes,
  node.position.x ≠ Protocol.negativeZero ∧ node.position.y ≠ Protocol.negativeZero

/-- What the loader makes of the artifact of a document. -/
def loaded (document : BehaviorTreeDocument) (source : ByteString) : CompiledBehaviorArtifact where
  header := ⟨artifactType .behaviorTree, behaviorDocumentSchemaVersion, Tooling.sourceHash source,
    behaviorCompilerVersion⟩
  documentId := document.treeId
  entryId := document.root
  runtimeXml := document.exportBehaviorTreeXml
  behaviorTree := document.stored

/-- The compiled artifact loads without an error, with the same texts. -/
def LoadsBack (buffers : FieldBuffers) (dump : JsonDump) (artifact : CompiledBehaviorArtifact)
    (document : BehaviorTreeDocument) : Prop :=
  ∃ bytes source validation result, document.compile buffers dump = some bytes ∧
    document.canonicalJson dump = some source ∧
    loadArtifact buffers dump bytes .behaviorTree artifact = some (validation, result) ∧
    valid validation = true ∧ result.behaviorTree.canonicalJson dump = some source ∧
    result.runtimeXml = document.exportBehaviorTreeXml ∧
    result.behaviorTree.exportBehaviorTreeXml = document.exportBehaviorTreeXml

/-- The compiled artifact loads to the document itself. -/
def LoadsItself (buffers : FieldBuffers) (dump : JsonDump) (artifact : CompiledBehaviorArtifact)
    (document : BehaviorTreeDocument) : Prop :=
  ∃ bytes validation result, document.compile buffers dump = some bytes ∧
    loadArtifact buffers dump bytes .behaviorTree artifact = some (validation, result) ∧
    valid validation = true ∧ result.behaviorTree = document

section Stored

variable {document : BehaviorTreeDocument}

theorem stored_eq_iff : document.stored = document ↔ document.NoNegativeZero := by
  have node_eq : ∀ node : BehaviorNodeDocument, node.stored = node ↔
      node.position.x ≠ Protocol.negativeZero ∧ node.position.y ≠ Protocol.negativeZero := by
    intro node
    have kept : ∀ bits : UInt64, Protocol.readBack bits = bits ↔ bits ≠ Protocol.negativeZero := by
      intro bits
      unfold Protocol.readBack
      split
      · rename_i minus
        subst minus
        decide
      · rename_i other
        exact iff_of_true rfl other
    obtain ⟨id, type, name, ⟨x, y⟩, children, parameters⟩ := node
    simp [BehaviorNodeDocument.stored, EditorPosition.stored, kept]
  obtain ⟨version, treeId, root, nodes⟩ := document
  rw [stored, BehaviorTreeDocument.mk.injEq, and_iff_right rfl, and_iff_right rfl, and_iff_right rfl]
  constructor
  · intro same node member
    have all : nodes.map BehaviorNodeDocument.stored = nodes.map id := by rw [same, List.map_id]
    exact (node_eq node).mp (List.map_inj_left.mp all node member)
  · intro positive
    exact (List.map_congr_left fun node member => (node_eq node).mpr (positive node member)).trans
      (List.map_id nodes)

theorem readBack_finite {bits : UInt64} (finite : Binary64.isFinite bits = true) :
    Binary64.isFinite (Protocol.readBack bits) = true := by
  unfold Protocol.readBack
  split
  · decide
  · exact finite

theorem json_stored (document : BehaviorTreeDocument) :
    document.stored.json = document.json.mapReal Protocol.readBack := by
  have texts : ∀ items : List ByteString, Json.mapItems Protocol.readBack (items.map .text) =
      items.map .text := fun items => by
    rw [Json.mapItems_eq, List.map_map]
    rfl
  have pairs : ∀ entries : List (ByteString × ByteString),
      Json.mapEntries Protocol.readBack (entries.map fun entry => (entry.1, .text entry.2)) =
        entries.map fun entry => (entry.1, .text entry.2) := fun entries => by
    rw [Json.mapEntries_eq, List.map_map]
    rfl
  simp only [json, stored, Json.mapReal, Json.mapEntries, Json.mapItems_eq, List.map_map]
  refine congrArg (fun nodes => Json.object [(utf8 "nodes", .array nodes), _, _, _]) ?_
  refine List.map_congr_left fun node _ => ?_
  simp only [Function.comp_apply, Json.mapReal, Json.mapEntries, texts, pairs, positionJson,
    BehaviorNodeDocument.stored, EditorPosition.stored]

theorem reals_json (finite : document.FinitePositions) :
    ∀ bits ∈ document.json.reals, Binary64.isFinite bits = true := by
  have pairs : ∀ entries : List (ByteString × ByteString),
      Json.realsEntries (entries.map fun entry => (entry.1, .text entry.2)) = [] := by
    intro entries
    induction entries with
    | nil => rfl
    | cons entry rest ih => rw [List.map_cons, Json.realsEntries, ih]; rfl
  intro bits member
  simp only [json, Json.reals, Json.realsEntries, Json.realsItems_eq, List.append_nil,
    List.flatMap_map, List.mem_flatMap, pairs, positionJson, List.nil_append, List.mem_append,
    List.mem_singleton, List.not_mem_nil, and_false, exists_false, false_or] at member
  obtain ⟨node, listed, rfl | rfl⟩ := member
  · exact (finite node listed).1
  · exact (finite node listed).2

theorem json_stored_eq_iff : document.stored.json = document.json ↔ document.stored = document := by
  refine ⟨fun same => ?_, fun same => by rw [same]⟩
  simp only [json, stored, Json.object.injEq, List.cons.injEq, Prod.mk.injEq, Json.array.injEq,
    List.map_map, true_and, and_true] at same
  have nodes : document.nodes.map BehaviorNodeDocument.stored = document.nodes.map id := by
    refine List.map_congr_left fun node member => ?_
    have entry := List.map_inj_left.mp same node member
    simp only [Function.comp_apply, BehaviorNodeDocument.stored, positionJson, EditorPosition.stored,
      Json.object.injEq, List.cons.injEq, Prod.mk.injEq, Json.real.injEq, true_and, and_true] at entry
    rw [BehaviorNodeDocument.stored, EditorPosition.stored, entry.1, entry.2]
    rfl
  rw [stored, nodes, List.map_id]

/-- The text of the document with finite positions tells whether a coordinate was lost. -/
theorem canonicalJson_stored {texts : JsonTexts} (faithful : texts.Faithful)
    (finite : document.FinitePositions) {source : ByteString}
    (dumped : document.canonicalJson texts.dump = some source)
    (dumped' : document.stored.canonicalJson texts.dump = some source) :
    document.NoNegativeZero := by
  have bounded : ∀ bits ∈ document.json.reals, Binary64.isFinite bits = true ∧
      Binary64.isFinite (Protocol.readBack bits) = true := fun bits member =>
    ⟨reals_json finite bits member, readBack_finite (reals_json finite bits member)⟩
  have ends : Delimited [] := nofun
  rw [canonicalJson, json_stored] at dumped'
  obtain ⟨same, -⟩ := Json.determined faithful document.json bounded source source [] [] dumped
    dumped' ends ends rfl
  exact stored_eq_iff.mp (json_stored_eq_iff.mp ((json_stored document).trans same))

end Stored

section Load

variable {buffers : FieldBuffers} {dump : JsonDump} {document : BehaviorTreeDocument}
variable {artifact result : CompiledBehaviorArtifact} {validation : DocumentValidation}
variable {bytes : List UInt8} {source : ByteString}

theorem emplaceParameters_some (parameters : Std.ExtTreeMap ByteString ByteString compare)
    (entries : List (ByteString × ByteString)) :
    BehaviorNodeFields.emplaceParameters parameters
        (entries.map fun entry => ⟨some entry.1, some entry.2⟩) =
      some (entries.foldl (fun map entry => map.insertIfNew entry.1 entry.2) parameters) := by
  induction entries generalizing parameters with
  | nil => rfl
  | cons entry rest ih => exact ih _

theorem node_fields (node : BehaviorNodeDocument) : node.table.stored.fields.document =
    some node.stored := by
  have parameters : BehaviorNodeFields.emplaceParameters ∅
      (node.parameters.toList.map fun entry => ⟨some entry.1, some entry.2⟩) =
        some node.parameters := by
    rw [emplaceParameters_some, foldl_insertIfNew_toList]
  simp only [BehaviorNodeFields.document, BehaviorNodeTable.fields, BehaviorNodeTable.stored,
    BehaviorNodeDocument.table, Option.bind_eq_bind, Option.bind_some, parameters]
  rfl

theorem artifact_tables (document : BehaviorTreeDocument) (source : ByteString) :
    (document.artifact source).stored.fields.tables = document.tables := by
  rw [BehaviorArtifact.tables_fields]
  simp only [BehaviorArtifact.tables, BehaviorArtifact.stored, artifact, tables, List.map_map,
    List.map_nil, List.length_nil, Nat.mul_zero, Nat.add_zero]
  rfl

/-- What becomes of the buffer of a document of the version. -/
theorem loadArtifact_finish (faithful : buffers.Faithful)
    (version : document.schemaVersion = behaviorDocumentSchemaVersion) (source : ByteString)
    (artifact : CompiledBehaviorArtifact) :
    loadArtifact buffers dump (buffers.finish (document.artifact source)) .behaviorTree artifact =
      if document.tables ≤ verifierMaxTables then
        (document.stored.canonicalJson dump).map fun text =>
          (document.stored.validate .defaults ++ checkRuntimeXml (document.loaded source) ++
            checkSourceHash (document.loaded source) text, document.loaded source)
      else
        some (addError .artifact [] (utf8 "制品不是有效的 GeoWorld 行为制品"), artifact) := by
  have kept : (buffers.finish (document.artifact source)).isEmpty = false := by
    simpa using faithful.nonempty_finish (document.artifact source)
  rw [loadArtifact, FieldBuffers.verify, faithful.getRoot_finish, faithful.identifier_finish,
    faithful.wellFormed_finish, kept, artifact_tables]
  by_cases few : document.tables ≤ verifierMaxTables
  · have nodes : ((document.nodes.map BehaviorNodeDocument.table).map
        BehaviorNodeTable.stored).map BehaviorNodeTable.fields =
          document.nodes.map fun node => node.table.stored.fields := by
      rw [List.map_map, List.map_map]
      rfl
    have read : (document.nodes.map fun node => node.table.stored.fields).mapM
        BehaviorNodeFields.document = some (document.nodes.map BehaviorNodeDocument.stored) :=
      mapM_map_some node_fields document.nodes
    have tree : ((document.artifact source).stored.fields.tree
        { document.loaded source with behaviorTree := ({} : CompiledBehaviorArtifact).behaviorTree }) =
          some document.stored := by
      simp only [ArtifactFields.tree, BehaviorArtifact.fields, BehaviorArtifact.stored,
        BehaviorTreeDocument.artifact, nodes, Option.bind_eq_bind, Option.bind_some, read]
      rw [stored, version]
      rfl
    have opened : (document.artifact source).stored.fields.opened .behaviorTree =
        some { document.loaded source with
               behaviorTree := ({} : CompiledBehaviorArtifact).behaviorTree } := rfl
    have fits : ¬((document.artifact source).stored.fields.formatVersion ≠
          behaviorArtifactFormatVersion ∨
        (document.artifact source).stored.fields.schemaVersion ≠ behaviorDocumentSchemaVersion ∨
        (document.artifact source).stored.fields.compilerVersion ≠ behaviorCompilerVersion ∨
        publicKind (document.artifact source).stored.fields.kind ≠ .behaviorTree) := by
      rintro (other | other | other | other) <;> exact other rfl
    simp only [few, decide_true, if_true, Bool.not_true, Bool.or_self, Bool.false_eq_true, if_false,
      Bool.and_self, if_neg fits, opened, Option.bind_eq_bind, Option.bind_some, tree]
    cases document.stored.canonicalJson dump <;> rfl
  · simp only [few, decide_false, if_false]
    rfl

theorem load_valid (faithful : buffers.Faithful)
    (version : document.schemaVersion = behaviorDocumentSchemaVersion)
    (loads : loadArtifact buffers dump (buffers.finish (document.artifact source)) .behaviorTree
      artifact = some (validation, result)) (accepted : valid validation = true) :
    document.tables ≤ verifierMaxTables ∧ result = document.loaded source := by
  rw [loadArtifact_finish faithful version] at loads
  split at loads
  · rename_i few
    obtain ⟨text, -, same⟩ := Option.map_eq_some_iff.mp loads
    exact ⟨few, (congrArg Prod.snd same).symm⟩
  · obtain rfl := congrArg Prod.fst (Option.some.inj loads)
    cases accepted

/-- A document that loses nothing in its buffer loads again. -/
theorem load_kept (faithful : buffers.Faithful)
    (accepted : valid (document.validate .defaults) = true)
    (dumped : document.canonicalJson dump = some source) (positive : document.NoNegativeZero)
    (few : document.tables ≤ verifierMaxTables) (artifact : CompiledBehaviorArtifact) :
    ∃ validation, loadArtifact buffers dump (buffers.finish (document.artifact source))
        .behaviorTree artifact = some (validation, document.loaded source) ∧
      valid validation = true ∧ (document.loaded source).behaviorTree = document := by
  have stored : document.stored = document := stored_eq_iff.mpr positive
  have xml : checkRuntimeXml (document.loaded source) = [] := by
    rw [checkRuntimeXml, loaded, stored]
    exact if_neg (not_not_intro rfl)
  have hash : checkSourceHash (document.loaded source) source = [] := if_neg (not_not_intro rfl)
  refine ⟨document.validate .defaults, ?_, accepted, stored⟩
  rw [loadArtifact_finish faithful (IsTree.of_valid accepted).1, if_pos few, stored, dumped,
    Option.map_some, xml, hash, List.append_nil, List.append_nil]

theorem emplaceParameters_length {parameters kept : Std.ExtTreeMap ByteString ByteString compare}
    {entries : List ParameterFields}
    (emplaced : BehaviorNodeFields.emplaceParameters parameters entries = some kept) :
    kept.toList.length ≤ parameters.toList.length + entries.length := by
  induction entries generalizing parameters with
  | nil =>
    obtain rfl := Option.some.inj emplaced
    exact le_rfl
  | cons entry rest ih =>
    obtain ⟨key, -, more⟩ := Option.bind_eq_some_iff.mp emplaced
    obtain ⟨value, -, more⟩ := Option.bind_eq_some_iff.mp more
    have grown : (parameters.insertIfNew key value).toList.length ≤ parameters.toList.length + 1 := by
      rw [Std.ExtTreeMap.length_toList, Std.ExtTreeMap.length_toList]
      exact Std.ExtTreeMap.size_insertIfNew_le
    have bound := ih more
    rw [List.length_cons]
    omega

theorem tables_of_document {node : BehaviorNodeFields} {kept : BehaviorNodeDocument}
    (read : node.document = some kept) : 2 + kept.parameters.toList.length ≤ node.tables := by
  obtain ⟨id, -, read⟩ := Option.bind_eq_some_iff.mp read
  obtain ⟨type, -, read⟩ := Option.bind_eq_some_iff.mp read
  obtain ⟨name, -, read⟩ := Option.bind_eq_some_iff.mp read
  obtain ⟨position, placed, read⟩ := Option.bind_eq_some_iff.mp read
  obtain ⟨children, -, read⟩ := Option.bind_eq_some_iff.mp read
  obtain ⟨entries, listed, read⟩ := Option.bind_eq_some_iff.mp read
  obtain ⟨parameters, emplaced, read⟩ := Option.bind_eq_some_iff.mp read
  obtain rfl := Option.some.inj read
  have bound := emplaceParameters_length emplaced
  rw [BehaviorNodeFields.tables, placed, listed]
  simpa using bound

theorem tables_of_documents {nodes : List BehaviorNodeFields} {kept : List BehaviorNodeDocument}
    (read : nodes.mapM BehaviorNodeFields.document = some kept) :
    (kept.map fun node => 2 + node.parameters.toList.length).sum ≤
      (nodes.map BehaviorNodeFields.tables).sum := by
  induction nodes generalizing kept with
  | nil =>
    obtain rfl := Option.some.inj read
    exact le_rfl
  | cons node nodes ih =>
    rw [List.mapM_cons] at read
    obtain ⟨first, read_first, read⟩ := Option.bind_eq_some_iff.mp read
    obtain ⟨others, read_others, made⟩ := Option.bind_eq_some_iff.mp read
    obtain rfl := Option.some.inj made
    exact Nat.add_le_add (tables_of_document read_first) (ih read_others)

theorem tables_of_tree {fields : ArtifactFields} (read : fields.tree artifact = some document) :
    document.tables ≤ fields.tables := by
  obtain ⟨nodes, listed, read⟩ := Option.bind_eq_some_iff.mp read
  obtain ⟨documents, read_nodes, read⟩ := Option.bind_eq_some_iff.mp read
  obtain rfl := Option.some.inj read
  rw [tables, ArtifactFields.tables, listed]
  exact Nat.le_add_right_of_le (Nat.le_add_right_of_le (Nat.add_le_add_left (tables_of_documents read_nodes) 1))

/-- What an accepted buffer tells of the document in it. -/
theorem accepted_tree (loads : loadArtifact buffers dump bytes .behaviorTree artifact =
      some (validation, result)) (accepted : valid validation = true) :
    valid (result.behaviorTree.validate .defaults) = true ∧
      (∃ source, result.behaviorTree.canonicalJson dump = some source) ∧
      result.behaviorTree.tables ≤ verifierMaxTables := by
  unfold loadArtifact at loads
  split at loads
  · obtain rfl := congrArg Prod.fst (Option.some.inj loads)
    cases accepted
  · rename_i known
    simp only at loads
    split at loads
    · obtain rfl := congrArg Prod.fst (Option.some.inj loads)
      cases accepted
    · obtain ⟨opened, -, loads⟩ := Option.bind_eq_some_iff.mp loads
      rw [if_pos trivial] at loads
      obtain ⟨document, read, loads⟩ := Option.bind_eq_some_iff.mp loads
      obtain ⟨text, dumped, loads⟩ := Option.bind_eq_some_iff.mp loads
      obtain ⟨rfl, rfl⟩ := Prod.ext_iff.mp (Option.some.inj loads)
      have few : (buffers.getRoot bytes).tables ≤ verifierMaxTables := by
        simp only [FieldBuffers.verify, Bool.not_eq_true, Bool.or_eq_false_iff, Bool.not_eq_false',
          Bool.and_eq_true, decide_eq_true_eq] at known
        exact known.2.2
      exact ⟨(valid_append.mp (valid_append.mp accepted).1).1, ⟨text, dumped⟩,
        (tables_of_tree read).trans few⟩

theorem noNegativeZero_of_loadsBack {texts : JsonTexts} (faithful : buffers.Faithful)
    (faithful_texts : texts.Faithful) (accepted : valid (document.validate .defaults) = true)
    (finite : document.FinitePositions)
    (back : document.LoadsBack buffers texts.dump artifact) :
    document.NoNegativeZero ∧ (document.canonicalJson texts.dump).isSome = true ∧
      document.tables ≤ verifierMaxTables := by
  obtain ⟨bytes, source, validation, result, compiled, dumped, loads, fine, same, -, -⟩ := back
  rw [compile, if_pos accepted, dumped, Option.map_some, Option.some.injEq] at compiled
  subst compiled
  obtain ⟨few, rfl⟩ := load_valid faithful (IsTree.of_valid accepted).1 loads fine
  exact ⟨canonicalJson_stored faithful_texts finite dumped same,
    Option.isSome_iff_exists.mpr ⟨source, dumped⟩, few⟩

/-- A valid document with finite positions loads back if and only if no coordinate is a negative
zero, its strings are texts and the verifier lets its tables pass. The document of an accepted
artifact comes back from one more round if and only if it has no negative zero. -/
theorem behavior_tree_loads_back_iff (buffers : FieldBuffers) (faithful : buffers.Faithful)
    (texts : JsonTexts) (faithful_texts : texts.Faithful) (artifact : CompiledBehaviorArtifact) :
    (∀ document : BehaviorTreeDocument, valid (document.validate .defaults) = true →
      document.FinitePositions → (document.LoadsBack buffers texts.dump artifact ↔
        document.NoNegativeZero ∧ (document.canonicalJson texts.dump).isSome = true ∧
          document.tables ≤ verifierMaxTables)) ∧
      ∀ bytes validation result, loadArtifact buffers texts.dump bytes .behaviorTree artifact =
          some (validation, result) → valid validation = true →
        (result.behaviorTree.LoadsItself buffers texts.dump artifact ↔
          result.behaviorTree.NoNegativeZero) := by
  constructor
  · intro document accepted finite
    constructor
    · exact noNegativeZero_of_loadsBack faithful faithful_texts accepted finite
    · rintro ⟨positive, encoded, few⟩
      obtain ⟨source, dumped⟩ := Option.isSome_iff_exists.mp encoded
      obtain ⟨validation, loads, fine, same⟩ :=
        load_kept faithful accepted dumped positive few artifact
      have again : (document.loaded source).behaviorTree.canonicalJson texts.dump = some source := by
        rw [same, dumped]
      refine ⟨_, source, validation, _, ?_, dumped, loads, fine, again, rfl, by rw [same]⟩
      rw [compile, if_pos accepted, dumped, Option.map_some]
  · intro bytes validation result loads fine
    obtain ⟨accepted, ⟨source, dumped⟩, few⟩ := accepted_tree loads fine
    constructor
    · rintro ⟨bytes', validation', result', compiled, again, fine', same⟩
      rw [compile, if_pos accepted, dumped, Option.map_some, Option.some.injEq] at compiled
      subst compiled
      obtain ⟨-, rfl⟩ := load_valid faithful (IsTree.of_valid accepted).1 again fine'
      exact stored_eq_iff.mp same
    · intro positive
      obtain ⟨validation', again, fine', same⟩ :=
        load_kept faithful accepted dumped positive few artifact
      refine ⟨_, validation', _, ?_, again, fine', same⟩
      rw [compile, if_pos accepted, dumped, Option.map_some]

end Load

section Leaves

/-- Buffers with all fields, and texts with nothing to escape and zeros for positions. -/
def plainFields : FieldBuffers := .ofTables plainBuffers

theorem plainFields_faithful : plainFields.Faithful :=
  FieldBuffers.ofTables_faithful plainBuffers_faithful

def plainTexts : JsonTexts where
  quoted value := some (quoted value)
  real bits :=
    if bits = 0 then utf8 "0.0" else if bits = Protocol.negativeZero then utf8 "-0.0"
    else List.replicate bits.toNat 49

theorem plainTexts_faithful : plainTexts.Faithful where
  injective left right _ _ same := by
    have zeros : utf8 "0.0" = [48, 46, 48] ∧ utf8 "-0.0" = [45, 48, 46, 48] := by decide +kernel
    have ones : ∀ count head tail, head ≠ (49 : UInt8) →
        List.replicate count (49 : UInt8) ≠ head :: tail := by
      rintro count head tail other equal
      exact other (List.eq_of_mem_replicate (equal ▸ List.mem_cons_self))
    simp only [plainTexts, zeros] at same
    split_ifs at same
    · rename_i zero zero'
      rw [zero, zero']
    · cases same
    · exact absurd same.symm (ones _ _ _ (by decide))
    · cases same
    · rename_i _ minus _ minus'
      rw [minus, minus']
    · exact absurd same.symm (ones _ _ _ (by decide))
    · exact absurd same (ones _ _ _ (by decide))
    · exact absurd same (ones _ _ _ (by decide))
    · have counts := congrArg List.length same
      rw [List.length_replicate, List.length_replicate] at counts
      exact UInt64.toNat_inj.mp counts
  number bits _ character member := by
    unfold plainTexts at member
    simp only at member
    split_ifs at member
    · exact (by decide +kernel : ∀ c ∈ utf8 "0.0", c ∈ numberCharacters) character member
    · exact (by decide +kernel : ∀ c ∈ utf8 "-0.0", c ∈ numberCharacters) character member
    · obtain rfl := List.eq_of_mem_replicate member
      decide +kernel

theorem behavior_tree_loads_back_invertedLeaf :
    invertedLeaf.LoadsBack plainFields plainTexts.dump {} ∧
      invertedLeaf.LoadsItself plainFields plainTexts.dump {} := by
  have accepted : valid (invertedLeaf.validate .defaults) = true := by decide +kernel
  have positive : invertedLeaf.NoNegativeZero := by unfold NoNegativeZero; decide +kernel
  have finite : invertedLeaf.FinitePositions := by unfold FinitePositions; decide +kernel
  have encoded : (invertedLeaf.canonicalJson plainTexts.dump).isSome = true := by decide +kernel
  have few : invertedLeaf.tables ≤ verifierMaxTables := by decide +kernel
  obtain ⟨source, dumped⟩ := Option.isSome_iff_exists.mp encoded
  obtain ⟨back, again⟩ := behavior_tree_loads_back_iff plainFields plainFields_faithful plainTexts
    plainTexts_faithful {}
  obtain ⟨validation, loads, fine, same⟩ :=
    load_kept plainFields_faithful accepted dumped positive few {}
  refine ⟨(back invertedLeaf accepted finite).mpr ⟨positive, encoded, few⟩, ?_⟩
  have itself := again _ validation _ loads fine
  rw [same] at itself
  exact itself.mpr positive

/-- A leaf just left of the origin of the canvas. -/
def leftLeaf : BehaviorTreeDocument where
  treeId := utf8 "tree"
  root := utf8 "leaf"
  nodes := [{ id := utf8 "leaf", type := utf8 "AlwaysSuccess", name := utf8 "leaf",
              position := { x := Protocol.negativeZero } }]

theorem negative_zero_not_loaded : ¬ ∀ (buffers : FieldBuffers) (texts : JsonTexts)
    (artifact : CompiledBehaviorArtifact) (document : BehaviorTreeDocument), buffers.Faithful →
      texts.Faithful → valid (document.validate .defaults) = true → document.FinitePositions →
        document.LoadsBack buffers texts.dump artifact := by
  intro claimed
  have accepted : valid (leftLeaf.validate .defaults) = true := by decide +kernel
  have finite : leftLeaf.FinitePositions := by unfold FinitePositions; decide +kernel
  obtain ⟨positive, -⟩ := noNegativeZero_of_loadsBack plainFields_faithful plainTexts_faithful
    accepted finite (claimed plainFields plainTexts {} leftLeaf plainFields_faithful
      plainTexts_faithful accepted finite)
  exact (positive _ List.mem_cons_self).1 rfl

end Leaves

end BehaviorTreeDocument

end GeoWorld.Tooling
