import Mathlib
import GeoWorld.Tooling.BehaviorXml

/-!
What an XML reader finds in an exported behaviour tree. The text says what the document says
exactly if the strings of the nodes that the root reaches can stand in XML as they are.
-/

namespace GeoWorld.Tooling

open WorldModel Library DocumentValidation

/-- Bytes of a name that an element or an attribute may have. -/
def XmlName (name : ByteString) : Prop :=
  ∃ text, name = Utf8.bytes text ∧ Xml.isName text = true

/-- Bytes of characters that may stand in a document. -/
def XmlText (value : ByteString) : Prop :=
  ∃ text, value = Utf8.bytes text ∧ text.all Xml.isChar = true

/-- Bytes of a value that an attribute keeps: without tabs and line breaks. -/
def XmlValue (value : ByteString) : Prop :=
  ∃ text, value = Utf8.bytes text ∧ text.all Xml.isChar = true ∧ Xml.kept text = true

/-- The strings of the node can stand in its element, and no parameter is called `name`. -/
structure BehaviorNodeDocument.Printable (node : BehaviorNodeDocument) : Prop where
  type : XmlName node.type
  name : XmlValue node.name
  parameters : ∀ entry ∈ node.parameters.toList,
    XmlName entry.1 ∧ entry.1 ≠ utf8 "name" ∧ XmlValue entry.2

namespace BehaviorTreeDocument

structure Printable (document : BehaviorTreeDocument) : Prop where
  treeId : XmlText document.treeId
  nodes : ∀ node ∈ document.nodes, document.ChildPath document.root node.id → node.Printable

/-- The text is well-formed and holds, inside its two outer elements, the tree of the document: an
element for every node that the root reaches, with its type as tag, its name and its parameters as
attributes, and the elements of its children in their order. -/
def Tells (document : BehaviorTreeDocument) (text : ByteString) : Prop :=
  ∃ (characters : List Char) (outer inner : Xml.Label) (element : Xml.Element)
    (tree : RoseTree BehaviorNodeDocument), text = Utf8.bytes characters ∧
      Xml.read characters = some (.node outer [.node inner [element]]) ∧
      document.Unfolds tree ∧ tree.label.id = document.root ∧ (treeIds tree).Nodup ∧
      (∀ id, id ∈ treeIds tree ↔ document.ChildPath document.root id) ∧
      element.map encodeLabel = tree.map nodeLabel

section Labels

variable {node : BehaviorNodeDocument}

/-- The label can be written and is read back as it is. -/
structure Fit (label : Xml.Label) : Prop where
  legal : label.Legal
  allowed : label.Allowed
  kept : ∀ pair ∈ label.attributes, Xml.kept pair.2 = true

theorem Fit.normal {label : Xml.Label} (fit : Fit label) : label.normal = label := by
  have same : label.attributes.map (fun pair => (pair.1, Xml.normal pair.2)) = label.attributes := by
    refine (List.map_congr_left fun pair member => ?_).trans (List.map_id _)
    rw [(Xml.normal_eq_iff pair.2).mpr (fit.kept pair member)]
    rfl
  rw [Xml.Label.normal, same]

theorem kept_of_normal {label : Xml.Label} (same : label.normal = label) :
    ∀ pair ∈ label.attributes, Xml.kept pair.2 = true := by
  have mapped := congrArg Xml.Label.attributes same
  rw [Xml.Label.normal] at mapped
  intro pair member
  have fixed := List.map_inj_left.mp (mapped.trans (List.map_id _).symm) pair member
  exact (Xml.normal_eq_iff pair.2).mp (congrArg Prod.snd fixed)

theorem keys_nodup (node : BehaviorNodeDocument) : (node.parameters.toList.map Prod.fst).Nodup := by
  rw [List.Nodup, List.pairwise_map]
  refine Std.ExtTreeMap.distinct_keys_toList.imp fun apart same => ?_
  exact apart (Std.LawfulEqCmp.compare_eq_iff_eq.mpr same)

theorem name_isName : Xml.isName "name".toList = true := by decide

/-- A node is printable if and only if it has a fitting label. -/
theorem printable_iff : node.Printable ↔ ∃ label, encodeLabel label = nodeLabel node ∧ Fit label := by
  constructor
  · rintro ⟨⟨type, type_eq, type_name⟩, ⟨name, name_eq, name_allowed, name_kept⟩, parameters⟩
    obtain ⟨pairs, pairs_eq, fit⟩ := @exists_map_of_forall (List Char × List Char) _
      (fun pair => (Utf8.bytes pair.1, Utf8.bytes pair.2))
      (fun pair => Xml.isName pair.1 = true ∧ pair.1 ≠ "name".toList ∧
        pair.2.all Xml.isChar = true ∧ Xml.kept pair.2 = true) node.parameters.toList
      fun entry member => by
        obtain ⟨⟨key, key_eq, key_name⟩, other, value, value_eq, value_allowed, value_kept⟩ :=
          parameters entry member
        refine ⟨(key, value), ⟨key_name, fun same => other ?_, value_allowed, value_kept⟩,
          Prod.ext key_eq.symm value_eq.symm⟩
        rw [key_eq, show key = "name".toList from same, utf8_eq]
    have keys : ((("name".toList, name) :: pairs).map Prod.fst).Nodup := by
      rw [List.map_cons, List.nodup_cons]
      refine ⟨fun member => ?_, ?_⟩
      · obtain ⟨pair, listed, same⟩ := List.mem_map.mp member
        exact (fit pair listed).2.1 same
      · have distinct := keys_nodup node
        rw [pairs_eq, List.map_map] at distinct
        exact List.Nodup.of_map Utf8.bytes (by rwa [List.map_map])
    refine ⟨⟨type, ("name".toList, name) :: pairs⟩, ?_, ⟨type_name, ?_, keys⟩,
      ⟨Xml.isName_allowed type_name, ?_⟩, ?_⟩
    · rw [encodeLabel, nodeLabel, List.map_cons, ← pairs_eq, ← type_eq, ← name_eq, utf8_eq]
    · exact List.forall_mem_cons.mpr ⟨name_isName, fun pair member => (fit pair member).1⟩
    · exact List.forall_mem_cons.mpr ⟨⟨Xml.isName_allowed name_isName, name_allowed⟩,
        fun pair member =>
        ⟨Xml.isName_allowed (fit pair member).1, (fit pair member).2.2.1⟩⟩
    · exact List.forall_mem_cons.mpr ⟨name_kept, fun pair member => (fit pair member).2.2.2⟩
  · rintro ⟨⟨type, attributes⟩, same, legal, allowed, kept⟩
    obtain ⟨type_eq, attributes_eq⟩ := Prod.ext_iff.mp same
    simp only [encodeLabel, nodeLabel] at type_eq attributes_eq
    cases attributes with
    | nil => cases attributes_eq
    | cons first pairs =>
      rw [List.map_cons, List.cons.injEq, Prod.mk.injEq] at attributes_eq
      obtain ⟨⟨first_name, first_value⟩, rest⟩ := attributes_eq
      rw [utf8_eq] at first_name
      have named := Utf8.bytes_injective first_name
      have names := List.forall_mem_cons.mp legal.names
      have values := List.forall_mem_cons.mp allowed.attributes
      have keeps := List.forall_mem_cons.mp kept
      have distinct := legal.distinct
      rw [List.map_cons, List.nodup_cons, named] at distinct
      refine ⟨⟨type, type_eq.symm, legal.tag⟩,
        ⟨first.2, first_value.symm, values.1.2, keeps.1⟩, fun entry member => ?_⟩
      rw [← rest] at member
      obtain ⟨pair, listed, rfl⟩ := List.mem_map.mp member
      refine ⟨⟨pair.1, rfl, names.2 pair listed⟩, fun again => ?_,
        ⟨pair.2, rfl, (values.2 pair listed).2, keeps.2 pair listed⟩⟩
      rw [utf8_eq] at again
      exact distinct.1 (List.mem_map.mpr ⟨pair, listed, Utf8.bytes_injective again⟩)

end Labels

section Document

variable {document : BehaviorTreeDocument} {treeId : List Char} {element : Xml.Element}
  {tree : RoseTree BehaviorNodeDocument}

/-- The two outer elements. -/
def documentElement (treeId : List Char) (element : Xml.Element) : Xml.Element :=
  .node ⟨"root".toList, [("BTCPP_format".toList, ['4']),
      ("main_tree_to_execute".toList, treeId)]⟩
    [.node ⟨"BehaviorTree".toList, [("ID".toList, treeId)]⟩ [element]]

theorem print_documentElement (treeId : List Char) (element : Xml.Element) :
    Xml.print 0 (documentElement treeId element) =
      "<root BTCPP_format=\"4\" main_tree_to_execute=\"".toList ++ Xml.escape treeId ++
        "\">\n  <BehaviorTree ID=\"".toList ++ Xml.escape treeId ++ "\">\n".toList ++
          Xml.print 2 element ++ "  </BehaviorTree>\n</root>\n".toList := by
  have four : Xml.escape ['4'] = ['4'] := by decide
  simp [documentElement, Xml.print, Xml.printInside, Xml.printAttribute, Xml.indent, four, Xml.quote]

theorem export_print (named : document.treeId = Utf8.bytes treeId)
    (printed : document.behaviorXmlNode (document.nodes.length + 1) [] 2 document.root =
      Utf8.bytes (Xml.print 2 element)) :
    document.exportBehaviorTreeXml = Utf8.bytes (Xml.print 0 (documentElement treeId element)) := by
  rw [exportBehaviorTreeXml, printed, named, escapeXml_bytes, print_documentElement]
  simp only [utf8_eq, Utf8.bytes_append]

theorem root_print (is_tree : document.IsTree) (unfolds : document.Unfolds tree)
    (top : tree.label.id = document.root)
    (same : element.map encodeLabel = tree.map nodeLabel) :
    document.behaviorXmlNode (document.nodes.length + 1) [] 2 document.root =
      Utf8.bytes (Xml.print 2 element) := by
  rw [← top]
  refine behaviorXmlNode_print unfolds is_tree (top ▸ .refl) same nofun List.nodup_nil
    (List.nil_subset _) ?_
  rw [List.length_nil]
  omega

theorem labels_documentElement : (documentElement treeId element).labels =
    ⟨"root".toList, [("BTCPP_format".toList, ['4']), ("main_tree_to_execute".toList, treeId)]⟩ ::
      ⟨"BehaviorTree".toList, [("ID".toList, treeId)]⟩ :: element.labels := by
  simp [documentElement, RoseTree.labels]

theorem outer_names : Xml.isName "root".toList = true ∧ Xml.isName "BTCPP_format".toList = true ∧
    Xml.isName "main_tree_to_execute".toList = true ∧ Xml.isName "BehaviorTree".toList = true ∧
    Xml.isName "ID".toList = true := by
  decide

theorem legal_documentElement (legal : ∀ label ∈ element.labels, label.Legal) :
    ∀ label ∈ (documentElement treeId element).labels, label.Legal := by
  rw [labels_documentElement, List.forall_mem_cons, List.forall_mem_cons]
  obtain ⟨root, format, main, inner, id⟩ := outer_names
  have apart : ["BTCPP_format".toList, "main_tree_to_execute".toList].Nodup := by decide
  refine ⟨⟨root, ?_, apart⟩, ⟨inner, ?_, List.nodup_singleton _⟩, legal⟩
  · exact List.forall_mem_cons.mpr ⟨format, List.forall_mem_cons.mpr ⟨main, nofun⟩⟩
  · exact List.forall_mem_cons.mpr ⟨id, nofun⟩

theorem allowed_documentElement :
    (Xml.print 0 (documentElement treeId element)).all Xml.isChar = true ↔
      treeId.all Xml.isChar = true ∧ ∀ label ∈ element.labels, label.Allowed := by
  have marks : Xml.isChar '<' = true ∧ Xml.isChar '\n' = true := by decide
  rw [Xml.print, List.all_append, List.all_cons, List.all_append, Xml.all_isChar_indent, marks.1]
  simp only [List.all_cons, List.all_nil, marks.2, Bool.and_true, Bool.true_and]
  rw [Xml.all_isChar_printInside, labels_documentElement, List.forall_mem_cons,
    List.forall_mem_cons]
  constructor
  · rintro ⟨outer, -, rest⟩
    exact ⟨(outer.attributes ("main_tree_to_execute".toList, treeId) (by simp)).2, rest⟩
  · rintro ⟨id_allowed, rest⟩
    obtain ⟨root, format, main, inner, id⟩ := outer_names
    refine ⟨⟨Xml.isName_allowed root, ?_⟩, ⟨Xml.isName_allowed inner, ?_⟩, rest⟩
    · exact List.forall_mem_cons.mpr ⟨⟨Xml.isName_allowed format, rfl⟩,
        List.forall_mem_cons.mpr ⟨⟨Xml.isName_allowed main, id_allowed⟩,
          fun _ member => absurd member List.not_mem_nil⟩⟩
    · exact List.forall_mem_cons.mpr ⟨⟨Xml.isName_allowed id, id_allowed⟩,
        fun _ member => absurd member List.not_mem_nil⟩

/-- A text that is one in UTF-8 has an id that is. -/
theorem treeId_valid (valid : Utf8.Valid document.exportBehaviorTreeXml) :
    Utf8.Valid document.treeId := by
  have quoted : document.exportBehaviorTreeXml =
      (utf8 "<root BTCPP_format=\"4\" main_tree_to_execute=\"" ++ escapeXml document.treeId) ++
        34 :: (utf8 ">\n  <BehaviorTree ID=\"" ++ escapeXml document.treeId ++ utf8 "\">\n" ++
          document.behaviorXmlNode (document.nodes.length + 1) [] 2 document.root ++
          utf8 "  </BehaviorTree>\n</root>\n") := by
    rw [exportBehaviorTreeXml, utf8_eq "\">\n  <BehaviorTree ID=\"", utf8_eq ">\n  <BehaviorTree ID=\""]
    simp only [List.append_assoc]
    rfl
  rw [quoted, Utf8.valid_append_ascii (by decide)] at valid
  have ascii : ∀ mark ∈ utf8 "<root BTCPP_format=\"4\" main_tree_to_execute=\"", mark.toNat < 128 := by
    decide +kernel
  exact valid_of_escapeXml ((Utf8.valid_append_plain ascii).mp valid.1)

section Meaning

variable (is_tree : document.IsTree)
include is_tree

/-- A node that stands in the tree is the node of its id in the document. -/
theorem mem_labels (unfolds : document.Unfolds tree) {node : BehaviorNodeDocument}
    (member : node ∈ document.nodes) (listed : node.id ∈ treeIds tree) : node ∈ tree.labels := by
  obtain ⟨other, inside, same⟩ := List.mem_map.mp listed
  have found := unfolds.labels_found other inside
  have equal : other = node :=
    List.inj_on_of_nodup_map is_tree.unique_ids (findNode_id found).2 member same
  exact equal ▸ inside

/-- A text that says what the document says has strings that can stand in it. -/
theorem printable_of_tells (tells : document.Tells document.exportBehaviorTreeXml) :
    document.Printable := by
  obtain ⟨characters, outer, inner, element, tree, encoded, read, unfolds, top, -, reaches, same⟩ :=
    tells
  obtain ⟨allowed, legal⟩ := Xml.read_some read
  have element_legal : ∀ label ∈ element.labels, label.Legal := fun label member =>
    legal label (by simp [RoseTree.labels, member])
  obtain ⟨treeId, named⟩ := treeId_valid ⟨characters, encoded⟩
  have text_eq := export_print named (root_print is_tree unfolds top same)
  obtain rfl := Utf8.bytes_injective (encoded.symm.trans text_eq)
  have legal : ∀ label ∈ (documentElement treeId element).labels, label.Legal :=
    legal_documentElement element_legal
  have completed := Xml.read_print legal allowed
  have normal : element.map Xml.Label.normal = element := by
    rw [read, documentElement, RoseTree.map, List.map_singleton, RoseTree.map,
      List.map_singleton] at completed
    simp only [Option.some.injEq, RoseTree.node.injEq, List.cons.injEq, and_true] at completed
    exact completed.2.2.symm
  obtain ⟨id_allowed, labels_allowed⟩ := allowed_documentElement.mp allowed
  refine ⟨⟨treeId, named, id_allowed⟩, fun node member reached => printable_iff.mpr ?_⟩
  have inside := mem_labels is_tree unfolds member ((reaches node.id).mpr reached)
  have labels : element.labels.map encodeLabel = tree.labels.map nodeLabel := by
    rw [← RoseTree.labels_map, ← RoseTree.labels_map, same]
  obtain ⟨label, listed, encoded⟩ :=
    List.mem_map.mp (labels ▸ List.mem_map_of_mem inside : nodeLabel node ∈ element.labels.map _)
  exact ⟨label, encoded, element_legal label listed, labels_allowed label listed,
    kept_of_normal (RoseTree.label_eq_of_map normal label listed)⟩

theorem tells_of_printable (printable : document.Printable) :
    document.Tells document.exportBehaviorTreeXml := by
  obtain ⟨root, root_member, root_named⟩ := is_tree.root_exists
  obtain ⟨tree, unfolds, top⟩ := is_tree.unfolds .refl (List.mem_map.mpr ⟨root, root_member, root_named⟩)
  have each : ∀ node ∈ tree.labels, ∃ label, encodeLabel label = nodeLabel node ∧ Fit label := by
    intro node inside
    have reached := unfolds.mem_ids.mp (List.mem_map_of_mem inside)
    rw [top] at reached
    exact printable_iff.mp (printable.nodes node (findNode_id (unfolds.labels_found node inside)).2
      reached)
  have : Inhabited Xml.Label := ⟨⟨[], []⟩⟩
  choose! label encoded fit using each
  have same : (tree.map label).map encodeLabel = tree.map nodeLabel := by
    rw [RoseTree.map_map]
    exact RoseTree.map_congr encoded
  have labels_fit : ∀ item ∈ (tree.map label).labels, Fit item := by
    rw [RoseTree.labels_map]
    exact List.forall_mem_map.mpr fit
  obtain ⟨treeId, named, id_allowed⟩ := printable.treeId
  have allowed : (Xml.print 0 (documentElement treeId (tree.map label))).all Xml.isChar = true :=
    allowed_documentElement.mpr
      ⟨id_allowed, fun item member => (labels_fit item member).allowed⟩
  have read := Xml.read_print
    (legal_documentElement fun item member => (labels_fit item member).legal) allowed
  have normal : (tree.map label).map Xml.Label.normal = tree.map label :=
    RoseTree.map_id' fun item member => (labels_fit item member).normal
  rw [documentElement, RoseTree.map, List.map_singleton, RoseTree.map, List.map_singleton,
    normal] at read
  exact ⟨_, _, _, tree.map label, tree,
    export_print named (root_print is_tree unfolds top same), read, unfolds, top,
    unfolds.nodup is_tree (top ▸ .refl), fun id => top ▸ unfolds.mem_ids, same⟩

end Meaning

end Document

/-- The exported text of a valid document says what the document says if and only if its strings
are printable. -/
theorem behavior_xml_tells_iff (document : BehaviorTreeDocument) (registry : BehaviorNodeRegistry)
    (accepted : valid (document.validate registry) = true) :
    document.Tells document.exportBehaviorTreeXml ↔ document.Printable := by
  obtain ⟨-, is_tree⟩ := IsTree.of_valid accepted
  exact ⟨printable_of_tells is_tree, tells_of_printable is_tree⟩

section Leaves

theorem xmlValue_utf8 (message : String) (allowed : message.toList.all Xml.isChar = true)
    (kept : Xml.kept message.toList = true) : XmlValue (utf8 message) :=
  ⟨message.toList, utf8_eq message, allowed, kept⟩

theorem xmlName_utf8 (message : String) (legal : Xml.isName message.toList = true) :
    XmlName (utf8 message) := ⟨message.toList, utf8_eq message, legal⟩

theorem behavior_xml_tells_invertedLeaf :
    invertedLeaf.Tells invertedLeaf.exportBehaviorTreeXml := by
  refine (behavior_xml_tells_iff invertedLeaf .defaults (by decide +kernel)).mpr
    ⟨⟨"tree".toList, utf8_eq "tree", by decide⟩, fun node member _ => ?_⟩
  have plain : node.parameters.toList = [] := by
    simp only [invertedLeaf, List.mem_cons, List.not_mem_nil, or_false] at member
    rcases member with rfl | rfl | rfl <;> rfl
  have silent : ∀ entry ∈ node.parameters.toList,
      XmlName entry.1 ∧ entry.1 ≠ utf8 "name" ∧ XmlValue entry.2 := by
    rw [plain]
    exact fun _ member => absurd member List.not_mem_nil
  simp only [invertedLeaf, List.mem_cons, List.not_mem_nil, or_false] at member
  rcases member with rfl | rfl | rfl
  · exact ⟨xmlName_utf8 "Inverter" (by decide), xmlValue_utf8 "decorator" (by decide) (by decide),
      silent⟩
  · exact ⟨xmlName_utf8 "AlwaysSuccess" (by decide), xmlValue_utf8 "leaf" (by decide) (by decide),
      silent⟩
  · exact ⟨xmlName_utf8 "AlwaysFailure" (by decide), xmlValue_utf8 "leaf" (by decide) (by decide),
      silent⟩

/-- A leaf with a parameter called `name`. -/
def namedLeaf : BehaviorTreeDocument where
  treeId := utf8 "tree"
  root := utf8 "leaf"
  nodes := [{ id := utf8 "leaf", type := utf8 "AlwaysSuccess", name := utf8 "leaf",
              parameters := .ofList [(utf8 "name", utf8 "other")] }]

theorem named_parameter_lost : ¬ ∀ document : BehaviorTreeDocument,
    valid (document.validate .defaults) = true →
      document.Tells document.exportBehaviorTreeXml := by
  intro claimed
  have accepted : valid (namedLeaf.validate .defaults) = true := by decide +kernel
  have printable := printable_of_tells (IsTree.of_valid accepted).2 (claimed _ accepted)
  have node := printable.nodes _ List.mem_cons_self .refl
  exact (node.parameters (utf8 "name", utf8 "other") (by decide +kernel)).2.1 rfl

end Leaves

end BehaviorTreeDocument

end GeoWorld.Tooling
