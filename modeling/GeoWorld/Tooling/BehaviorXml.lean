import Mathlib
import GeoWorld.Library.Utf8
import GeoWorld.Library.XmlRoundTrip
import GeoWorld.Tooling.DocumentTree

/-!
The XML text of a behaviour tree, byte by byte as it is exported, and its characters: the printed
elements of the tree that the document is.
-/

namespace GeoWorld.Tooling

open WorldModel Library DocumentValidation

section Escape

def escapeByte (character : UInt8) : ByteString :=
  if character = 38 then utf8 "&amp;"
  else if character = 60 then utf8 "&lt;"
  else if character = 62 then utf8 "&gt;"
  else if character = 34 then utf8 "&quot;"
  else if character = 39 then utf8 "&apos;"
  else [character]

def escapeXml (value : ByteString) : ByteString := value.flatMap escapeByte

def attributeXml (key value : ByteString) : ByteString :=
  utf8 " " ++ key ++ utf8 "=\"" ++ escapeXml value ++ utf8 "\""

def indentXml (depth : Nat) : ByteString := List.replicate (depth * 2) 32

variable {value before after : ByteString} {text : List Char}

theorem toList_loop (packed : ByteArray) (index : Nat) (read : List UInt8) :
    ByteArray.toList.loop packed index read =
      read.reverse ++ packed.data.toList.drop index := by
  fun_induction ByteArray.toList.loop packed index read with
  | case1 index read inside ih =>
    have bound : index < packed.data.toList.length := inside
    have next : packed.get! index = packed.data.toList[index] :=
      getElem!_pos packed.data index inside
    rw [ih, List.reverse_cons, List.append_assoc, List.singleton_append, next,
      ← List.drop_eq_getElem_cons bound]
  | case2 index read outside =>
    have past : packed.data.toList.length ≤ index := Nat.le_of_not_lt outside
    rw [List.drop_eq_nil_of_le past, List.append_nil]

theorem utf8_eq (message : String) : utf8 message = Utf8.bytes message.toList := by
  have encoded : message.toUTF8 = message.toList.utf8Encode := by simp
  rw [utf8, encoded, List.utf8Encode, ByteArray.toList, toList_loop, List.drop_zero,
    List.toList_data_toByteArray]
  rfl

theorem escapeByte_ascii : ∀ number < 128, escapeByte (UInt8.ofNat number) =
    Utf8.bytes (Xml.escapeChar (Char.ofNat number)) := by
  decide +kernel

theorem escapeByte_high {byte : UInt8} (high : 128 ≤ byte.toNat) : escapeByte byte = [byte] := by
  have other : ∀ number : UInt8, number.toNat < 128 → byte ≠ number := by
    rintro number small rfl
    omega
  rw [escapeByte, if_neg (other 38 (by decide)), if_neg (other 60 (by decide)),
    if_neg (other 62 (by decide)), if_neg (other 34 (by decide)), if_neg (other 39 (by decide))]

theorem escapeChar_high {c : Char} (high : 128 ≤ c.toNat) : Xml.escapeChar c = [c] := by
  have other : ∀ d : Char, d.toNat < 128 → c ≠ d := by
    rintro d small rfl
    omega
  rw [Xml.escapeChar, if_neg (other '&' (by decide)), if_neg (other '<' (by decide)),
    if_neg (other '>' (by decide)), if_neg (other Xml.quote (by decide)),
    if_neg (other Xml.apostrophe (by decide))]

theorem escapeXml_append (before after : ByteString) :
    escapeXml (before ++ after) = escapeXml before ++ escapeXml after := List.flatMap_append

theorem escapeXml_high (high : ∀ byte ∈ value, 128 ≤ byte.toNat) : escapeXml value = value := by
  induction value with
  | nil => rfl
  | cons byte value ih =>
    rw [List.forall_mem_cons] at high
    rw [escapeXml, List.flatMap_cons, escapeByte_high high.1]
    exact congrArg _ (ih high.2)

theorem escapeXml_bytes (text : List Char) :
    escapeXml (Utf8.bytes text) = Utf8.bytes (Xml.escape text) := by
  induction text with
  | nil => rfl
  | cons c text ih =>
    have step : Xml.escape (c :: text) = Xml.escapeChar c ++ Xml.escape text := rfl
    rw [Utf8.bytes_cons, escapeXml_append, ih, step, Utf8.bytes_append]
    refine congrArg (· ++ _) ?_
    rcases Utf8.encodeChar_cases c with ⟨small, single⟩ | ⟨big, high⟩
    · rw [single, escapeXml, List.flatMap_singleton, escapeByte_ascii _ small, Char.ofNat_toNat]
    · rw [escapeXml_high high, escapeChar_high big, Utf8.bytes_cons, Utf8.bytes_nil,
        List.append_nil]

theorem escapeByte_ascii_valid {byte : UInt8} (small : byte.toNat < 128) (rest : ByteString) :
    Utf8.Valid (escapeByte byte ++ rest) ↔ Utf8.Valid rest := by
  refine Utf8.valid_append_plain ?_
  unfold escapeByte
  split_ifs
  · decide +kernel
  · decide +kernel
  · decide +kernel
  · decide +kernel
  · decide +kernel
  · simpa using small

theorem escapeByte_cons {byte : UInt8} (small : byte.toNat < 128) :
    ∃ first more, escapeByte byte = first :: more ∧ first.toNat < 128 := by
  unfold escapeByte
  split_ifs
  · exact ⟨38, _, utf8_eq "&amp;", by decide⟩
  · exact ⟨38, _, utf8_eq "&lt;", by decide⟩
  · exact ⟨38, _, utf8_eq "&gt;", by decide⟩
  · exact ⟨38, _, utf8_eq "&quot;", by decide⟩
  · exact ⟨38, _, utf8_eq "&apos;", by decide⟩
  · exact ⟨byte, [], rfl, small⟩

/-- Escaping does not repair bytes that are no text. -/
theorem valid_of_escapeXml (valid : Utf8.Valid (escapeXml value)) : Utf8.Valid value := by
  induction length : value.length using Nat.strong_induction_on generalizing value with
  | _ count ih =>
    obtain ⟨high, rest, rfl, all_high, next⟩ : ∃ high rest, value = high ++ rest ∧
        (∀ byte ∈ high, 128 ≤ byte.toNat) ∧ ∀ byte, rest.head? = some byte → byte.toNat < 128 := by
      refine ⟨value.takeWhile fun byte => decide (128 ≤ byte.toNat),
        value.dropWhile fun byte => decide (128 ≤ byte.toNat),
        List.takeWhile_append_dropWhile.symm, fun byte member => ?_, fun byte first => ?_⟩
      · simpa using List.mem_takeWhile_imp member
      · have stopped := List.head?_dropWhile_not (fun byte => decide (128 ≤ byte.toNat)) value
        rw [first] at stopped
        simpa using stopped
    rw [escapeXml_append, escapeXml_high all_high] at valid
    cases rest with
    | nil => simpa [escapeXml] using valid
    | cons byte rest =>
      have small := next byte rfl
      have step : escapeXml (byte :: rest) = escapeByte byte ++ escapeXml rest := rfl
      obtain ⟨first, more, marks, ascii⟩ := escapeByte_cons small
      rw [step, marks, List.cons_append, Utf8.valid_append_ascii ascii, ← List.cons_append, ← marks,
        escapeByte_ascii_valid small] at valid
      refine valid.1.append ((Utf8.valid_cons_ascii small).mpr (ih rest.length ?_ valid.2 rfl))
      rw [← length, List.length_append, List.length_cons]
      omega

theorem attributeXml_bytes (pair : List Char × List Char) :
    attributeXml (Utf8.bytes pair.1) (Utf8.bytes pair.2) =
      Utf8.bytes (Xml.printAttribute pair) := by
  simp only [attributeXml, escapeXml_bytes, utf8_eq, Xml.printAttribute, ← Utf8.bytes_append]
  refine congrArg Utf8.bytes ?_
  simp [Xml.quote]

theorem indentXml_bytes (depth : Nat) : indentXml depth = Utf8.bytes (Xml.indent depth) := by
  have blank : ∀ count, List.replicate count (32 : UInt8) =
      Utf8.bytes (List.replicate count ' ') := by
    intro count
    induction count with
    | zero => rfl
    | succ count ih => rw [List.replicate_succ, List.replicate_succ, Utf8.bytes_cons, ih]; rfl
  rw [indentXml, Xml.indent, Nat.mul_comm, blank]

end Escape

namespace BehaviorTreeDocument

/-- `behavior_xml_node`; the ids on the stack are those of the nodes above, so that it never
needs more fuel than there are nodes. -/
def behaviorXmlNode (document : BehaviorTreeDocument) :
    Nat → List ByteString → Nat → ByteString → ByteString
  | 0, _, _, _ => []
  | fuel + 1, stack, depth, id =>
    match document.findNode id with
    | none => []
    | some node =>
      if node.id ∈ stack then []
      else
        indentXml depth ++ utf8 "<" ++ node.type ++ attributeXml (utf8 "name") node.name ++
          node.parameters.toList.flatMap (fun entry => attributeXml entry.1 entry.2) ++
          if node.children.isEmpty then utf8 "/>\n"
          else utf8 ">\n" ++ node.children.flatMap
              (document.behaviorXmlNode fuel (node.id :: stack) (depth + 1)) ++
            indentXml depth ++ utf8 "</" ++ node.type ++ utf8 ">\n"

def exportBehaviorTreeXml (document : BehaviorTreeDocument) : ByteString :=
  utf8 "<root BTCPP_format=\"4\" main_tree_to_execute=\"" ++ escapeXml document.treeId ++
    utf8 "\">\n  <BehaviorTree ID=\"" ++ escapeXml document.treeId ++ utf8 "\">\n" ++
    document.behaviorXmlNode (document.nodes.length + 1) [] 2 document.root ++
    utf8 "  </BehaviorTree>\n</root>\n"

section Text

variable {document : BehaviorTreeDocument} {tree : RoseTree BehaviorNodeDocument}
  {stack : List ByteString} {fuel depth : Nat} {id : ByteString}

theorem known_of_findNode {node : BehaviorNodeDocument} (found : document.findNode id = some node) :
    node.id ∈ document.ids := List.mem_map_of_mem (findNode_id found).2

/-- More fuel than nodes makes no difference. -/
theorem behaviorXmlNode_fuel (more : Nat) (distinct : stack.Nodup) (inside : stack ⊆ document.ids)
    (enough : document.nodes.length < stack.length + fuel) :
    document.behaviorXmlNode (fuel + more) stack depth id =
      document.behaviorXmlNode fuel stack depth id := by
  induction fuel generalizing stack depth id with
  | zero =>
    have counted := (distinct.subperm inside).length_le
    rw [ids, List.length_map] at counted
    omega
  | succ fuel ih =>
    rw [Nat.add_right_comm, behaviorXmlNode, behaviorXmlNode]
    cases found : document.findNode id with
    | none => rfl
    | some node =>
      simp only
      split
      · rfl
      · rename_i fresh
        have below : document.behaviorXmlNode (fuel + more) (node.id :: stack) (depth + 1) =
            document.behaviorXmlNode fuel (node.id :: stack) (depth + 1) := by
          funext child
          refine ih (List.nodup_cons.mpr ⟨fresh, distinct⟩)
            (List.cons_subset.mpr ⟨known_of_findNode found, inside⟩) ?_
          rw [List.length_cons]
          omega
        rw [below]

/-- The tag and the attributes of the element of a node, as bytes. -/
def nodeLabel (node : BehaviorNodeDocument) : ByteString × List (ByteString × ByteString) :=
  (node.type, (utf8 "name", node.name) :: node.parameters.toList)

def encodeLabel (label : Xml.Label) : ByteString × List (ByteString × ByteString) :=
  (Utf8.bytes label.tag, label.attributes.map fun pair => (Utf8.bytes pair.1, Utf8.bytes pair.2))

theorem attributes_bytes (attributes : List (List Char × List Char)) :
    (attributes.map fun pair => (Utf8.bytes pair.1, Utf8.bytes pair.2)).flatMap
      (fun entry => attributeXml entry.1 entry.2) =
        Utf8.bytes (attributes.flatMap Xml.printAttribute) := by
  induction attributes with
  | nil => rfl
  | cons pair attributes ih =>
    rw [List.map_cons, List.flatMap_cons, List.flatMap_cons, ih, attributeXml_bytes,
      Utf8.bytes_append]

/-- The element of a node before its children, by its label. -/
theorem opening_bytes {node : BehaviorNodeDocument} {label : Xml.Label}
    (same : encodeLabel label = nodeLabel node) :
    utf8 "<" ++ node.type ++ attributeXml (utf8 "name") node.name ++
        node.parameters.toList.flatMap (fun entry => attributeXml entry.1 entry.2) =
      Utf8.bytes ('<' :: (label.tag ++ label.attributes.flatMap Xml.printAttribute)) := by
  obtain ⟨type, attributes⟩ := Prod.ext_iff.mp same
  simp only [encodeLabel, nodeLabel] at type attributes
  have listed := attributes_bytes label.attributes
  rw [attributes, List.flatMap_cons] at listed
  rw [← type, List.append_assoc, List.append_assoc, listed, utf8_eq, ← Utf8.bytes_append,
    ← Utf8.bytes_append]
  rfl

/-- The exported text of a subtree is that of the printed elements. -/
theorem behaviorXmlNode_print (unfolds : document.Unfolds tree) (is_tree : document.IsTree)
    (reached : document.ChildPath document.root tree.label.id)
    {element : Xml.Element} (same : element.map encodeLabel = tree.map nodeLabel)
    (above : ∀ id ∈ stack, Relation.TransGen document.ChildEdge id tree.label.id)
    (distinct : stack.Nodup) (inside : stack ⊆ document.ids)
    (enough : document.nodes.length < stack.length + fuel) :
    document.behaviorXmlNode fuel stack depth tree.label.id =
      Utf8.bytes (Xml.print depth element) := by
  induction unfolds generalizing stack fuel depth element with
  | @node node trees found children below ih =>
    obtain ⟨label, elements⟩ := element
    rw [RoseTree.map, RoseTree.map, RoseTree.node.injEq] at same
    obtain ⟨label_same, below_same⟩ := same
    obtain ⟨fuel, rfl⟩ : ∃ rest, fuel = rest + 1 := by
      have counted := (distinct.subperm inside).length_le
      rw [ids, List.length_map] at counted
      exact ⟨fuel - 1, by omega⟩
    have fresh : node.id ∉ stack := fun again =>
      is_tree.acyclic ⟨node.id, reached, above node.id again⟩
    have opening := opening_bytes label_same
    have type : node.type = Utf8.bytes label.tag := (congrArg Prod.fst label_same).symm
    have size : elements.length = trees.length := by
      have lengths := congrArg List.length below_same
      rwa [List.length_map, List.length_map] at lengths
    have leaf_iff : node.children.isEmpty = elements.isEmpty := by
      rw [children, List.isEmpty_map, Bool.eq_iff_iff, List.isEmpty_iff_length_eq_zero,
        List.isEmpty_iff_length_eq_zero, size]
    have inner : node.children.flatMap (document.behaviorXmlNode fuel (node.id :: stack) (depth + 1)) =
        Utf8.bytes (elements.flatMap (Xml.print (depth + 1))) := by
      rw [children]
      suffices part : ∀ (some : List (RoseTree BehaviorNodeDocument)) (others : List Xml.Element),
          some ⊆ trees → others.map (RoseTree.map encodeLabel) = some.map (RoseTree.map nodeLabel) →
            (some.map fun tree => tree.label.id).flatMap
              (document.behaviorXmlNode fuel (node.id :: stack) (depth + 1)) =
                Utf8.bytes (others.flatMap (Xml.print (depth + 1))) from
        part trees elements (List.Subset.refl _) below_same
      intro some
      induction some with
      | nil =>
        intro others _ equal
        obtain rfl := List.map_eq_nil_iff.mp equal
        rfl
      | cons tree some rest =>
        intro others listed equal
        obtain _ | ⟨element, others⟩ := others
        · cases equal
        · rw [List.map_cons, List.map_cons, List.cons.injEq] at equal
          rw [List.cons_subset] at listed
          have edge : document.ChildEdge node.id tree.label.id :=
            ⟨node, found, children ▸ List.mem_map_of_mem listed.1⟩
          have deeper : document.nodes.length < (node.id :: stack).length + fuel := by
            rw [List.length_cons]
            omega
          have first : document.behaviorXmlNode fuel (node.id :: stack) (depth + 1) tree.label.id =
              Utf8.bytes (Xml.print (depth + 1) element) := ih tree listed.1 (reached.tail edge) equal.1
            (List.forall_mem_cons.mpr ⟨.single edge, fun id member => (above id member).tail edge⟩)
            (List.nodup_cons.mpr ⟨fresh, distinct⟩)
            (List.cons_subset.mpr ⟨known_of_findNode found, inside⟩) deeper
          rw [List.map_cons, List.flatMap_cons, first, rest others listed.2 equal.2,
            List.flatMap_cons, Utf8.bytes_append]
    have printed : Xml.print depth (.node label elements) = Xml.indent depth ++
        ('<' :: (label.tag ++ label.attributes.flatMap Xml.printAttribute) ++
          if elements.isEmpty then ['/', '>', '\n']
          else ['>', '\n'] ++ elements.flatMap (Xml.print (depth + 1)) ++ Xml.indent depth ++
            ['<', '/'] ++ label.tag ++ ['>', '\n']) := by
      have child_eq : (fun child => Xml.indent (depth + 1) ++ '<' ::
          (Xml.printInside (depth + 1) child ++ ['\n'])) = Xml.print (depth + 1) := rfl
      rw [Xml.print, Xml.printInside, child_eq]
      split <;> simp
    rw [RoseTree.label, behaviorXmlNode, found]
    simp only [if_neg fresh]
    rw [printed, Utf8.bytes_append, Utf8.bytes_append, ← opening, ← indentXml_bytes, leaf_iff, inner]
    simp only [List.append_assoc]
    split
    · rw [utf8_eq "/>\n"]
      rfl
    · simp only [Utf8.bytes_append, ← type, ← indentXml_bytes]
      rw [utf8_eq ">\n", utf8_eq "</"]
      rfl

end Text

end BehaviorTreeDocument

end GeoWorld.Tooling
