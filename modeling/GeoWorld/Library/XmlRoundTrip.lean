import Mathlib
import GeoWorld.Library.Xml

/-!
The reader of XML texts against their printer. What is read has legal tags, whatever the text;
and of a printed element with legal tags the reader gives the element back, its values with
spaces for tabs and line ends.
-/

namespace GeoWorld.Library

namespace Xml

variable {c : Char} {text rest tail name value : List Char} {fuel : Nat}

section Legal

theorem readName_isName {found : List Char × List Char} (read : readName text = some found) :
    isName found.1 = true := by
  cases text with
  | nil => cases read
  | cons first text =>
    rw [readName] at read
    split at read
    · rename_i start
      obtain rfl := Option.some.inj read
      rw [isName, start, Bool.true_and]
      exact List.all_eq_true.mpr fun c member => List.mem_takeWhile_imp member
    · cases read

theorem readAttribute_isName {found : (List Char × List Char) × List Char}
    (read : readAttribute text = some found) : isName found.1.1 = true := by
  obtain ⟨name, named, read⟩ := Option.bind_eq_some_iff.mp read
  obtain ⟨_, -, read⟩ := Option.bind_eq_some_iff.mp read
  obtain ⟨_, -, rfl⟩ := Option.map_eq_some_iff.mp read
  exact (readName_isName named : isName name.1 = true)

theorem readAttributes_names {found : List (List Char × List Char) × Bool × List Char}
    (read : readAttributes fuel text = some found) : ∀ pair ∈ found.1, isName pair.1 = true := by
  induction fuel generalizing text found with
  | zero => cases read
  | succ fuel ih =>
    rw [readAttributes] at read
    split at read
    · obtain rfl := Option.some.inj read
      exact nofun
    · split at read
      · obtain rfl := Option.some.inj read
        exact nofun
      · split at read
        · cases read
        · obtain ⟨pair, first, read⟩ := Option.bind_eq_some_iff.mp read
          obtain ⟨others, rest_read, rfl⟩ := Option.map_eq_some_iff.mp read
          exact List.forall_mem_cons.mpr ⟨readAttribute_isName first, ih rest_read⟩

/-- Every element that is read, in content or alone, has legal tags. -/
theorem read_legal (fuel : Nat) :
    (∀ text found, readElement fuel text = some found → ∀ label ∈ found.1.labels, label.Legal) ∧
      ∀ text found, readContent fuel text = some found → ∀ element ∈ found.1,
        ∀ label ∈ element.labels, label.Legal := by
  induction fuel with
  | zero => exact ⟨fun _ _ read => (by cases read), fun _ _ read => (by cases read)⟩
  | succ fuel ih =>
    obtain ⟨elements, contents⟩ := ih
    constructor
    · intro text found read
      rw [readElement] at read
      obtain ⟨name, named, read⟩ := Option.bind_eq_some_iff.mp read
      obtain ⟨attributes, listed, read⟩ := Option.bind_eq_some_iff.mp read
      split at read
      · cases read
      · rename_i distinct
        have legal : Label.Legal ⟨name.1, attributes.1⟩ :=
          ⟨readName_isName named, readAttributes_names listed, not_not.mp distinct⟩
        split at read
        · obtain rfl := Option.some.inj read
          simpa [RoseTree.labels] using legal
        · obtain ⟨content, inside, read⟩ := Option.bind_eq_some_iff.mp read
          obtain ⟨closing, -, read⟩ := Option.bind_eq_some_iff.mp read
          obtain ⟨rest, -, read⟩ := Option.bind_eq_some_iff.mp read
          split at read
          · obtain rfl := Option.some.inj read
            rw [RoseTree.labels, List.forall_mem_cons]
            refine ⟨legal, fun label member => ?_⟩
            obtain ⟨child, listed, below⟩ := List.mem_flatMap.mp member
            exact contents _ _ inside child listed label below
          · cases read
    · intro text found read
      cases text with
      | nil => cases read
      | cons c text =>
        rw [readContent] at read
        split at read
        · split at read
          · obtain rfl := Option.some.inj read
            exact fun _ member => absurd member List.not_mem_nil
          · split at read
            · obtain ⟨_, -, read⟩ := Option.bind_eq_some_iff.mp read
              exact contents _ _ read
            · split at read
              · obtain ⟨_, -, read⟩ := Option.bind_eq_some_iff.mp read
                exact contents _ _ read
              · obtain ⟨child, first, read⟩ := Option.bind_eq_some_iff.mp read
                obtain ⟨others, rest_read, rfl⟩ := Option.map_eq_some_iff.mp read
                exact List.forall_mem_cons.mpr ⟨elements _ _ first, contents _ _ rest_read⟩
        · split at read
          · obtain ⟨_, -, read⟩ := Option.bind_eq_some_iff.mp read
            exact contents _ _ read
          · split at read
            · cases read
            · exact contents _ _ read

end Legal

section Pieces

theorem isNameStart_ne (start : isNameStart c = true) {d : Char} (other : isNameStart d = false) :
    c ≠ d := by
  rintro rfl
  rw [start] at other
  cases other

theorem isNameStart_not_space (start : isNameStart c = true) : isSpace c = false := by
  have blank := isNameStart_ne start (d := ' ') (by decide)
  have tab := isNameStart_ne start (d := '\t') (by decide)
  have line := isNameStart_ne start (d := '\n') (by decide)
  have back := isNameStart_ne start (d := '\r') (by decide)
  simp [isSpace, blank, tab, line, back]

theorem isName_cons (legal : isName name = true) :
    ∃ first rest, name = first :: rest ∧ isNameStart first = true ∧ ∀ c ∈ rest, isNameChar c = true := by
  cases name with
  | nil => cases legal
  | cons first rest =>
    rw [isName, Bool.and_eq_true, List.all_eq_true] at legal
    exact ⟨first, rest, rfl, legal⟩

theorem after_ne (other : c ≠ '>') : after ['>'] (c :: text) = none := by
  simp [after, Ne.symm other]

/-- A name ends where no name character follows. -/
theorem readName_append (legal : isName name = true)
    (ends : ∀ c, rest.head? = some c → isNameChar c = false) :
    readName (name ++ rest) = some (name, rest) := by
  obtain ⟨first, others, rfl, start, inside⟩ := isName_cons legal
  rw [List.cons_append, readName, if_pos start, List.takeWhile_append_of_pos inside,
    List.dropWhile_append_of_pos inside]
  cases rest with
  | nil => simp
  | cons c rest =>
    have stop := ends c rfl
    simp [stop]

theorem expand_escape (value : List Char) :
    expand none (escape value) = some (value.map spaced) := by
  induction value with
  | nil => rfl
  | cons c value ih =>
    rw [escape, List.flatMap_cons, ← escape, escapeChar, List.map_cons]
    by_cases ampersand : c = '&'
    · subst ampersand
      simp [expand, referenced, ih, spaced, isSpace]
    · by_cases less : c = '<'
      · subst less
        simp [expand, referenced, ih, spaced, isSpace]
      · by_cases greater : c = '>'
        · subst greater
          simp [expand, referenced, ih, spaced, isSpace]
        · by_cases double : c = quote
          · subst double
            simp [expand, referenced, ih, spaced, isSpace, quote]
          · by_cases single : c = apostrophe
            · subst single
              simp [expand, referenced, ih, spaced, isSpace, quote, apostrophe]
            · simp [ampersand, less, greater, double, single, expand, ih]

/-- The characters that the entities are written with. -/
def entityLetters : List Char := ['&', 'a', 'm', 'p', ';', 'l', 't', 'g', 'q', 'u', 'o', 's']

theorem mem_escapeChar {d : Char} (member : d ∈ escapeChar c) :
    d = c ∧ c ≠ quote ∨ d ∈ entityLetters := by
  have letters : ∀ {text : List Char}, text ⊆ entityLetters → d ∈ text → d ∈ entityLetters :=
    fun inside listed => inside listed
  unfold escapeChar at member
  split_ifs at member with _ _ _ double _
  · exact .inr (letters (by decide) member)
  · exact .inr (letters (by decide) member)
  · exact .inr (letters (by decide) member)
  · exact .inr (letters (by decide) member)
  · exact .inr (letters (by decide) member)
  · exact .inl ⟨List.mem_singleton.mp member, double⟩

theorem quote_not_mem_escape (value : List Char) : ∀ c ∈ escape value, c ≠ quote := by
  intro c member
  obtain ⟨d, -, inside⟩ := List.mem_flatMap.mp member
  rcases mem_escapeChar inside with ⟨rfl, other⟩ | listed
  · exact other
  · rintro rfl
    revert listed
    decide

theorem head_escape_newline (value : List Char) :
    (escape value).head? = some '\n' ↔ value.head? = some '\n' := by
  cases value with
  | nil => rfl
  | cons c value =>
    rw [escape, List.flatMap_cons, escapeChar]
    split_ifs <;> simp_all [quote, apostrophe]

theorem lineEnds_append_of_ne {marks : List Char} (plain : ∀ c ∈ marks, c ≠ '\r') (text : List Char) :
    lineEnds (marks ++ text) = marks ++ lineEnds text := by
  induction marks with
  | nil => rfl
  | cons c marks ih =>
    rw [List.forall_mem_cons] at plain
    rw [List.cons_append, lineEnds, if_neg (fun both => plain.1 both.1), ih plain.2]
    rfl

theorem lineEnds_escape (value : List Char) : lineEnds (escape value) = escape (lineEnds value) := by
  induction value with
  | nil => rfl
  | cons c value ih =>
    have step : escape (c :: value) = escapeChar c ++ escape value := rfl
    by_cases back : c = '\r'
    · subst back
      have single : escapeChar '\r' = ['\r'] := by decide
      rw [step, single, List.singleton_append, lineEnds, lineEnds, ih]
      by_cases line : value.head? = some '\n'
      · rw [if_pos ⟨rfl, (head_escape_newline value).mpr line⟩, if_pos ⟨rfl, line⟩]
      · rw [if_neg (fun both => line ((head_escape_newline value).mp both.2)),
          if_neg (fun both => line both.2)]
        rfl
    · have plain : ∀ d ∈ escapeChar c, d ≠ '\r' := by
        intro d member
        rcases mem_escapeChar member with ⟨rfl, -⟩ | listed
        · exact back
        · rintro rfl
          revert listed
          decide
      rw [step, lineEnds_append_of_ne plain, ih, lineEnds, if_neg (fun both => back both.1)]
      rfl

theorem readValue_print (value rest : List Char) :
    readValue (quote :: (escape value ++ quote :: rest)) = some (normal value, rest) := by
  have inside : ∀ c ∈ escape value, decide (c ≠ quote) = true := fun c member =>
    decide_eq_true (quote_not_mem_escape value c member)
  rw [readValue, if_pos (.inl rfl), List.takeWhile_append_of_pos inside,
    List.dropWhile_append_of_pos inside]
  simp [after, lineEnds_escape, expand_escape, normal]

theorem readAttribute_print (legal : isName name = true) (value rest : List Char) :
    readAttribute (name ++ '=' :: quote :: (escape value ++ quote :: rest)) =
      some ((name, normal value), rest) := by
  have ends : ∀ c, ('=' :: quote :: (escape value ++ quote :: rest)).head? = some c →
      isNameChar c = false := by
    intro c first
    obtain rfl := Option.some.inj first
    decide
  rw [readAttribute, readName_append legal ends]
  have equals : isSpace '=' = false := by decide
  have opening : isSpace quote = false := by decide
  simp [equals, opening, after, readValue_print]

variable {attributes : List (List Char × List Char)} {flag : Bool}

/-- The printed attributes, given what the end of the tag reads as. -/
theorem readAttributes_print (legal : ∀ pair ∈ attributes, isName pair.1 = true)
    (ends : ∀ fuel, readAttributes (fuel + 1) tail = some ([], flag, rest))
    (enough : attributes.length < fuel) :
    readAttributes fuel (attributes.flatMap printAttribute ++ tail) =
      some (attributes.map fun pair => (pair.1, normal pair.2), flag, rest) := by
  induction attributes generalizing fuel with
  | nil =>
    obtain ⟨fuel, rfl⟩ := Nat.exists_eq_succ_of_ne_zero (Nat.ne_of_gt enough)
    exact ends fuel
  | cons pair attributes ih =>
    obtain ⟨fuel, rfl⟩ := Nat.exists_eq_succ_of_ne_zero (Nat.ne_of_gt (Nat.zero_lt_of_lt enough))
    rw [List.forall_mem_cons] at legal
    have fewer : attributes.length < fuel := by
      rw [List.length_cons] at enough
      omega
    obtain ⟨first, others, name_eq, start, -⟩ := isName_cons legal.1
    have blank : isSpace ' ' = true := by decide
    have dropped : ((pair :: attributes).flatMap printAttribute ++ tail).dropWhile isSpace =
        pair.1 ++ '=' :: quote :: (escape pair.2 ++
          quote :: (attributes.flatMap printAttribute ++ tail)) := by
      simp [printAttribute, name_eq, blank, isNameStart_not_space start]
    have no_end : after ['>'] (pair.1 ++ '=' :: quote :: (escape pair.2 ++
        quote :: (attributes.flatMap printAttribute ++ tail))) = none := by
      rw [name_eq, List.cons_append]
      exact after_ne (isNameStart_ne start (by decide))
    have no_empty : after ['/', '>'] (pair.1 ++ '=' :: quote :: (escape pair.2 ++
        quote :: (attributes.flatMap printAttribute ++ tail))) = none := by
      have apart := isNameStart_ne start (d := '/') (by decide)
      simp [name_eq, after, Ne.symm apart]
    have shorter : (pair.1 ++ '=' :: quote :: (escape pair.2 ++
        quote :: (attributes.flatMap printAttribute ++ tail))).length ≠
          ((pair :: attributes).flatMap printAttribute ++ tail).length := by
      simp [printAttribute]
    rw [readAttributes]
    simp only [dropped, no_end, no_empty, shorter, if_false, readAttribute_print legal.1,
      Option.bind_some, ih legal.2 fewer, Option.map_some, List.map_cons]

theorem length_le_printAttributes (attributes : List (List Char × List Char)) :
    attributes.length ≤ (attributes.flatMap printAttribute).length := by
  induction attributes with
  | nil => exact le_rfl
  | cons pair attributes ih =>
    rw [List.flatMap_cons, List.length_append, List.length_cons, printAttribute, List.length_cons]
    omega

end Pieces

section Elements

theorem readContent_indent (count fuel : Nat) (text : List Char) :
    readContent (fuel + count) (List.replicate count ' ' ++ text) = readContent fuel text := by
  induction count with
  | zero => rfl
  | succ count ih =>
    rw [← Nat.add_assoc, List.replicate_succ, List.cons_append, readContent]
    simpa [after] using ih

theorem readContent_newline (fuel : Nat) (text : List Char) :
    readContent (fuel + 1) ('\n' :: text) = readContent fuel text := by
  rw [readContent]
  simp [after]

/-- What the reader gives for a printed element, whatever follows it. -/
def Reads (element : Element) : Prop :=
  ∀ depth fuel rest, (printInside depth element ++ rest).length < fuel →
    readElement fuel (printInside depth element ++ rest) = some (element.map Label.normal, rest)

theorem printInside_start {element : Element} (legal : ∀ label ∈ element.labels, label.Legal)
    (depth : Nat) : ∃ first others, printInside depth element = first :: others ∧
      isNameStart first = true := by
  obtain ⟨label, children⟩ := element
  have own : label.Legal := legal label (by rw [RoseTree.labels]; exact List.mem_cons_self)
  obtain ⟨first, others, tag, start, -⟩ := isName_cons own.tag
  rw [printInside, tag]
  exact ⟨first, _, rfl, start⟩

theorem readContent_children {children : List Element}
    (legal : ∀ child ∈ children, ∀ label ∈ child.labels, label.Legal)
    (each : ∀ child ∈ children, Reads child) (depth count : Nat)
    (enough : (children.flatMap (fun child => indent depth ++ '<' ::
      (printInside depth child ++ ['\n'])) ++ (List.replicate count ' ' ++
        '<' :: '/' :: tail)).length < fuel) :
    readContent fuel (children.flatMap (fun child => indent depth ++ '<' ::
      (printInside depth child ++ ['\n'])) ++ (List.replicate count ' ' ++ '<' :: '/' :: tail)) =
        some (children.map (RoseTree.map Label.normal), tail) := by
  induction children generalizing fuel with
  | nil =>
    simp only [List.flatMap_nil, List.nil_append, List.length_append, List.length_replicate,
      List.length_cons] at enough ⊢
    obtain ⟨more, rfl⟩ : ∃ more, fuel = more + 1 + count := ⟨fuel - 1 - count, by omega⟩
    rw [readContent_indent, readContent]
    simp
  | cons child children ih =>
    rw [List.forall_mem_cons] at legal each
    obtain ⟨first, others, inside, start⟩ := printInside_start legal.1 depth
    have text_eq : ((child :: children).flatMap (fun child => indent depth ++ '<' ::
        (printInside depth child ++ ['\n'])) ++ (List.replicate count ' ' ++ '<' :: '/' :: tail)) =
        List.replicate (2 * depth) ' ' ++ '<' :: (printInside depth child ++
          '\n' :: (children.flatMap (fun child => indent depth ++ '<' ::
            (printInside depth child ++ ['\n'])) ++
              (List.replicate count ' ' ++ '<' :: '/' :: tail))) := by
      simp [indent]
    rw [text_eq] at enough ⊢
    simp only [List.length_append, List.length_replicate, List.length_cons] at enough
    obtain ⟨more, rfl⟩ : ∃ more, fuel = more + 2 + 2 * depth :=
      ⟨fuel - 2 - 2 * depth, by omega⟩
    have element_read := each.1 depth (more + 1) ('\n' :: (children.flatMap (fun child =>
      indent depth ++ '<' :: (printInside depth child ++ ['\n'])) ++
        (List.replicate count ' ' ++ '<' :: '/' :: tail))) (by
          simp only [List.length_append, List.length_replicate, List.length_cons]
          omega)
    have others_read := @ih more legal.2 each.2 (by
      simp only [List.length_append, List.length_replicate, List.length_cons]
      omega)
    rw [readContent_indent, readContent, if_pos rfl]
    rw [inside] at element_read ⊢
    have slash := isNameStart_ne start (d := '/') (by decide)
    have bang := isNameStart_ne start (d := '!') (by decide)
    have question := isNameStart_ne start (d := '?') (by decide)
    simp only [List.cons_append] at element_read ⊢
    simp only [List.head?_cons, Option.some.injEq, slash, bang, question, if_false, element_read,
      Option.bind_some, readContent_newline, others_read, Option.map_some, List.map_cons]

/-- An element with legal tags is read back, its values in their normal form. -/
theorem readElement_print (element : Element) :
    (∀ label ∈ element.labels, label.Legal) → Reads element := by
  induction element using RoseTree.induction with
  | node label children ih =>
    intro legal depth fuel rest enough
    rw [RoseTree.labels, List.forall_mem_cons] at legal
    obtain ⟨own, below⟩ := legal
    have below_legal : ∀ child ∈ children, ∀ label ∈ child.labels, label.Legal :=
      fun child member label inside => below label (List.mem_flatMap.mpr ⟨child, member, inside⟩)
    obtain ⟨fuel, rfl⟩ := Nat.exists_eq_succ_of_ne_zero (Nat.ne_of_gt (Nat.zero_lt_of_lt enough))
    have distinct : ((label.attributes.map fun pair => (pair.1, normal pair.2)).map
        Prod.fst).Nodup := by
      rw [List.map_map]
      exact own.distinct
    have counted := length_le_printAttributes label.attributes
    have ends : ∀ {mark text}, isNameChar mark = false → ∀ c,
        (label.attributes.flatMap printAttribute ++ mark :: text).head? = some c →
          isNameChar c = false := by
      intro mark text stop c first
      cases attributes : label.attributes with
      | nil =>
        simp only [attributes, List.flatMap_nil, List.nil_append, List.head?_cons,
          Option.some.injEq] at first
        exact first ▸ stop
      | cons pair others =>
        simp only [attributes, List.flatMap_cons, printAttribute, List.cons_append,
          List.head?_cons, Option.some.injEq] at first
        subst first
        decide
    cases children with
    | nil =>
      have text_eq : printInside depth (.node label []) ++ rest =
          label.tag ++ (label.attributes.flatMap printAttribute ++ '/' :: '>' :: rest) := by
        simp [printInside]
      have tail_read : ∀ fuel, readAttributes (fuel + 1) ('/' :: '>' :: rest) =
          some ([], true, rest) := by
        intro fuel
        have slash : isSpace '/' = false := by decide
        simp [readAttributes, slash, after]
      rw [text_eq, readElement, readName_append own.tag (ends (by decide)), Option.bind_some,
        readAttributes_print own.names tail_read (by rw [List.length_append]; omega),
        Option.bind_some, if_neg (not_not.mpr distinct), if_pos rfl, RoseTree.map]
      rfl
    | cons child children =>
      have text_eq : printInside depth (.node label (child :: children)) ++ rest =
          label.tag ++ (label.attributes.flatMap printAttribute ++ '>' :: '\n' ::
            ((child :: children).flatMap (fun child => indent (depth + 1) ++ '<' ::
              (printInside (depth + 1) child ++ ['\n'])) ++
                (List.replicate (2 * depth) ' ' ++ '<' :: '/' :: (label.tag ++ '>' :: rest)))) := by
        simp [printInside, indent]
      have tail_read : ∀ text fuel, readAttributes (fuel + 1) ('>' :: text) =
          some ([], false, text) := by
        intro text fuel
        have closing : isSpace '>' = false := by decide
        simp [readAttributes, closing, after]
      rw [text_eq] at enough ⊢
      simp only [List.length_append, List.length_cons] at enough
      obtain ⟨more, rfl⟩ : ∃ more, fuel = more + 1 := ⟨fuel - 1, by omega⟩
      have each : ∀ below ∈ child :: children, Reads below := fun below member =>
        ih below member (below_legal below member)
      have content_read := @readContent_children (label.tag ++ '>' :: rest) more _ below_legal
        each (depth + 1) (2 * depth) (by
          simp only [List.length_append, List.length_cons]
          omega)
      have tag_ends : ∀ c, ('>' :: rest).head? = some c → isNameChar c = false := by
        intro c first
        obtain rfl := Option.some.inj first
        decide
      have closing : isSpace '>' = false := by decide
      rw [readElement, readName_append own.tag (ends (by decide)), Option.bind_some,
        readAttributes_print own.names (tail_read _) (by rw [List.length_append]; omega),
        Option.bind_some, if_neg (not_not.mpr distinct), if_neg Bool.false_ne_true,
        readContent_newline, content_read, Option.bind_some, readName_append own.tag tag_ends]
      simp [closing, after, RoseTree.map, Label.normal]

/-- A printed document is read back when its characters are allowed. -/
theorem read_print {element : Element} (legal : ∀ label ∈ element.labels, label.Legal)
    (allowed : (print 0 element).all isChar = true) :
    read (print 0 element) = some (element.map Label.normal) := by
  rw [read, if_pos allowed]
  have text_eq : print 0 element = '<' :: (printInside 0 element ++ ['\n']) := rfl
  rw [text_eq]
  have inside := readElement_print element legal 0 ((printInside 0 element ++ ['\n']).length + 1)
    ['\n'] (Nat.lt_succ_self _)
  simp only [after, if_true, Option.bind_some, inside]
  rfl

/-- Of a text that is read every character is allowed, and the element has legal tags. -/
theorem read_some {element : Element} (found : read text = some element) :
    text.all isChar = true ∧ ∀ label ∈ element.labels, label.Legal := by
  rw [read] at found
  split at found
  · rename_i allowed
    obtain ⟨inside, -, found⟩ := Option.bind_eq_some_iff.mp found
    obtain ⟨result, element_read, found⟩ := Option.bind_eq_some_iff.mp found
    split at found
    · obtain rfl := Option.some.inj found
      exact ⟨allowed, (read_legal _).1 _ _ element_read⟩
    · cases found
  · cases found

end Elements

section Values

/-- The values that the reader gives back as they are. -/
def kept (value : List Char) : Bool := value.all fun c => c != '\t' && c != '\n' && c != '\r'

theorem spaced_kept (c : Char) : spaced c ≠ '\t' ∧ spaced c ≠ '\n' ∧ spaced c ≠ '\r' := by
  unfold spaced
  split
  · decide
  · rename_i visible
    refine ⟨?_, ?_, ?_⟩ <;> rintro rfl <;> exact visible (by decide)

theorem spaced_eq (keeps : c ≠ '\t' ∧ c ≠ '\n' ∧ c ≠ '\r') : spaced c = c := by
  obtain ⟨tab, line, back⟩ := keeps
  unfold spaced
  split
  · rename_i blank
    simp only [isSpace, Bool.or_eq_true, beq_iff_eq, tab, line, back, or_false] at blank
    exact blank.symm
  · rfl

theorem kept_iff : kept value = true ↔ ∀ c ∈ value, c ≠ '\t' ∧ c ≠ '\n' ∧ c ≠ '\r' := by
  simp only [kept, List.all_eq_true, Bool.and_eq_true, bne_iff_ne, and_assoc]

theorem normal_eq_iff (value : List Char) : normal value = value ↔ kept value = true := by
  rw [kept_iff]
  constructor
  · intro same c member
    rw [← same] at member
    obtain ⟨d, -, rfl⟩ := List.mem_map.mp member
    exact spaced_kept d
  · intro keeps
    have ends := lineEnds_append_of_ne (fun c member => (keeps c member).2.2) []
    rw [List.append_nil, lineEnds, List.append_nil] at ends
    rw [normal, ends]
    exact (List.map_congr_left fun c member => spaced_eq (keeps c member)).trans (List.map_id _)

/-- The characters of a value are allowed when those of its escaped form are. -/
theorem all_isChar_escape (value : List Char) : (escape value).all isChar = value.all isChar := by
  induction value with
  | nil => rfl
  | cons c value ih =>
    have step : escape (c :: value) = escapeChar c ++ escape value := rfl
    have single : (escapeChar c).all isChar = isChar c := by
      unfold escapeChar
      split_ifs with ampersand less greater double apart
      · subst ampersand
        decide
      · subst less
        decide
      · subst greater
        decide
      · subst double
        decide
      · subst apart
        decide
      · simp
    rw [step, List.all_append, single, ih, List.all_cons]

theorem isChar_of_isNameChar (named : isNameChar c = true) : isChar c = true := by
  simp only [isNameChar, isNameStart, isChar, between, Bool.or_eq_true, Bool.and_eq_true,
    decide_eq_true_eq, beq_iff_eq, ← Char.toNat_inj] at named ⊢
  simp only [Char.reduceToNat] at named ⊢
  omega

theorem isName_allowed (legal : isName name = true) : name.all isChar = true := by
  obtain ⟨first, rest, rfl, start, inside⟩ := isName_cons legal
  refine List.all_eq_true.mpr (List.forall_mem_cons.mpr ⟨?_, fun c member => ?_⟩)
  · exact isChar_of_isNameChar (by simp [isNameChar, start])
  · exact isChar_of_isNameChar (inside c member)

/-- The label has allowed characters only. -/
structure Label.Allowed (label : Label) : Prop where
  tag : label.tag.all isChar = true
  attributes : ∀ pair ∈ label.attributes, pair.1.all isChar = true ∧ pair.2.all isChar = true

theorem all_isChar_printAttribute (pair : List Char × List Char) :
    (printAttribute pair).all isChar = true ↔
      pair.1.all isChar = true ∧ pair.2.all isChar = true := by
  have blank : isChar ' ' = true := by decide
  have equals : isChar '=' = true := by decide
  have mark : isChar quote = true := by decide
  simp only [printAttribute, List.all_cons, List.all_append, all_isChar_escape, blank, equals, mark,
    List.all_nil, Bool.and_true, Bool.true_and, Bool.and_eq_true]

theorem all_isChar_indent (depth : Nat) : (indent depth).all isChar = true := by
  refine List.all_eq_true.mpr fun c member => ?_
  rw [(List.mem_replicate.mp member).2]
  decide

/-- A printed element has allowed characters only if and only if its labels have. -/
theorem all_isChar_printInside (element : Element) (depth : Nat) :
    (printInside depth element).all isChar = true ↔ ∀ label ∈ element.labels, label.Allowed := by
  induction element using RoseTree.induction generalizing depth with
  | node label children ih =>
    have own : label.Allowed ↔ label.tag.all isChar = true ∧
        (label.attributes.flatMap printAttribute).all isChar = true := by
      have listed : (label.attributes.flatMap printAttribute).all isChar = true ↔
          ∀ pair ∈ label.attributes, pair.1.all isChar = true ∧ pair.2.all isChar = true := by
        rw [List.all_flatMap, List.all_eq_true]
        simp only [all_isChar_printAttribute]
      rw [listed]
      exact ⟨fun allowed => ⟨allowed.tag, allowed.attributes⟩, fun both => ⟨both.1, both.2⟩⟩
    have marks : isChar '<' = true ∧ isChar '>' = true ∧ isChar '/' = true ∧ isChar '\n' = true := by
      decide
    obtain ⟨less, greater, slash, line⟩ := marks
    rw [RoseTree.labels, List.forall_mem_cons, own, printInside]
    cases children with
    | nil => simp [greater, slash]
    | cons child children =>
      have inner : ((child :: children).flatMap fun child => indent (depth + 1) ++ '<' ::
          (printInside (depth + 1) child ++ ['\n'])).all isChar = true ↔
            ∀ label ∈ (child :: children).flatMap RoseTree.labels, label.Allowed := by
        rw [List.all_flatMap, List.all_eq_true]
        simp only [List.all_append, List.all_cons, all_isChar_indent, less, line, List.all_nil,
          Bool.and_true, Bool.true_and, List.mem_flatMap]
        constructor
        · rintro each label ⟨below, member, inside⟩
          exact (ih below member (depth + 1)).mp (each below member) label inside
        · intro each below member
          exact (ih below member (depth + 1)).mpr fun label inside => each label ⟨below, member, inside⟩
      rw [← inner]
      simp only [List.isEmpty_cons, Bool.false_eq_true, if_false, List.all_append, List.all_cons,
        all_isChar_indent, less, greater, slash, line, List.all_nil, Bool.and_true, Bool.true_and,
        Bool.and_eq_true]
      tauto

end Values

end Xml

end GeoWorld.Library
