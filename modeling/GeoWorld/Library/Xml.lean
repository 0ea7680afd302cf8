import Mathlib
import GeoWorld.Library.RoseTree

/-!
XML documents without a prolog: what is read of a text (elements with their attributes,
references, comments, processing instructions and CDATA sections), and texts of indented
elements. The reader keeps the elements and leaves the character data out.
-/

namespace GeoWorld.Library

namespace Xml

def quote : Char := Char.ofNat 34

def apostrophe : Char := Char.ofNat 39

section Characters

def between (low high : Nat) (c : Char) : Bool := decide (low ≤ c.toNat) && decide (c.toNat ≤ high)

/-- Production 2, `Char`. -/
def isChar (c : Char) : Bool :=
  c == '\t' || c == '\n' || c == '\r' || between 0x20 0xD7FF c || between 0xE000 0xFFFD c ||
    between 0x10000 0x10FFFF c

/-- Production 3, `S`. -/
def isSpace (c : Char) : Bool := c == ' ' || c == '\t' || c == '\n' || c == '\r'

/-- Production 4, `NameStartChar`. -/
def isNameStart (c : Char) : Bool :=
  c == ':' || between 65 90 c || c == '_' || between 97 122 c || between 0xC0 0xD6 c ||
    between 0xD8 0xF6 c || between 0xF8 0x2FF c || between 0x370 0x37D c ||
    between 0x37F 0x1FFF c || between 0x200C 0x200D c || between 0x2070 0x218F c ||
    between 0x2C00 0x2FEF c || between 0x3001 0xD7FF c || between 0xF900 0xFDCF c ||
    between 0xFDF0 0xFFFD c || between 0x10000 0xEFFFF c

/-- Production 4a, `NameChar`. -/
def isNameChar (c : Char) : Bool :=
  isNameStart c || c == '-' || c == '.' || between 48 57 c || c.toNat == 0xB7 ||
    between 0x300 0x36F c || between 0x203F 0x2040 c

/-- Production 5, `Name`. -/
def isName : List Char → Bool
  | [] => false
  | first :: rest => isNameStart first && rest.all isNameChar

end Characters

structure Label where
  tag : List Char
  attributes : List (List Char × List Char) := []
  deriving DecidableEq

abbrev Element := RoseTree Label

section Reading

/-- The text behind an opening. -/
def after : List Char → List Char → Option (List Char)
  | [], text => some text
  | _ :: _, [] => none
  | mark :: opening, c :: text => if mark = c then after opening text else none

/-- The text behind the first occurrence of an ending. -/
def behind (ending : List Char) : List Char → Option (List Char)
  | [] => none
  | c :: text => (after ending (c :: text)).or (behind ending text)

def readName : List Char → Option (List Char × List Char)
  | [] => none
  | first :: rest =>
    if isNameStart first then
      some (first :: rest.takeWhile isNameChar, rest.dropWhile isNameChar)
    else none

def digit (base : Nat) (c : Char) : Option Nat :=
  let value := if between 48 57 c then c.toNat - 48
    else if between 65 70 c then c.toNat - 55
    else if between 97 102 c then c.toNat - 87 else base
  if value < base then some value else none

/-- The character of a number, if it is one that a document may hold. -/
def numbered (base : Nat) (digits : List Char) : Option Char :=
  if digits.isEmpty then none
  else (digits.foldlM (fun number c => (digit base c).map (number * base + ·)) 0).bind
    fun number => if number.isValidChar ∧ isChar (Char.ofNat number) then some (Char.ofNat number)
      else none

/-- The predefined entities and the character references. -/
def referenced (body : List Char) : Option Char :=
  if body = ['a', 'm', 'p'] then some '&'
  else if body = ['l', 't'] then some '<'
  else if body = ['g', 't'] then some '>'
  else if body = ['q', 'u', 'o', 't'] then some quote
  else if body = ['a', 'p', 'o', 's'] then some apostrophe
  else match after ['#', 'x'] body with
    | some digits => numbered 16 digits
    | none => (after ['#'] body).bind (numbered 10)

/-- The line ends `\r\n` and `\r`, the first without its `\r`. -/
def lineEnds : List Char → List Char
  | [] => []
  | c :: text => if c = '\r' ∧ text.head? = some '\n' then lineEnds text else c :: lineEnds text

def spaced (c : Char) : Char := if isSpace c then ' ' else c

/-- The value between the quotes, with the reference that is open, its characters backward. -/
def expand : Option (List Char) → List Char → Option (List Char)
  | none, [] => some []
  | some _, [] => none
  | none, c :: text =>
    if c = '&' then expand (some []) text
    else if c = '<' then none
    else (expand none text).map (spaced c :: ·)
  | some body, c :: text =>
    if c = ';' then (referenced body.reverse).bind fun found => (expand none text).map (found :: ·)
    else expand (some (c :: body)) text

def readValue : List Char → Option (List Char × List Char)
  | [] => none
  | mark :: text =>
    if mark = quote ∨ mark = apostrophe then
      (after [mark] (text.dropWhile (· ≠ mark))).bind fun rest =>
        (expand none (lineEnds (text.takeWhile (· ≠ mark)))).map fun value => (value, rest)
    else none

def readAttribute (text : List Char) : Option ((List Char × List Char) × List Char) :=
  (readName text).bind fun name =>
    (after ['='] (name.2.dropWhile isSpace)).bind fun rest =>
      (readValue (rest.dropWhile isSpace)).map fun value => ((name.1, value.1), value.2)

/-- The attributes of a start tag, and whether it is the tag of an empty element. -/
def readAttributes : Nat → List Char →
    Option (List (List Char × List Char) × Bool × List Char)
  | 0, _ => none
  | fuel + 1, text =>
    let inside := text.dropWhile isSpace
    match after ['>'] inside with
    | some rest => some ([], false, rest)
    | none =>
      match after ['/', '>'] inside with
      | some rest => some ([], true, rest)
      | none =>
        if inside.length = text.length then none
        else (readAttribute inside).bind fun pair =>
          (readAttributes fuel pair.2).map fun others =>
            (pair.1 :: others.1, others.2)

/-- The text behind a comment, from behind its `<!--`. -/
def skipComment (text : List Char) : Option (List Char) :=
  (behind ['-', '-'] text).bind (after ['>'])

/-- A comment or a CDATA section, from behind its `<!`. -/
def skipDeclaration (text : List Char) : Option (List Char) :=
  match after ['-', '-'] text with
  | some rest => skipComment rest
  | none => (after ['[', 'C', 'D', 'A', 'T', 'A', '['] text).bind (behind [']', ']', '>'])

/-- A processing instruction, from behind its `<?`. -/
def skipInstruction (text : List Char) : Option (List Char) :=
  (readName text).bind fun target =>
    if target.1.map Char.toLower = ['x', 'm', 'l'] then none
    else (after ['?', '>'] target.2).or
      (if target.2.head?.any isSpace then behind ['?', '>'] target.2 else none)

/-- A reference in the content, from behind its `&`. -/
def skipReference (text : List Char) : Option (List Char) :=
  (referenced (text.takeWhile (· ≠ ';'))).bind fun _ => after [';'] (text.dropWhile (· ≠ ';'))

mutual

/-- An element, from behind its `<`. -/
def readElement : Nat → List Char → Option (Element × List Char)
  | 0, _ => none
  | fuel + 1, text =>
    (readName text).bind fun name =>
      (readAttributes (name.2.length + 1) name.2).bind fun attributes =>
        if ¬ (attributes.1.map Prod.fst).Nodup then none
        else if attributes.2.1 then some (.node ⟨name.1, attributes.1⟩ [], attributes.2.2)
        else (readContent fuel attributes.2.2).bind fun content =>
          (readName content.2).bind fun closing =>
            (after ['>'] (closing.2.dropWhile isSpace)).bind fun rest =>
              if closing.1 = name.1 then some (.node ⟨name.1, attributes.1⟩ content.1, rest)
              else none

/-- The content of an element up to the `</` of its end tag. -/
def readContent : Nat → List Char → Option (List Element × List Char)
  | 0, _ => none
  | _ + 1, [] => none
  | fuel + 1, c :: text =>
    if c = '<' then
      if text.head? = some '/' then some ([], text.tail)
      else if text.head? = some '!' then (skipDeclaration text.tail).bind (readContent fuel)
      else if text.head? = some '?' then (skipInstruction text.tail).bind (readContent fuel)
      else (readElement fuel text).bind fun child =>
        (readContent fuel child.2).map fun others => (child.1 :: others.1, others.2)
    else if c = '&' then (skipReference text).bind (readContent fuel)
    else if (after [']', ']', '>'] (c :: text)).isSome then none
    else readContent fuel text

end

/-- Spaces, comments and processing instructions behind the document element. -/
def onlyMisc : Nat → List Char → Bool
  | 0, _ => false
  | _ + 1, [] => true
  | fuel + 1, c :: text =>
    if isSpace c then onlyMisc fuel text
    else match after ['<', '!', '-', '-'] (c :: text) with
      | some rest => (skipComment rest).any (onlyMisc fuel)
      | none => ((after ['<', '?'] (c :: text)).bind skipInstruction).any (onlyMisc fuel)

/-- The document element of a well-formed text. -/
def read (text : List Char) : Option Element :=
  if text.all isChar then
    (after ['<'] text).bind fun inside =>
      (readElement (inside.length + 1) inside).bind fun element =>
        if onlyMisc (element.2.length + 1) element.2 then some element.1 else none
  else none

end Reading

section Printing

def escapeChar (c : Char) : List Char :=
  if c = '&' then ['&', 'a', 'm', 'p', ';']
  else if c = '<' then ['&', 'l', 't', ';']
  else if c = '>' then ['&', 'g', 't', ';']
  else if c = quote then ['&', 'q', 'u', 'o', 't', ';']
  else if c = apostrophe then ['&', 'a', 'p', 'o', 's', ';']
  else [c]

def escape (value : List Char) : List Char := value.flatMap escapeChar

def printAttribute (pair : List Char × List Char) : List Char :=
  ' ' :: (pair.1 ++ '=' :: quote :: (escape pair.2 ++ [quote]))

def indent (depth : Nat) : List Char := List.replicate (2 * depth) ' '

/-- An element from behind its `<` to its end. -/
def printInside (depth : Nat) : Element → List Char
  | .node label children =>
    label.tag ++ (label.attributes.flatMap printAttribute ++
      if children.isEmpty then ['/', '>']
      else '>' :: '\n' ::
        (children.flatMap (fun child => indent (depth + 1) ++ '<' ::
          (printInside (depth + 1) child ++ ['\n'])) ++
          (indent depth ++ '<' :: '/' :: (label.tag ++ ['>']))))

/-- An element on lines of its own. -/
def print (depth : Nat) (element : Element) : List Char :=
  indent depth ++ '<' :: (printInside depth element ++ ['\n'])

end Printing

/-- What well-formedness asks of a tag. -/
structure Label.Legal (label : Label) : Prop where
  tag : isName label.tag = true
  names : ∀ pair ∈ label.attributes, isName pair.1 = true
  distinct : (label.attributes.map Prod.fst).Nodup

/-- The value that the reader reports for a printed one. -/
def normal (value : List Char) : List Char := (lineEnds value).map spaced

def Label.normal (label : Label) : Label :=
  { label with attributes := label.attributes.map fun pair =>
    (pair.1, Xml.normal pair.2) }

end Xml

end GeoWorld.Library
