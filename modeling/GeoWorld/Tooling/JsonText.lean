import Mathlib
import GeoWorld.Library.Binary64
import GeoWorld.Tooling.ArtifactCode

/-!
JSON texts over any way to quote a text and to spell a double. Values that differ in their
finite doubles only have different texts.
-/

namespace GeoWorld.Tooling

open WorldModel Library

/-- How `dump` writes texts and doubles; `none` where it throws on a text that is not UTF-8. -/
structure JsonTexts where
  quoted : ByteString → Option ByteString
  real : UInt64 → ByteString

def numberCharacters : ByteString := utf8 "+-.0123456789e"

structure JsonTexts.Faithful (texts : JsonTexts) : Prop where
  injective : ∀ left right, Binary64.isFinite left = true → Binary64.isFinite right = true →
    texts.real left = texts.real right → left = right
  number : ∀ bits, Binary64.isFinite bits = true → ∀ character ∈ texts.real bits,
    character ∈ numberCharacters

mutual

def JsonTexts.dump (texts : JsonTexts) : Json → Option ByteString
  | .text value => texts.quoted value
  | .unsigned value => some (decimal value.toNat)
  | .integer value => some (decimal value.toInt)
  | .real bits => some (texts.real bits)
  | .array items =>
    (texts.dumpItems items).map fun inner => utf8 "[" ++ joined inner ++ utf8 "]"
  | .object entries =>
    (texts.dumpEntries entries).map fun inner => utf8 "\x7b" ++ joined inner ++ utf8 "\x7d"

def JsonTexts.dumpItems (texts : JsonTexts) : List Json → Option (List ByteString)
  | [] => some []
  | item :: rest => (texts.dump item).bind fun text => (texts.dumpItems rest).map (text :: ·)

def JsonTexts.dumpEntries (texts : JsonTexts) :
    List (ByteString × Json) → Option (List ByteString)
  | [] => some []
  | (key, value) :: rest => (texts.quoted key).bind fun name => (texts.dump value).bind fun text =>
    (texts.dumpEntries rest).map ((name ++ utf8 ":" ++ text) :: ·)

end

mutual

/-- The value with its doubles changed. -/
def Json.mapReal (change : UInt64 → UInt64) : Json → Json
  | .real bits => .real (change bits)
  | .array items => .array (mapItems change items)
  | .object entries => .object (mapEntries change entries)
  | value => value

def Json.mapItems (change : UInt64 → UInt64) : List Json → List Json
  | [] => []
  | item :: rest => item.mapReal change :: mapItems change rest

def Json.mapEntries (change : UInt64 → UInt64) : List (ByteString × Json) → List (ByteString × Json)
  | [] => []
  | (key, value) :: rest => (key, value.mapReal change) :: mapEntries change rest

end

mutual

def Json.reals : Json → List UInt64
  | .real bits => [bits]
  | .array items => realsItems items
  | .object entries => realsEntries entries
  | _ => []

def Json.realsItems : List Json → List UInt64
  | [] => []
  | item :: rest => item.reals ++ realsItems rest

def Json.realsEntries : List (ByteString × Json) → List UInt64
  | [] => []
  | (_, value) :: rest => value.reals ++ realsEntries rest

end

theorem Json.mapItems_eq (change : UInt64 → UInt64) (items : List Json) :
    mapItems change items = items.map (mapReal change) := by
  induction items with
  | nil => rfl
  | cons item rest ih => rw [mapItems, ih, List.map_cons]

theorem Json.mapEntries_eq (change : UInt64 → UInt64) (entries : List (ByteString × Json)) :
    mapEntries change entries = entries.map fun entry => (entry.1, entry.2.mapReal change) := by
  induction entries with
  | nil => rfl
  | cons entry rest ih => rw [mapEntries, ih, List.map_cons]

theorem Json.realsItems_eq (items : List Json) : realsItems items = items.flatMap reals := by
  induction items with
  | nil => rfl
  | cons item rest ih => rw [realsItems, ih, List.flatMap_cons]

section Texts

variable {texts : JsonTexts} {change : UInt64 → UInt64}
variable {text text' after after' : ByteString} {inner inner' : List ByteString}

/-- What can follow a number. -/
def Delimited (after : ByteString) : Prop :=
  ∀ character ∈ after.head?, character ∉ numberCharacters

theorem takeWhile_number (number : ∀ character ∈ text, character ∈ numberCharacters)
    (ends : Delimited after) :
    (text ++ after).takeWhile (fun character => decide (character ∈ numberCharacters)) = text := by
  rw [List.takeWhile_append_of_pos fun character member => decide_eq_true (number character member)]
  cases after with
  | nil => exact List.append_nil text
  | cons character after =>
    have stop : character ∉ numberCharacters := ends character rfl
    rw [List.takeWhile_cons_of_neg (by simpa using stop), List.append_nil]

theorem number_split (number : ∀ character ∈ text, character ∈ numberCharacters)
    (number' : ∀ character ∈ text', character ∈ numberCharacters)
    (ends : Delimited after) (ends' : Delimited after') (equal : text ++ after = text' ++ after') :
    text = text' ∧ after = after' := by
  have same : text = text' := by
    rw [← takeWhile_number number ends, equal, takeWhile_number number' ends']
  subst same
  exact ⟨rfl, List.append_cancel_left equal⟩

def comma (text : ByteString) : ByteString := utf8 "," ++ text

theorem comma_joined (text : ByteString) (inner : List ByteString) :
    comma (joined (text :: inner)) = (text :: inner).flatMap comma := by
  induction inner generalizing text with
  | nil => simp [joined, comma]
  | cons next inner ih =>
    rw [List.flatMap_cons, ← ih next]
    simp [joined, comma, List.intersperse_cons_cons]

theorem delimited_close (mark : UInt8) (other : mark ∉ numberCharacters) (after : ByteString) :
    Delimited (mark :: after) := by
  rintro character first
  obtain rfl := Option.some.inj first
  exact other

theorem utf8_marks : utf8 "," = [44] ∧ utf8 "]" = [93] ∧ utf8 "\x7d" = [125] ∧
    (44 : UInt8) ∉ numberCharacters ∧ (93 : UInt8) ∉ numberCharacters ∧
      (125 : UInt8) ∉ numberCharacters := by
  decide +kernel

theorem delimited_comma (ends : Delimited after) (inner : List ByteString) :
    Delimited (inner.flatMap comma ++ after) := by
  cases inner with
  | nil => exact ends
  | cons text inner =>
    rw [List.flatMap_cons, comma, utf8_marks.1]
    exact delimited_close 44 utf8_marks.2.2.2.1 _

/-- Between two marks stand as many texts on both sides. -/
theorem joined_split (size : inner.length = inner'.length)
    (equal : joined inner ++ after = joined inner' ++ after') :
    inner.flatMap comma ++ after = inner'.flatMap comma ++ after' := by
  cases inner with
  | nil =>
    obtain rfl := List.length_eq_zero_iff.mp size.symm
    exact equal
  | cons text inner =>
    cases inner' with
    | nil => cases size
    | cons text' inner' =>
      rw [← comma_joined, ← comma_joined, comma, comma, List.append_assoc, List.append_assoc, equal]

/-- Two values of one shape with one text are the same, and so is what follows them. -/
def Json.Determined (texts : JsonTexts) (change : UInt64 → UInt64) (value : Json) : Prop :=
  ∀ text text' after after', texts.dump value = some text →
    texts.dump (value.mapReal change) = some text' → Delimited after → Delimited after' →
      text ++ after = text' ++ after' → value.mapReal change = value ∧ after = after'

theorem dumpItems_cons {item : Json} {rest : List Json}
    (dumped : texts.dumpItems (item :: rest) = some inner) :
    ∃ text others, texts.dump item = some text ∧ texts.dumpItems rest = some others ∧
      inner = text :: others := by
  obtain ⟨text, first, more⟩ := Option.bind_eq_some_iff.mp dumped
  obtain ⟨others, listed, rfl⟩ := Option.map_eq_some_iff.mp more
  exact ⟨text, others, first, listed, rfl⟩

theorem dumpEntries_cons {entry : ByteString × Json} {rest : List (ByteString × Json)}
    (dumped : texts.dumpEntries (entry :: rest) = some inner) :
    ∃ name text others, texts.quoted entry.1 = some name ∧ texts.dump entry.2 = some text ∧
      texts.dumpEntries rest = some others ∧ inner = (name ++ utf8 ":" ++ text) :: others := by
  obtain ⟨name, named, more⟩ := Option.bind_eq_some_iff.mp dumped
  obtain ⟨text, first, more⟩ := Option.bind_eq_some_iff.mp more
  obtain ⟨others, listed, rfl⟩ := Option.map_eq_some_iff.mp more
  exact ⟨name, text, others, named, first, listed, rfl⟩

theorem dumpItems_length {items : List Json} (dumped : texts.dumpItems items = some inner) :
    inner.length = items.length := by
  induction items generalizing inner with
  | nil =>
    obtain rfl := Option.some.inj dumped
    rfl
  | cons item rest ih =>
    obtain ⟨text, inner, -, listed, rfl⟩ := dumpItems_cons dumped
    rw [List.length_cons, List.length_cons, ih listed]

theorem dumpEntries_length {entries : List (ByteString × Json)}
    (dumped : texts.dumpEntries entries = some inner) : inner.length = entries.length := by
  induction entries generalizing inner with
  | nil =>
    obtain rfl := Option.some.inj dumped
    rfl
  | cons entry rest ih =>
    obtain ⟨name, text, inner, -, -, listed, rfl⟩ := dumpEntries_cons dumped
    rw [List.length_cons, List.length_cons, ih listed]

theorem items_split {items : List Json} (determined : ∀ item ∈ items, item.Determined texts change)
    (dumped : texts.dumpItems items = some inner)
    (dumped' : texts.dumpItems (Json.mapItems change items) = some inner')
    (ends : Delimited after) (ends' : Delimited after')
    (equal : inner.flatMap comma ++ after = inner'.flatMap comma ++ after') :
    Json.mapItems change items = items ∧ after = after' := by
  induction items generalizing inner inner' with
  | nil =>
    obtain rfl := Option.some.inj dumped
    obtain rfl := Option.some.inj dumped'
    exact ⟨rfl, equal⟩
  | cons item rest ih =>
    rw [List.forall_mem_cons] at determined
    obtain ⟨text, inner, first, listed, rfl⟩ := dumpItems_cons dumped
    obtain ⟨text', inner', first', listed', rfl⟩ := dumpItems_cons dumped'
    simp only [List.flatMap_cons, comma, List.append_assoc] at equal
    obtain ⟨same, equal⟩ := determined.1 text text' _ _ first first'
      (delimited_comma ends inner) (delimited_comma ends' inner') (List.append_cancel_left equal)
    obtain ⟨others, rest_eq⟩ := ih determined.2 listed listed' equal
    exact ⟨by rw [Json.mapItems, same, others], rest_eq⟩

theorem entries_split {entries : List (ByteString × Json)}
    (determined : ∀ entry ∈ entries, entry.2.Determined texts change)
    (dumped : texts.dumpEntries entries = some inner)
    (dumped' : texts.dumpEntries (Json.mapEntries change entries) = some inner')
    (ends : Delimited after) (ends' : Delimited after')
    (equal : inner.flatMap comma ++ after = inner'.flatMap comma ++ after') :
    Json.mapEntries change entries = entries ∧ after = after' := by
  induction entries generalizing inner inner' with
  | nil =>
    obtain rfl := Option.some.inj dumped
    obtain rfl := Option.some.inj dumped'
    exact ⟨rfl, equal⟩
  | cons entry rest ih =>
    rw [List.forall_mem_cons] at determined
    obtain ⟨name, text, inner, named, first, listed, rfl⟩ := dumpEntries_cons dumped
    obtain ⟨name', text', inner', named', first', listed', rfl⟩ := dumpEntries_cons dumped'
    obtain rfl : name = name' := Option.some.inj (named.symm.trans named')
    simp only [List.flatMap_cons, comma, List.append_assoc, List.append_cancel_left_eq] at equal
    obtain ⟨same, equal⟩ := determined.1 text text' _ _ first first'
      (delimited_comma ends inner) (delimited_comma ends' inner') equal
    obtain ⟨others, rest_eq⟩ := ih determined.2 listed listed' equal
    exact ⟨by rw [Json.mapEntries, same, others], rest_eq⟩

theorem determined_array {items : List Json}
    (determined : ∀ item ∈ items, item.Determined texts change) :
    (Json.array items).Determined texts change := by
  intro text text' after after' dumped dumped' _ _ equal
  obtain ⟨inner, listed, rfl⟩ := Option.map_eq_some_iff.mp dumped
  obtain ⟨inner', listed', rfl⟩ := Option.map_eq_some_iff.mp dumped'
  have size : inner.length = inner'.length := by
    rw [dumpItems_length listed, dumpItems_length listed', Json.mapItems_eq, List.length_map]
  simp only [List.append_assoc, List.append_cancel_left_eq] at equal
  have closed : ∀ after : ByteString, Delimited (utf8 "]" ++ after) := fun after => by
    rw [utf8_marks.2.1]
    exact delimited_close 93 utf8_marks.2.2.2.2.1 after
  obtain ⟨same, rest⟩ := items_split determined listed listed' (closed after) (closed after')
    (joined_split size equal)
  exact ⟨by rw [Json.mapReal, same], List.append_cancel_left rest⟩

theorem determined_object {entries : List (ByteString × Json)}
    (determined : ∀ entry ∈ entries, entry.2.Determined texts change) :
    (Json.object entries).Determined texts change := by
  intro text text' after after' dumped dumped' _ _ equal
  obtain ⟨inner, listed, rfl⟩ := Option.map_eq_some_iff.mp dumped
  obtain ⟨inner', listed', rfl⟩ := Option.map_eq_some_iff.mp dumped'
  have size : inner.length = inner'.length := by
    rw [dumpEntries_length listed, dumpEntries_length listed', Json.mapEntries_eq, List.length_map]
  simp only [List.append_assoc, List.append_cancel_left_eq] at equal
  have closed : ∀ after : ByteString, Delimited (utf8 "\x7d" ++ after) := fun after => by
    rw [utf8_marks.2.2.1]
    exact delimited_close 125 utf8_marks.2.2.2.2.2 after
  obtain ⟨same, rest⟩ := entries_split determined listed listed' (closed after) (closed after')
    (joined_split size equal)
  exact ⟨by rw [Json.mapReal, same], List.append_cancel_left rest⟩

mutual

theorem Json.determined (faithful : texts.Faithful) : (value : Json) →
    (∀ bits ∈ value.reals, Binary64.isFinite bits = true ∧
      Binary64.isFinite (change bits) = true) → value.Determined texts change
  | .real bits, finite => by
    intro text text' after after' dumped dumped' ends ends' equal
    obtain rfl := Option.some.inj dumped
    obtain rfl := Option.some.inj dumped'
    obtain ⟨before, changed⟩ := finite bits (List.mem_singleton_self bits)
    obtain ⟨same, rest⟩ := number_split (faithful.number bits before)
      (faithful.number (change bits) changed) ends ends' equal
    exact ⟨by rw [Json.mapReal, ← faithful.injective bits _ before changed same], rest⟩
  | .array items, finite => determined_array (Json.determinedItems faithful items finite)
  | .object entries, finite => determined_object (Json.determinedEntries faithful entries finite)
  | .text value, _ => by
    rintro text text' after after' dumped dumped' - - equal
    obtain rfl : text = text' := Option.some.inj (dumped.symm.trans dumped')
    exact ⟨rfl, List.append_cancel_left equal⟩
  | .unsigned value, _ => by
    rintro text text' after after' dumped dumped' - - equal
    obtain rfl : text = text' := Option.some.inj (dumped.symm.trans dumped')
    exact ⟨rfl, List.append_cancel_left equal⟩
  | .integer value, _ => by
    rintro text text' after after' dumped dumped' - - equal
    obtain rfl : text = text' := Option.some.inj (dumped.symm.trans dumped')
    exact ⟨rfl, List.append_cancel_left equal⟩

theorem Json.determinedItems (faithful : texts.Faithful) : (items : List Json) →
    (∀ bits ∈ realsItems items, Binary64.isFinite bits = true ∧
      Binary64.isFinite (change bits) = true) → ∀ item ∈ items, item.Determined texts change
  | [], _ => nofun
  | item :: rest, finite => by
    rw [realsItems, List.forall_mem_append] at finite
    exact List.forall_mem_cons.mpr
      ⟨Json.determined faithful item finite.1, Json.determinedItems faithful rest finite.2⟩

theorem Json.determinedEntries (faithful : texts.Faithful) : (entries : List (ByteString × Json)) →
    (∀ bits ∈ realsEntries entries, Binary64.isFinite bits = true ∧
      Binary64.isFinite (change bits) = true) → ∀ entry ∈ entries, entry.2.Determined texts change
  | [], _ => nofun
  | (key, value) :: rest, finite => by
    rw [realsEntries, List.forall_mem_append] at finite
    exact List.forall_mem_cons.mpr
      ⟨Json.determined faithful value finite.1, Json.determinedEntries faithful rest finite.2⟩

end

end Texts

end GeoWorld.Tooling
