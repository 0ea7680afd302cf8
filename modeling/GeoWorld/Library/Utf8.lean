import Mathlib

/-!
The UTF-8 bytes of a text. Different texts have different bytes, and bytes on both sides of an
ASCII byte are those of texts whenever the whole is.
-/

namespace GeoWorld.Library

namespace Utf8

def bytes (text : List Char) : List UInt8 := text.flatMap String.utf8EncodeChar

/-- The bytes are those of some text. -/
def Valid (encoded : List UInt8) : Prop := ∃ text, encoded = bytes text

variable {before after encoded : List UInt8} {byte : UInt8} {text : List Char} {c : Char}

@[simp] theorem bytes_nil : bytes [] = [] := rfl

theorem bytes_cons (c : Char) (text : List Char) :
    bytes (c :: text) = String.utf8EncodeChar c ++ bytes text := rfl

theorem bytes_append (first second : List Char) : bytes (first ++ second) =
    bytes first ++ bytes second := List.flatMap_append

theorem bytes_injective : Function.Injective bytes := by
  intro first second same
  have encoded : first.utf8Encode = second.utf8Encode := congrArg List.toByteArray same
  exact String.ofList_injective (String.toByteArray_inj.mp (by simpa using encoded))

/-- A character is one byte below 128 or several from 128 on. -/
theorem encodeChar_cases (c : Char) :
    c.toNat < 128 ∧ String.utf8EncodeChar c = [UInt8.ofNat c.toNat] ∨
      128 ≤ c.toNat ∧ ∀ byte ∈ String.utf8EncodeChar c, 128 ≤ byte.toNat := by
  have value : c.toNat = c.val.toNat := rfl
  unfold String.utf8EncodeChar
  simp only [value]
  split
  · exact .inl ⟨by omega, rfl⟩
  · refine .inr ⟨by omega, ?_⟩
    split
    · simp only [List.forall_mem_cons, UInt8.toNat_ofNat']
      exact ⟨by omega, by omega, nofun⟩
    · split
      · simp only [List.forall_mem_cons, UInt8.toNat_ofNat']
        exact ⟨by omega, by omega, by omega, nofun⟩
      · simp only [List.forall_mem_cons, UInt8.toNat_ofNat']
        exact ⟨by omega, by omega, by omega, by omega, nofun⟩

theorem encodeChar_ne_nil (c : Char) : String.utf8EncodeChar c ≠ [] :=
  String.utf8EncodeChar_ne_nil

/-- A text is cut before an ASCII byte. -/
theorem cut (ascii : byte.toNat < 128) (whole : bytes text = before ++ byte :: after) :
    ∃ first rest, text = first ++ rest ∧ before = bytes first ∧ byte :: after = bytes rest := by
  induction text generalizing before with
  | nil => simp at whole
  | cons c text ih =>
    cases before with
    | nil => exact ⟨[], c :: text, rfl, rfl, whole.symm⟩
    | cons head before =>
      rw [bytes_cons] at whole
      rcases List.append_eq_append_iff.mp whole with ⟨tail, split, rest⟩ | ⟨tail, split, rest⟩
      · obtain ⟨first, last, rfl, rfl, found⟩ := ih rest
        exact ⟨c :: first, last, rfl, split, found⟩
      · cases tail with
        | nil =>
          rw [List.append_nil] at split
          exact ⟨[c], text, rfl, by rw [← split, bytes_cons, bytes_nil, List.append_nil],
            by simpa using rest⟩
        | cons inner tail =>
          -- the byte would stand inside the character
          obtain ⟨rfl, -⟩ := List.cons.inj rest
          rcases encodeChar_cases c with ⟨-, single⟩ | ⟨-, high⟩
          · rw [single] at split
            simp at split
          · have inside := high byte (by rw [split]; simp)
            omega

theorem encodeChar_ascii (ascii : byte.toNat < 128) :
    String.utf8EncodeChar (Char.ofNat byte.toNat) = [byte] := by
  have valid : byte.toNat.isValidChar := .inl (by omega)
  have value : (Char.ofNat byte.toNat).toNat = byte.toNat := by
    rw [Char.ofNat, dif_pos valid]
    rfl
  rcases encodeChar_cases (Char.ofNat byte.toNat) with ⟨-, single⟩ | ⟨high, -⟩
  · rw [single, value, UInt8.ofNat_toNat]
  · omega

theorem valid_nil : Valid [] := ⟨[], rfl⟩

theorem Valid.append (first : Valid before) (second : Valid after) : Valid (before ++ after) := by
  obtain ⟨left, rfl⟩ := first
  obtain ⟨right, rfl⟩ := second
  exact ⟨left ++ right, (bytes_append left right).symm⟩

theorem valid_cons_ascii (ascii : byte.toNat < 128) : Valid (byte :: after) ↔ Valid after := by
  constructor
  · rintro ⟨text, whole⟩
    cases text with
    | nil => cases whole
    | cons c text =>
      rw [bytes_cons] at whole
      rcases encodeChar_cases c with ⟨-, single⟩ | ⟨-, high⟩
      · rw [single] at whole
        exact ⟨text, (List.cons.inj whole).2⟩
      · cases encoded : String.utf8EncodeChar c with
        | nil => exact absurd encoded (encodeChar_ne_nil c)
        | cons head tail =>
          rw [encoded] at whole high
          obtain ⟨rfl, -⟩ := List.cons.inj whole
          have inside := high byte List.mem_cons_self
          omega
  · rintro ⟨text, rfl⟩
    exact ⟨Char.ofNat byte.toNat :: text, by rw [bytes_cons, encodeChar_ascii ascii]; rfl⟩

theorem valid_append_plain (ascii : ∀ byte ∈ before, byte.toNat < 128) :
    Valid (before ++ after) ↔ Valid after := by
  induction before with
  | nil => rfl
  | cons byte before ih =>
    rw [List.forall_mem_cons] at ascii
    rw [List.cons_append, valid_cons_ascii ascii.1, ih ascii.2]

/-- Bytes on both sides of an ASCII byte. -/
theorem valid_append_ascii (ascii : byte.toNat < 128) :
    Valid (before ++ byte :: after) ↔ Valid before ∧ Valid (byte :: after) := by
  constructor
  · rintro ⟨text, whole⟩
    obtain ⟨first, rest, -, front, back⟩ := cut ascii whole.symm
    exact ⟨⟨first, front⟩, ⟨rest, back⟩⟩
  · rintro ⟨front, back⟩
    exact front.append back

end Utf8

end GeoWorld.Library
