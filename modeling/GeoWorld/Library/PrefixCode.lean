import Mathlib
import GeoWorld.Library.LittleEndian

/-!
Self-delimiting byte codes. A value is read off the front of any byte string it was
written to, and what follows it is left. Codes of parts give codes of wholes.
-/

namespace GeoWorld.Library

structure PrefixCode (α : Type) where
  write : α → List UInt8
  read : List UInt8 → Option (α × List UInt8)
  exact : ∀ value rest, read (write value ++ rest) = some (value, rest)

namespace PrefixCode

variable {α β : Type}

/-- A value that stands alone. -/
def readAll (code : PrefixCode α) (bytes : List UInt8) : Option α :=
  match code.read bytes with
  | some (value, []) => some value
  | _ => none

theorem readAll_write (code : PrefixCode α) (value : α) :
    code.readAll (code.write value) = some value := by
  have exact := code.exact value []
  rw [List.append_nil] at exact
  simp [readAll, exact]

/-- Another type with the same values. -/
def via (code : PrefixCode α) (pack : α → β) (unpack : β → α)
    (inverse : ∀ value, pack (unpack value) = value) : PrefixCode β where
  write value := code.write (unpack value)
  read bytes := (code.read bytes).map fun result => (pack result.1, result.2)
  exact value rest := by simp [code.exact, inverse]

def pair (first : PrefixCode α) (second : PrefixCode β) : PrefixCode (α × β) where
  write value := first.write value.1 ++ second.write value.2
  read bytes := (first.read bytes).bind fun left =>
    (second.read left.2).map fun right => ((left.1, right.1), right.2)
  exact value rest := by simp [List.append_assoc, first.exact, second.exact]

/-- `width` bytes, for values that fit. -/
def fixed (width : Nat) : PrefixCode { value : Nat // value < 256 ^ width } where
  write value := bytesLE width value
  read bytes :=
    if enough : width ≤ bytes.length then
      some (⟨valueLE (bytes.take width), by
        have bound := valueLE_lt (bytes.take width)
        rwa [List.length_take, min_eq_left enough] at bound⟩, bytes.drop width)
    else none
  exact value rest := by
    have length := bytesLE_length width value
    have front : (bytesLE width value ++ rest).take width = bytesLE width value := by
      rw [List.take_append_of_le_length length.ge, List.take_of_length_le length.le]
    have back : (bytesLE width value ++ rest).drop width = rest := by
      rw [List.drop_append_of_le_length length.ge, List.drop_of_length_le length.le,
        List.nil_append]
    simp [length, front, back, valueLE_bytesLE width value value.2]

def choice (code : PrefixCode α) : PrefixCode (Option α) where
  write
    | none => [0]
    | some value => 1 :: code.write value
  read
    | [] => none
    | tag :: bytes =>
      if tag = 0 then some (none, bytes)
      else (code.read bytes).map fun result => (some result.1, result.2)
  exact value rest := by
    cases value with
    | none => rfl
    | some value => simp [code.exact]

/-- Every item behind a one, and a zero at the end. -/
def writeList (code : PrefixCode α) : List α → List UInt8
  | [] => [0]
  | item :: rest => 1 :: (code.write item ++ writeList code rest)

/-- Every item takes at least one unit of fuel. -/
def readList (code : PrefixCode α) : Nat → List UInt8 → Option (List α × List UInt8)
  | 0, _ => none
  | _ + 1, [] => none
  | fuel + 1, tag :: bytes =>
    if tag = 0 then some ([], bytes)
    else (code.read bytes).bind fun item =>
      (readList code fuel item.2).map fun later => (item.1 :: later.1, later.2)

theorem readList_writeList (code : PrefixCode α) (items : List α) (rest : List UInt8)
    {fuel : Nat} (enough : items.length < fuel) :
    readList code fuel (writeList code items ++ rest) = some (items, rest) := by
  induction items generalizing fuel with
  | nil =>
    obtain ⟨fuel, rfl⟩ := Nat.exists_eq_succ_of_ne_zero (Nat.ne_of_gt enough)
    rfl
  | cons item later ih =>
    obtain ⟨fuel, rfl⟩ := Nat.exists_eq_succ_of_ne_zero (Nat.ne_of_gt (Nat.zero_lt_of_lt enough))
    have shorter : later.length < fuel := by
      simp only [List.length_cons] at enough
      omega
    simp [writeList, readList, List.append_assoc, code.exact, ih shorter]

theorem length_lt_writeList (code : PrefixCode α) (items : List α) :
    items.length < (writeList code items).length := by
  induction items with
  | nil => simp [writeList]
  | cons item rest ih =>
    simp only [writeList, List.length_cons, List.length_append]
    omega

def list (code : PrefixCode α) : PrefixCode (List α) where
  write := writeList code
  read bytes := readList code bytes.length bytes
  exact items rest := by
    refine readList_writeList code items rest ?_
    have longer := length_lt_writeList code items
    rw [List.length_append]
    omega

end PrefixCode

end GeoWorld.Library
