import Mathlib
import GeoWorld.Library.DecimalWord
import GeoWorld.Persistence.WalCodec

/-!
The names of log segments: which names are read as the number of a first entry, and when such a
name is the one that is written for that number.
-/

namespace GeoWorld.Persistence

open Library

variable {name word : FileName} {lsn : Lsn}

theorem numeric_paddedDecimal (value : Nat) : DecimalWord.Numeric (paddedDecimal value) := by
  intro digit member
  rcases List.mem_append.mp member with padding | written
  · rw [List.eq_of_mem_replicate padding]
    rfl
  · exact Nat.isDigit_of_mem_toDigits (by decide) (by decide) written

theorem value_paddedDecimal (value : Nat) : DecimalWord.value (paddedDecimal value) = value := by
  rw [DecimalWord.value, paddedDecimal, List.leftpad, Nat.ofDigitChars_append,
    Nat.ofDigitChars_replicate_zero, mul_zero, decimal, Nat.ofDigitChars_ten_toDigits]

theorem numeric_of_parseDigits {digits : List Char} {start result : UInt64}
    (parsed : parseDigits start digits = some result) : DecimalWord.Numeric digits := by
  induction digits generalizing start with
  | nil => exact nofun
  | cons digit rest ih =>
    rw [parseDigits] at parsed
    split at parsed
    · cases parsed
    · rename_i inside
      rw [not_or, not_lt, not_lt] at inside
      exact List.forall_mem_cons.mpr ⟨DecimalWord.isDigit_iff.mpr inside, ih parsed⟩

/-- An accepted name is the prefix and twenty digits, read modulo 2^64. -/
theorem parseSegmentFileName_some (parsed : parseSegmentFileName name = some lsn) :
    name = segmentPrefix ++ name.drop segmentPrefix.length ∧
      (name.drop segmentPrefix.length).length = segmentDigits ∧
      DecimalWord.Numeric (name.drop segmentPrefix.length) ∧
      lsn = UInt64.ofNat (DecimalWord.value (name.drop segmentPrefix.length)) := by
  unfold parseSegmentFileName at parsed
  split at parsed
  · cases parsed
  · rename_i shape
    rw [not_or, not_not, not_not] at shape
    obtain ⟨read, -⟩ := Option.filter_eq_some_iff.mp parsed
    have numeric := numeric_of_parseDigits read
    refine ⟨?_, ?_, numeric, ?_⟩
    · conv_lhs => rw [← List.take_append_drop segmentPrefix.length name, shape.2]
    · rw [List.length_drop, shape.1]
      omega
    · exact Option.some.inj (read.symm.trans (parseDigits_eq numeric 0))

/-- A name that is read as a number is the name of that number if and only if its digits denote
a number below 2^64. -/
theorem segmentFileName_eq_iff (parsed : parseSegmentFileName name = some lsn) :
    segmentFileName lsn = name ↔
      DecimalWord.value (name.drop segmentPrefix.length) < 2 ^ 64 := by
  obtain ⟨shape, length, numeric, rfl⟩ := parseSegmentFileName_some parsed
  generalize name.drop segmentPrefix.length = word at shape length numeric ⊢
  subst shape
  constructor
  · intro named
    have written : paddedDecimal (UInt64.ofNat (DecimalWord.value word)).toNat = word :=
      List.append_cancel_left named
    have value_eq := congrArg DecimalWord.value written
    rw [value_paddedDecimal] at value_eq
    exact value_eq ▸ UInt64.toNat_lt _
  · intro small
    have number : (UInt64.ofNat (DecimalWord.value word)).toNat = DecimalWord.value word :=
      UInt64.toNat_ofNat_of_lt' small
    have width := paddedDecimal_toNat_length (UInt64.ofNat (DecimalWord.value word))
    rw [number] at width
    have same : paddedDecimal (DecimalWord.value word) = word :=
      DecimalWord.eq_of_value (width.trans length.symm) (numeric_paddedDecimal _) numeric
        (value_paddedDecimal _)
    rw [segmentFileName, number, same]

theorem segmentFileName_lt_iff (left right : Lsn) :
    segmentFileName left < segmentFileName right ↔ left < right := by
  have width : (paddedDecimal left.toNat).length = (paddedDecimal right.toNat).length :=
    (paddedDecimal_toNat_length left).trans (paddedDecimal_toNat_length right).symm
  have ordered := DecimalWord.lt_iff_value width (numeric_paddedDecimal _) (numeric_paddedDecimal _)
  rw [value_paddedDecimal, value_paddedDecimal, ← UInt64.lt_iff_toNat_lt] at ordered
  rw [segmentFileName, segmentFileName, DecimalWord.append_lt_append_iff, ordered]

/-- Segment names and numbers: what is written is read back, names are in the order of their
numbers, and an accepted name is the written one exactly if its digits denote a 64-bit number. -/
theorem segment_names_unique (first left right lsn : Lsn) (name : FileName) (valid : first.valid)
    (parsed : parseSegmentFileName name = some lsn) :
    parseSegmentFileName (segmentFileName first) = some first ∧
      (segmentFileName left < segmentFileName right ↔ left < right) ∧
        (segmentFileName lsn = name ↔
          DecimalWord.value (name.drop segmentPrefix.length) < 2 ^ 64) :=
  ⟨parseSegmentFileName_segmentFileName valid, segmentFileName_lt_iff left right,
    segmentFileName_eq_iff parsed⟩

theorem segment_names_unique_forty_two :
    parseSegmentFileName (segmentFileName 42) = some 42 ∧
      segmentFileName 42 < segmentFileName 100 ∧
        segmentFileName 7 = "seg-00000000000000000007".toList := by
  have parsed : parseSegmentFileName "seg-00000000000000000007".toList = some 7 := by
    decide +kernel
  obtain ⟨kept, ordered, written⟩ :=
    segment_names_unique 42 42 100 7 "seg-00000000000000000007".toList (by decide) parsed
  exact ⟨kept, ordered.mpr (by decide), written.mpr (by decide +kernel)⟩

/-- The digits of 2^64 + 1 are read as the number 1. -/
theorem wrapped_segment_name : ¬ ∀ (name : FileName) (lsn : Lsn),
    parseSegmentFileName name = some lsn → segmentFileName lsn = name := by
  intro unique
  have parsed : parseSegmentFileName "seg-18446744073709551617".toList = some 1 := by
    decide +kernel
  exact absurd (unique _ _ parsed) (by decide +kernel)

end GeoWorld.Persistence
