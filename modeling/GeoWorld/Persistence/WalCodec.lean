import Mathlib
import GeoWorld.Library.LittleEndian
import GeoWorld.Persistence.Storage

/-!
Records and segments of the write-ahead log. A record is a length prefix, a fixed header
(version, kind, LSN, target tick, payload length), the payload and the CRC of header and
payload; a segment file starts with its own header and is named by its first LSN.
-/

namespace GeoWorld.Persistence

open WorldModel Library

/-- The 16-bit value of a record kind; a decoded one need not be a named one. -/
structure WalRecordKind where
  value : UInt16
  deriving DecidableEq

namespace WalRecordKind

def externalCommand : WalRecordKind := ⟨0⟩

def normalizedInput : WalRecordKind := ⟨1⟩

def versionSwitch : WalRecordKind := ⟨2⟩

def randomControl : WalRecordKind := ⟨3⟩

def commandOutcome : WalRecordKind := ⟨4⟩

def stateHash : WalRecordKind := ⟨5⟩

def checkpointMarker : WalRecordKind := ⟨6⟩

end WalRecordKind

def asciiBytes (text : List Char) : ByteString :=
  text.map fun character => UInt8.ofNat character.toNat

def segmentMagic : ByteString := asciiBytes "GWLS".toList

def segmentFormatVersion : Nat := 1

def recordFormatVersion : Nat := 1

def segmentHeaderBytes : Nat := 16

def recordLengthPrefixBytes : Nat := 4

def recordFixedHeaderBytes : Nat := 24

def recordCrcBytes : Nat := 4

/-- What is written to a segment and read back. -/
structure ScannedRecord where
  lsn : Lsn
  kind : WalRecordKind
  targetTick : UInt64
  payload : ByteString
  deriving DecidableEq

section Records

variable (crc32c : ByteString → UInt32)

def recordFixedHeader (record : ScannedRecord) : ByteString :=
  bytesLE 2 recordFormatVersion ++ bytesLE 2 record.kind.value.toNat ++
    bytesLE 8 record.lsn.toNat ++ bytesLE 8 record.targetTick.toNat ++
    bytesLE 4 record.payload.length

def encodeRecord (record : ScannedRecord) : ByteString :=
  bytesLE 4 (recordFixedHeaderBytes + record.payload.length + recordCrcBytes) ++
    recordFixedHeader record ++ record.payload ++
    bytesLE 4 (crc32c (recordFixedHeader record ++ record.payload)).toNat

inductive RecordDecodeStatus where
  | ok
  | incomplete
  | crcMismatch
  | malformed
  deriving DecidableEq

/-- A decoded record with the number of bytes it takes, or why there is none. -/
def decodeRecord (maxRecordBytes : Nat) (buffer : ByteString) :
    Except RecordDecodeStatus (ScannedRecord × Nat) :=
  if buffer.length < recordLengthPrefixBytes then .error .incomplete
  else
    let bodyBytes := readLE 4 0 buffer
    let total := recordLengthPrefixBytes + bodyBytes
    if bodyBytes < recordFixedHeaderBytes + recordCrcBytes ∨ maxRecordBytes < bodyBytes then
      .error .malformed
    else if buffer.length < total then .error .incomplete
    else
      let header := buffer.drop recordLengthPrefixBytes
      let payloadLength := readLE 4 20 header
      if readLE 2 0 header ≠ recordFormatVersion then .error .malformed
      else if payloadLength ≠ bodyBytes - recordFixedHeaderBytes - recordCrcBytes then
        .error .malformed
      else
        let payload := (header.drop recordFixedHeaderBytes).take payloadLength
        let expectedCrc := readLE 4 (recordFixedHeaderBytes + payloadLength) header
        if (crc32c (header.take recordFixedHeaderBytes ++ payload)).toNat ≠ expectedCrc then
          .error .crcMismatch
        else
          .ok ({
            lsn := UInt64.ofNat (readLE 8 4 header)
            kind := ⟨UInt16.ofNat (readLE 2 2 header)⟩
            targetTick := UInt64.ofNat (readLE 8 12 header)
            payload := payload }, total)

end Records

def encodeSegmentHeader (first : Lsn) : ByteString :=
  segmentMagic ++ bytesLE 4 segmentFormatVersion ++ bytesLE 8 first.toNat

/-- A segment file as the writer fills it. -/
def writtenSegment (crc32c : ByteString → UInt32) (first : Lsn) (records : List ScannedRecord) :
    ByteString :=
  encodeSegmentHeader first ++ records.flatMap (encodeRecord crc32c)

def parseSegmentHeader (buffer : ByteString) : Option Lsn :=
  if buffer.length < segmentHeaderBytes then none
  else if buffer.take 4 ≠ segmentMagic then none
  else if readLE 4 4 buffer ≠ segmentFormatVersion then none
  else
    let first := UInt64.ofNat (readLE 8 8 buffer)
    if Lsn.valid first then some first else none

def segmentExtension : FileName := ".gwal".toList

def activeSegmentSuffix : FileName := ".gwal.active".toList

def segmentPrefix : FileName := "seg-".toList

def segmentDigits : Nat := 20

/-- `%020llu`. -/
def paddedDecimal (value : Nat) : FileName :=
  (decimal value).leftpad segmentDigits '0'

def segmentFileName (first : Lsn) : FileName :=
  segmentPrefix ++ paddedDecimal first.toNat

/-- The value of decimal digits, in 64 bits. -/
def parseDigits : UInt64 → List Char → Option UInt64
  | value, [] => some value
  | value, digit :: rest =>
    if digit < '0' ∨ '9' < digit then none
    else parseDigits (value * 10 + UInt64.ofNat (digit.toNat - '0'.toNat)) rest

def parseSegmentFileName (name : FileName) : Option Lsn :=
  if name.length ≠ segmentPrefix.length + segmentDigits ∨
      name.take segmentPrefix.length ≠ segmentPrefix then none
  else (parseDigits 0 (name.drop segmentPrefix.length)).filter fun lsn => decide (Lsn.valid lsn)

theorem parseDigits_eq {digits : List Char} (numeric : ∀ digit ∈ digits, digit.isDigit)
    (value : Nat) : parseDigits (UInt64.ofNat value) digits =
      some (UInt64.ofNat (Nat.ofDigitChars 10 digits value)) := by
  induction digits generalizing value with
  | nil => rfl
  | cons digit rest ih =>
    have first := numeric digit (by simp)
    simp only [Char.isDigit, Bool.and_eq_true, decide_eq_true_eq] at first
    have inRange : ¬ (digit < '0' ∨ '9' < digit) := by
      rintro (low | high)
      · exact absurd low (UInt32.not_lt.mpr first.1)
      · exact absurd high (UInt32.not_lt.mpr first.2)
    have later : ∀ other ∈ rest, other.isDigit := fun other member => numeric other (by simp [member])
    rw [parseDigits, if_neg inRange, Nat.ofDigitChars_cons, ← ih later]
    congr 1
    simp [UInt64.ofNat_add, UInt64.ofNat_mul, mul_comm]

theorem paddedDecimal_length {value : Nat} (bound : value < 10 ^ segmentDigits) :
    (paddedDecimal value).length = segmentDigits := by
  have short : (decimal value).length ≤ segmentDigits :=
    (Nat.length_toDigits_le_iff (by decide) (by decide)).mpr bound
  simp [paddedDecimal, List.leftpad]
  omega

/-- A padded number is read back. -/
theorem parseDigits_paddedDecimal (value : UInt64) :
    parseDigits 0 (paddedDecimal value.toNat) = some value := by
  have numeric : ∀ digit ∈ paddedDecimal value.toNat, digit.isDigit := by
    intro digit member
    rcases List.mem_append.mp member with padding | written
    · rw [List.eq_of_mem_replicate padding]
      rfl
    · exact Nat.isDigit_of_mem_toDigits (by decide) (by decide) written
  have parsed := parseDigits_eq numeric 0
  rw [paddedDecimal, List.leftpad, Nat.ofDigitChars_append, Nat.ofDigitChars_replicate_zero,
    mul_zero, decimal, Nat.ofDigitChars_ten_toDigits, UInt64.ofNat_toNat] at parsed
  exact parsed

theorem paddedDecimal_toNat_length (value : UInt64) :
    (paddedDecimal value.toNat).length = segmentDigits :=
  paddedDecimal_length (value.toNat_lt.trans (by decide))

theorem parseSegmentFileName_segmentFileName {first : Lsn} (valid : first.valid) :
    parseSegmentFileName (segmentFileName first) = some first := by
  unfold parseSegmentFileName segmentFileName
  have length := paddedDecimal_toNat_length first
  rw [if_neg (by simp [length]), List.drop_left, parseDigits_paddedDecimal]
  simp [valid]

end GeoWorld.Persistence
