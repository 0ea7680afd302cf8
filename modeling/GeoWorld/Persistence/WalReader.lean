import Mathlib
import GeoWorld.Persistence.WalCodec

/-!
Scanning a log directory: closed segments in the order of their first LSNs, then the
active ones; records must follow each other without a gap. What cannot be decoded at the
end of an active segment is cut off when the policy says so, anything else ends the scan
with an error.
-/

namespace GeoWorld.Persistence

open WorldModel Library

structure SegmentEntry where
  path : DiskPath
  firstLsn : Lsn
  active : Bool
  deriving DecidableEq

inductive TailPolicy where
  | trimActiveTail
  | strict
  deriving DecidableEq

structure CorruptionReport where
  segment : Directory := []
  offset : Nat := 0
  expectedLsn : Lsn := 0
  error : PersistenceError := .none
  deriving DecidableEq

structure WalScanResult where
  records : List ScannedRecord := []
  error : PersistenceError := .none
  corruption : CorruptionReport := {}
  trimmedBytes : Nat := 0
  firstLsn : Lsn := 0
  lastLsn : Lsn := 0
  nextLsn : Lsn := 0
  activeSegment : Option DiskPath := none
  deriving DecidableEq

/-- A segment a file name stands for; temporary files are none. -/
def segmentEntry (path : DiskPath) : Option SegmentEntry :=
  if tempFilePrefix.isPrefixOf path.name then none
  else if activeSegmentSuffix.isSuffixOf path.name then
    (parseSegmentFileName (path.name.rdrop activeSegmentSuffix.length)).map fun first =>
      ⟨path, first, true⟩
  else if segmentExtension.isSuffixOf path.name then
    (parseSegmentFileName (path.name.rdrop segmentExtension.length)).map fun first =>
      ⟨path, first, false⟩
  else none

/-- Closed segments come first. -/
def SegmentEntry.before (left right : SegmentEntry) : Bool :=
  if left.active ≠ right.active then !left.active else decide (left.firstLsn ≤ right.firstLsn)

/-- How reading the records of a segment ended. -/
inductive RecordsEnd where
  | complete
  | undecodable (offset : Nat) (status : RecordDecodeStatus)
  | broken (offset : Nat) (error : PersistenceError)
  deriving DecidableEq

structure RecordsRead where
  records : List ScannedRecord
  expected : Lsn
  ended : RecordsEnd
  deriving DecidableEq

section Scan

variable (crc32c : ByteString → UInt32) (maxRecordBytes : Nat)

/-- The records from an offset on; every record takes at least one unit of fuel. -/
def readRecords : Nat → Nat → Lsn → ByteString → RecordsRead
  | 0, _, expected, _ => ⟨[], expected, .complete⟩
  | fuel + 1, offset, expected, bytes =>
    if bytes.length ≤ offset then ⟨[], expected, .complete⟩
    else match decodeRecord crc32c maxRecordBytes (bytes.drop offset) with
      | .error status => ⟨[], expected, .undecodable offset status⟩
      | .ok (record, total) =>
        if record.lsn ≠ expected then ⟨[], expected, .broken offset .lsnDiscontinuity⟩
        else match nextLsn expected with
          | none => ⟨[record], expected, .broken offset .lsnOverflow⟩
          | some next =>
            let later := readRecords fuel (offset + total) next bytes
            { later with records := record :: later.records }

def reportCorruption (result : WalScanResult) (segment : SegmentEntry) (offset : Nat)
    (expected : Lsn) (error : PersistenceError) : WalScanResult :=
  { result with
    error := error
    corruption := ⟨segment.path.components, offset, expected, error⟩ }

def trimActiveTail (result : WalScanResult) (segment : SegmentEntry) (goodOffset : Nat) :
    FileProgram WalScanResult := do
  let mapped ← ask (.readFile segment.path)
  let mappedSize := match mapped with
    | .ok bytes => bytes.length
    | .error _ => 0
  let _ ← ask (.truncateFile segment.path goodOffset)
  return { result with
    trimmedBytes := result.trimmedBytes + (mappedSize - goodOffset)
    activeSegment := some segment.path }

/-- The result so far, the expected LSN and whether to go on. -/
def scanSegment (result : WalScanResult) (segment : SegmentEntry) (policy : TailPolicy)
    (expected : Lsn) : FileProgram (WalScanResult × Lsn × Bool) := do
  let mapped ← ask (.readFile segment.path)
  match mapped with
  | .error error => return (reportCorruption result segment 0 expected error, expected, false)
  | .ok bytes =>
    let trimmable := segment.active ∧ policy = .trimActiveTail
    let corrupted := reportCorruption result segment 0 expected .segmentCorrupted
    if bytes.length < segmentHeaderBytes then
      if bytes = [] then
        if segment.active then
          return ({ result with activeSegment := some segment.path }, expected, true)
        else
          return (corrupted, expected, false)
      else if trimmable then
        let trimmed ← trimActiveTail result segment 0
        return (trimmed, expected, true)
      else
        return (corrupted, expected, false)
    else match parseSegmentHeader bytes with
      | none =>
        if trimmable then
          let trimmed ← trimActiveTail result segment 0
          return (trimmed, expected, true)
        else
          return (corrupted, expected, false)
      | some headerFirst =>
        if headerFirst ≠ expected then
          return (reportCorruption result segment 0 expected .lsnDiscontinuity, expected, false)
        else
          let result := if segment.active then
            { result with activeSegment := some segment.path } else result
          let read := readRecords crc32c maxRecordBytes bytes.length segmentHeaderBytes expected bytes
          let result := { result with records := result.records ++ read.records }
          match read.ended with
          | .complete => return (result, read.expected, true)
          | .broken offset error =>
            return (reportCorruption result segment offset read.expected error, read.expected, false)
          | .undecodable offset status =>
            if trimmable then
              let trimmed ← trimActiveTail result segment offset
              return (trimmed, read.expected, true)
            else
              let error := if status = .crcMismatch then .checksumMismatch else .segmentCorrupted
              return (reportCorruption result segment offset read.expected error, read.expected,
                false)

/-- The segments in turn, until one of them ends the scan. -/
def scanSegments (policy : TailPolicy) :
    List SegmentEntry → WalScanResult → Lsn → FileProgram (WalScanResult × Lsn × Bool)
  | [], result, expected => pure (result, expected, true)
  | segment :: rest, result, expected => do
    let (result, expected, goOn) ←
      scanSegment crc32c maxRecordBytes result segment policy expected
    if goOn then
      scanSegments policy rest result expected
    else
      return (result, expected, false)

def scanWalDirectory (walDir : Directory) (policy : TailPolicy) (firstExpected : Lsn) :
    FileProgram WalScanResult := do
  let listed ← ask (.listFiles walDir)
  match listed with
  | .error error =>
    if error = .notFound then
      return {}
    else
      return { error := error, corruption := ⟨walDir, 0, firstExpected, error⟩ }
  | .ok files =>
    let segments := (files.filterMap segmentEntry).insertionSort fun left right => left.before right
    let first := (segments.head?.map SegmentEntry.firstLsn).getD 0
    let expected := if firstExpected.valid then firstExpected else first
    if segments = [] ∧ ¬ expected.valid then
      return {}
    else
      let (result, ended, complete) ←
        scanSegments crc32c maxRecordBytes policy segments { firstLsn := first } expected
      if complete then
        return { result with
          lastLsn := if ended.valid ∧ expected < ended then ended - 1 else 0
          nextLsn := ended }
      else
        return result

end Scan

end GeoWorld.Persistence
