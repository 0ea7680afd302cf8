import Mathlib
import GeoWorld.Persistence.WalDamage
import GeoWorld.Persistence.WalFloor

/-!
A torn tail. Truncating the active segment of a written log anywhere costs the records that
are no longer complete and nothing else: an incomplete record never decodes, and a complete
one decodes to itself.
-/

namespace GeoWorld.Persistence

open WorldModel Library

section Codec

/-- What the length prefix of a record counts. -/
def recordBodyBytes (record : ScannedRecord) : Nat :=
  recordFixedHeaderBytes + record.payload.length + recordCrcBytes

/-- The body is within the limit and its length within the 32 bits of the prefix. -/
def Fits (maxRecordBytes : Nat) (record : ScannedRecord) : Prop :=
  recordBodyBytes record ≤ maxRecordBytes ∧ recordBodyBytes record < 2 ^ 32

variable {crc32c : ByteString → UInt32} {maxRecordBytes : Nat}

theorem recordFixedHeader_length (record : ScannedRecord) :
    (recordFixedHeader record).length = recordFixedHeaderBytes := by
  simp [recordFixedHeader, recordFixedHeaderBytes]

theorem encodeRecord_length (record : ScannedRecord) :
    (encodeRecord crc32c record).length = recordLengthPrefixBytes + recordBodyBytes record := by
  simp only [encodeRecord, List.length_append, bytesLE_length, recordFixedHeader_length,
    recordBodyBytes, recordLengthPrefixBytes, recordCrcBytes]
  omega

/-- The fields of the fixed header are read back, whatever follows. -/
theorem readLE_recordFixedHeader (record : ScannedRecord)
    (small : record.payload.length < 256 ^ 4) (rest : ByteString) :
    readLE 2 0 (recordFixedHeader record ++ rest) = recordFormatVersion ∧
      readLE 2 2 (recordFixedHeader record ++ rest) = record.kind.value.toNat ∧
      readLE 8 4 (recordFixedHeader record ++ rest) = record.lsn.toNat ∧
      readLE 8 12 (recordFixedHeader record ++ rest) = record.targetTick.toNat ∧
      readLE 4 20 (recordFixedHeader record ++ rest) = record.payload.length := by
  let version := bytesLE 2 recordFormatVersion
  let kind := bytesLE 2 record.kind.value.toNat
  let lsn := bytesLE 8 record.lsn.toNat
  let tick := bytesLE 8 record.targetTick.toNat
  have header : recordFixedHeader record ++ rest = version ++ (kind ++ (lsn ++ (tick ++
      (bytesLE 4 record.payload.length ++ rest)))) := by
    simp only [recordFixedHeader, List.append_assoc, version, kind, lsn, tick]
  have kindBound : record.kind.value.toNat < 256 ^ 2 := record.kind.value.toNat_lt
  have lsnBound : record.lsn.toNat < 256 ^ 8 := record.lsn.toNat_lt
  have tickBound : record.targetTick.toNat < 256 ^ 8 := record.targetTick.toNat_lt
  rw [header]
  refine ⟨?_, ?_, ?_, ?_, ?_⟩
  · exact readLE_bytesLE [] _ (by decide)
  · have kindAt := readLE_bytesLE version (lsn ++ (tick ++ (bytesLE 4 record.payload.length ++
      rest))) kindBound
    rwa [bytesLE_length] at kindAt
  · have lsnAt := readLE_bytesLE (version ++ kind) (tick ++ (bytesLE 4 record.payload.length ++
      rest)) lsnBound
    simpa only [List.length_append, bytesLE_length, version, kind, List.append_assoc] using lsnAt
  · have tickAt := readLE_bytesLE (version ++ kind ++ lsn) (bytesLE 4 record.payload.length ++
      rest) tickBound
    simpa only [List.length_append, bytesLE_length, version, kind, lsn, List.append_assoc]
      using tickAt
  · have lengthAt := readLE_bytesLE (version ++ kind ++ lsn ++ tick) rest small
    simpa only [List.length_append, bytesLE_length, version, kind, lsn, tick, List.append_assoc]
      using lengthAt

/-- A record is read back from the front of any bytes. -/
theorem decodeRecord_encodeRecord {record : ScannedRecord} (fits : Fits maxRecordBytes record)
    (rest : ByteString) :
    decodeRecord crc32c maxRecordBytes (encodeRecord crc32c record ++ rest) =
      .ok (record, (encodeRecord crc32c record).length) := by
  obtain ⟨limit, narrow⟩ := fits
  have small : record.payload.length < 256 ^ 4 := by
    unfold recordBodyBytes at narrow
    omega
  let checksum := bytesLE 4 (crc32c (recordFixedHeader record ++ record.payload)).toNat
  have buffer : encodeRecord crc32c record ++ rest = bytesLE 4 (recordBodyBytes record) ++
      (recordFixedHeader record ++ (record.payload ++ (checksum ++ rest))) := by
    simp only [encodeRecord, recordBodyBytes, List.append_assoc, checksum]
  have prefixAt : readLE 4 0 (encodeRecord crc32c record ++ rest) = recordBodyBytes record := by
    rw [buffer]
    exact readLE_bytesLE [] _ (by simpa using narrow)
  have header : (encodeRecord crc32c record ++ rest).drop recordLengthPrefixBytes =
      recordFixedHeader record ++ (record.payload ++ (checksum ++ rest)) := by
    rw [buffer]
    exact List.drop_left' (bytesLE_length _ _)
  have payloadAt : (recordFixedHeader record ++ (record.payload ++ (checksum ++ rest))).drop
      recordFixedHeaderBytes = record.payload ++ (checksum ++ rest) :=
    List.drop_left' (recordFixedHeader_length record)
  have headerAt : (recordFixedHeader record ++ (record.payload ++ (checksum ++ rest))).take
      recordFixedHeaderBytes = recordFixedHeader record :=
    List.take_left' (recordFixedHeader_length record)
  have checksumAt : readLE 4 (recordFixedHeaderBytes + record.payload.length)
      (recordFixedHeader record ++ (record.payload ++ (checksum ++ rest))) =
        (crc32c (recordFixedHeader record ++ record.payload)).toNat := by
    have bound : (crc32c (recordFixedHeader record ++ record.payload)).toNat < 256 ^ 4 :=
      UInt32.toNat_lt _
    have read := readLE_bytesLE (recordFixedHeader record ++ record.payload) rest bound
    rwa [List.length_append, recordFixedHeader_length, List.append_assoc] at read
  have length : (encodeRecord crc32c record ++ rest).length =
      recordLengthPrefixBytes + recordBodyBytes record + rest.length := by
    rw [List.length_append, encodeRecord_length]
  obtain ⟨versionAt, kindAt, lsnAt, tickAt, lengthAt⟩ := readLE_recordFixedHeader record small
    (record.payload ++ (checksum ++ rest))
  have long : recordFixedHeaderBytes + recordCrcBytes ≤ recordBodyBytes record := by
    unfold recordBodyBytes
    omega
  have payloadLength : recordBodyBytes record - recordFixedHeaderBytes - recordCrcBytes =
      record.payload.length := by
    unfold recordBodyBytes
    omega
  unfold decodeRecord
  simp only [prefixAt, header, versionAt, kindAt, lsnAt, tickAt, lengthAt, payloadAt, headerAt,
    checksumAt, payloadLength, List.take_left, length]
  rw [if_neg (by omega), if_neg (by omega), if_neg (by omega)]
  simp only [ne_eq, not_true_eq_false, if_false, UInt64.ofNat_toNat, UInt16.ofNat_toNat]
  rw [encodeRecord_length]

/-- Less than a record does not decode. -/
theorem decodeRecord_incomplete {record : ScannedRecord} (fits : Fits maxRecordBytes record)
    {room : Nat} (short : room < (encodeRecord crc32c record).length) :
    decodeRecord crc32c maxRecordBytes ((encodeRecord crc32c record).take room) =
      .error .incomplete := by
  have length : ((encodeRecord crc32c record).take room).length = room :=
    List.length_take_of_le short.le
  unfold decodeRecord
  by_cases started : room < recordLengthPrefixBytes
  · rw [if_pos (by rw [length]; exact started)]
  have prefixAt : readLE 4 0 ((encodeRecord crc32c record).take room) = recordBodyBytes record := by
    have front : ((encodeRecord crc32c record).take room).take 4 =
        (encodeRecord crc32c record).take 4 := by
      have enough : min 4 room = 4 := min_eq_left (not_lt.mp started)
      rw [List.take_take, enough]
    have whole : readLE 4 0 (encodeRecord crc32c record) = recordBodyBytes record := by
      rw [encodeRecord, List.append_assoc, List.append_assoc]
      have narrow : recordBodyBytes record < 256 ^ 4 := by simpa using fits.2
      exact readLE_bytesLE [] _ narrow
    rw [readLE, List.drop_zero, front]
    simpa [readLE] using whole
  rw [encodeRecord_length] at short
  have limit := fits.1
  have long : recordFixedHeaderBytes + recordCrcBytes ≤ recordBodyBytes record := by
    unfold recordBodyBytes
    omega
  simp only [prefixAt, length]
  rw [if_neg started, if_neg (by omega), if_pos short]

theorem parseSegmentHeader_encodeSegmentHeader {first : Lsn} (valid : first.valid)
    (rest : ByteString) : parseSegmentHeader (encodeSegmentHeader first ++ rest) = some first := by
  have shape : encodeSegmentHeader first ++ rest = segmentMagic ++
      (bytesLE 4 segmentFormatVersion ++ (bytesLE 8 first.toNat ++ rest)) := by
    simp only [encodeSegmentHeader, List.append_assoc]
  have magic : segmentMagic.length = 4 := rfl
  have long : ¬ (encodeSegmentHeader first ++ rest).length < segmentHeaderBytes := by
    rw [List.length_append, segmentHeader_length]
    omega
  have versionAt : readLE 4 4 (encodeSegmentHeader first ++ rest) = segmentFormatVersion := by
    rw [shape]
    exact readLE_bytesLE segmentMagic _ (by decide)
  have firstAt : readLE 8 8 (encodeSegmentHeader first ++ rest) = first.toNat := by
    have bound : first.toNat < 256 ^ 8 := first.toNat_lt
    have read := readLE_bytesLE (segmentMagic ++ bytesLE 4 segmentFormatVersion) rest bound
    rw [shape]
    simpa only [List.length_append, magic, bytesLE_length, List.append_assoc] using read
  have magicAt : (encodeSegmentHeader first ++ rest).take 4 = segmentMagic := by
    rw [shape]
    exact List.take_left' magic
  unfold parseSegmentHeader
  rw [if_neg long, magicAt, versionAt, firstAt]
  simp [valid]

end Codec

section Segments

variable (crc32c : ByteString → UInt32)

/-- The first records that are complete within so many bytes. -/
def completeRecords : Nat → List ScannedRecord → List ScannedRecord
  | _, [] => []
  | room, record :: rest =>
    if (encodeRecord crc32c record).length ≤ room then
      record :: completeRecords (room - (encodeRecord crc32c record).length) rest
    else []

/-- The longest run of first records whose bytes all lie within so many. -/
structure LongestComplete (records : List ScannedRecord) (room : Nat)
    (kept : List ScannedRecord) : Prop where
  first : kept <+: records
  complete : (kept.flatMap (encodeRecord crc32c)).length ≤ room
  longest : ∀ more, more <+: records → (more.flatMap (encodeRecord crc32c)).length ≤ room →
    more <+: kept

variable {crc32c} {maxRecordBytes : Nat} {policy : TailPolicy}

theorem completeRecords_longest (room : Nat) (records : List ScannedRecord) :
    LongestComplete crc32c records room (completeRecords crc32c room records) := by
  induction records generalizing room with
  | nil => exact ⟨List.prefix_refl _, Nat.zero_le _, fun more first _ => first⟩
  | cons record rest ih =>
    unfold completeRecords
    split
    · rename_i whole
      have later := ih (room - (encodeRecord crc32c record).length)
      have complete := later.complete
      refine ⟨List.cons_prefix_cons.mpr ⟨rfl, later.first⟩, ?_, fun more first within => ?_⟩
      · rw [List.flatMap_cons, List.length_append]
        omega
      · cases more with
        | nil => exact List.nil_prefix
        | cons head tail =>
          obtain ⟨rfl, behind⟩ := List.cons_prefix_cons.mp first
          rw [List.flatMap_cons, List.length_append] at within
          exact List.cons_prefix_cons.mpr ⟨rfl, later.longest tail behind (by omega)⟩
    · rename_i partly
      refine ⟨List.nil_prefix, Nat.zero_le _, fun more first within => ?_⟩
      cases more with
      | nil => exact List.prefix_refl _
      | cons head tail =>
        obtain ⟨rfl, -⟩ := List.cons_prefix_cons.mp first
        rw [List.flatMap_cons, List.length_append] at within
        omega

theorem completeRecords_of_le {room : Nat} {records : List ScannedRecord}
    (within : (records.flatMap (encodeRecord crc32c)).length ≤ room) :
    completeRecords crc32c room records = records :=
  (completeRecords_longest room records).first.eq_of_length_le
    ((completeRecords_longest room records).longest records (List.prefix_refl _) within).length_le

/-- How reading a run of written records ends that was cut off behind `room` bytes. -/
def cutEnd (offset length : Nat) : RecordsEnd :=
  if offset = length then .complete else .undecodable offset .incomplete

/-- Reading yields the complete records and stops behind them. -/
theorem readRecords_cut {records : List ScannedRecord} {front : ByteString} {expected next : Lsn}
    (consecutive : Consecutive expected records next)
    (fits : ∀ record ∈ records, Fits maxRecordBytes record) {room fuel : Nat}
    (enough : ((records.flatMap (encodeRecord crc32c)).take room).length ≤ fuel) :
    ∃ ended, Consecutive expected (completeRecords crc32c room records) ended ∧
      readRecords crc32c maxRecordBytes fuel front.length expected
          (front ++ (records.flatMap (encodeRecord crc32c)).take room) =
        ⟨completeRecords crc32c room records, ended,
          cutEnd (front.length +
              ((completeRecords crc32c room records).flatMap (encodeRecord crc32c)).length)
            (front.length + ((records.flatMap (encodeRecord crc32c)).take room).length)⟩ := by
  induction records generalizing front expected room fuel with
  | nil =>
    refine ⟨expected, rfl, ?_⟩
    cases fuel with
    | zero => simp [readRecords, completeRecords, cutEnd]
    | succ fuel => simp [readRecords, completeRecords, cutEnd]
  | cons record rest ih =>
    obtain ⟨lsn, following, follows, later⟩ := consecutive
    have here := fits record (by simp)
    have positive : 0 < (encodeRecord crc32c record).length := by
      rw [encodeRecord_length, recordLengthPrefixBytes]
      omega
    rw [List.flatMap_cons] at enough ⊢
    by_cases whole : (encodeRecord crc32c record).length ≤ room
    · have split : (encodeRecord crc32c record ++ rest.flatMap (encodeRecord crc32c)).take room =
          encodeRecord crc32c record ++ (rest.flatMap (encodeRecord crc32c)).take
            (room - (encodeRecord crc32c record).length) := by
        rw [List.take_append, List.take_of_length_le whole]
      rw [split, List.length_append] at enough
      obtain ⟨less, rfl⟩ := Nat.exists_eq_add_of_lt (lt_of_lt_of_le positive
        (le_trans (Nat.le_add_right _ _) enough))
      obtain ⟨ended, chain, read⟩ := @ih (front ++ encodeRecord crc32c record) following later
        (fun other member => fits other (by simp [member]))
        (room - (encodeRecord crc32c record).length) less (by omega)
      have decoded : decodeRecord crc32c maxRecordBytes ((front ++ (encodeRecord crc32c record ++
          (rest.flatMap (encodeRecord crc32c)).take
            (room - (encodeRecord crc32c record).length))).drop front.length) =
          .ok (record, (encodeRecord crc32c record).length) := by
        rw [List.drop_left]
        exact decodeRecord_encodeRecord here _
      have step := @readRecords_record crc32c maxRecordBytes less front.length _ expected following
        _ record (by simp; omega) decoded lsn follows
      have kept : completeRecords crc32c room (record :: rest) = record ::
          completeRecords crc32c (room - (encodeRecord crc32c record).length) rest := by
        rw [completeRecords, if_pos whole]
      rw [List.append_assoc, List.length_append] at read
      refine ⟨ended, ?_, ?_⟩
      · rw [kept]
        exact ⟨lsn, following, follows, chain⟩
      · rw [split, Nat.zero_add, step, read, kept]
        simp only [List.flatMap_cons, List.length_append, Nat.add_assoc]
    · have kept : completeRecords crc32c room (record :: rest) = [] := by
        rw [completeRecords, if_neg whole]
      have short := not_le.mp whole
      have part : (encodeRecord crc32c record ++ rest.flatMap (encodeRecord crc32c)).take room =
          (encodeRecord crc32c record).take room :=
        List.take_append_of_le_length short.le
      have length : ((encodeRecord crc32c record).take room).length = room :=
        List.length_take_of_le short.le
      rw [part, length] at enough
      refine ⟨expected, by rw [kept]; rfl, ?_⟩
      rw [kept, part, length, List.flatMap_nil, List.length_nil, Nat.add_zero]
      cases fuel with
      | zero =>
        obtain rfl : room = 0 := Nat.le_zero.mp enough
        simp [readRecords, cutEnd]
      | succ fuel =>
        by_cases nothing : room = 0
        · subst nothing
          simp [readRecords, cutEnd]
        · have inside : ¬ (front ++ (encodeRecord crc32c record).take room).length ≤
              front.length := by
            rw [List.length_append, length]
            omega
          rw [readRecords, if_neg inside, List.drop_left, decodeRecord_incomplete here short, cutEnd,
            if_neg (by omega)]

/-- A segment that is whole yields its records. -/
theorem readSegment_written {segment : SegmentEntry} {first next : Lsn}
    {records : List ScannedRecord} (valid : first.valid)
    (consecutive : Consecutive first records next)
    (fits : ∀ record ∈ records, Fits maxRecordBytes record) :
    readSegment crc32c maxRecordBytes policy segment first (writtenSegment crc32c first records) =
      some (records, next) := by
  obtain ⟨ended, chain, read⟩ := @readRecords_cut crc32c maxRecordBytes records
    (encodeSegmentHeader first) first next consecutive fits
    (records.flatMap (encodeRecord crc32c)).length (writtenSegment crc32c first records).length
    (by rw [List.take_length, writtenSegment, List.length_append]; omega)
  rw [List.take_length, completeRecords_of_le le_rfl, segmentHeader_length] at read
  rw [completeRecords_of_le le_rfl] at chain
  have same := chain.length.trans consecutive.length.symm
  obtain rfl := UInt64.toNat_inj.mp same
  have parsed := parseSegmentHeader_encodeSegmentHeader valid
    (records.flatMap (encodeRecord crc32c))
  rw [readSegment, if_neg writtenSegment_ne_nil]
  unfold writtenSegment at read ⊢
  rw [parsed]
  simp only [ne_eq, not_true_eq_false, if_false, read, cutEnd, if_true]

/-- What is left of an active segment that was cut off behind `size` bytes. -/
def leftBehind (crc32c : ByteString → UInt32) (first : Lsn) (records : List ScannedRecord)
    (size : Nat) : ByteString :=
  if size < segmentHeaderBytes then []
  else writtenSegment crc32c first
    (completeRecords crc32c (size - segmentHeaderBytes) records)

/-- An active segment that was cut off yields its complete records and is trimmed to them. -/
theorem readSegment_cut {active : SegmentEntry} (opened : active.active = true)
    {first next : Lsn} {records : List ScannedRecord} (valid : first.valid)
    (consecutive : Consecutive first records next)
    (fits : ∀ record ∈ records, Fits maxRecordBytes record) (size : Nat) :
    let bytes := (writtenSegment crc32c first records).take size
    (∃ ended, readSegment crc32c maxRecordBytes .trimActiveTail active first bytes =
        some (completeRecords crc32c (size - segmentHeaderBytes) records, ended)) ∧
      ∀ result, (match (scanBytes crc32c maxRecordBytes result active .trimActiveTail first
          bytes).cut with
        | none => bytes
        | some offset => bytes.take offset) = leftBehind crc32c first records size := by
  intro bytes
  have nothing : ∀ {records}, completeRecords crc32c 0 records = [] := by
    intro records
    exact List.eq_nil_of_length_eq_zero (by
      have complete := (@completeRecords_longest crc32c 0 records).complete
      cases shape : completeRecords crc32c 0 records with
      | nil => rfl
      | cons record rest =>
        rw [shape, List.flatMap_cons, List.length_append, encodeRecord_length,
          recordLengthPrefixBytes] at complete
        omega)
  by_cases header : size < segmentHeaderBytes
  · have none : completeRecords crc32c (size - segmentHeaderBytes) records = [] := by
      rw [Nat.sub_eq_zero_of_le header.le]
      exact nothing
    rw [none, leftBehind, if_pos header]
    by_cases empty : bytes = []
    · refine ⟨⟨first, by rw [readSegment, if_pos empty, if_pos opened]⟩, fun result => ?_⟩
      rw [scanBytes, if_pos empty, if_pos opened]
      exact empty
    · have unparsed : parseSegmentHeader bytes = Option.none :=
        if_pos (lt_of_le_of_lt (List.length_take_le _ _) header)
      refine ⟨⟨first, ?_⟩, fun result => ?_⟩
      · rw [readSegment, if_neg empty, unparsed]
        simp [opened]
      · rw [scanBytes, if_neg empty, unparsed]
        simp [scanHeaderless, opened]
  · have shape : bytes = encodeSegmentHeader first ++
        (records.flatMap (encodeRecord crc32c)).take (size - segmentHeaderBytes) := by
      have long : (encodeSegmentHeader first).length ≤ size := by
        rw [segmentHeader_length]
        exact not_lt.mp header
      rw [show bytes = (writtenSegment crc32c first records).take size from rfl, writtenSegment,
        List.take_append, List.take_of_length_le long, segmentHeader_length]
    have some : bytes ≠ [] := by
      intro empty
      have length := congrArg List.length (shape.symm.trans empty)
      rw [List.length_append, segmentHeader_length, List.length_nil] at length
      simp [segmentHeaderBytes] at length
    obtain ⟨ended, -, read⟩ := @readRecords_cut crc32c maxRecordBytes records
      (encodeSegmentHeader first) first next consecutive fits (size - segmentHeaderBytes)
      bytes.length (by rw [shape, List.length_append]; omega)
    rw [← shape, segmentHeader_length] at read
    have length : bytes.length = segmentHeaderBytes +
        ((records.flatMap (encodeRecord crc32c)).take (size - segmentHeaderBytes)).length := by
      rw [shape, List.length_append, segmentHeader_length]
    rw [← length] at read
    have parsed : parseSegmentHeader bytes = Option.some first := by
      rw [shape]
      exact parseSegmentHeader_encodeSegmentHeader valid _
    have longest := @completeRecords_longest crc32c (size - segmentHeaderBytes) records
    have trimmed : bytes.take (segmentHeaderBytes + ((completeRecords crc32c
        (size - segmentHeaderBytes) records).flatMap (encodeRecord crc32c)).length) =
          leftBehind crc32c first records size := by
      obtain ⟨lost, whole⟩ := longest.first
      have front : (records.flatMap (encodeRecord crc32c)).take ((completeRecords crc32c
          (size - segmentHeaderBytes) records).flatMap (encodeRecord crc32c)).length =
            (completeRecords crc32c (size - segmentHeaderBytes) records).flatMap
              (encodeRecord crc32c) := by
        conv => lhs; arg 2; rw [← whole]
        rw [List.flatMap_append, List.take_left]
      rw [leftBehind, if_neg header, writtenSegment, shape,
        show segmentHeaderBytes = (encodeSegmentHeader first).length from
          (segmentHeader_length first).symm, List.take_length_add_append, List.take_take,
        min_eq_left (by rw [segmentHeader_length]; exact longest.complete), segmentHeader_length,
        front]
    rw [cutEnd] at read
    by_cases whole : segmentHeaderBytes + ((completeRecords crc32c (size - segmentHeaderBytes)
        records).flatMap (encodeRecord crc32c)).length = bytes.length
    · rw [if_pos whole] at read
      refine ⟨⟨ended, ?_⟩, fun result => ?_⟩
      · rw [readSegment, if_neg some, parsed]
        simp only [ne_eq, not_true_eq_false, if_false, read]
      · rw [scanBytes, if_neg some, parsed, ← trimmed, whole, List.take_length]
        simp only [ne_eq, not_true_eq_false, if_false, scanRecords, read]
    · rw [if_neg whole] at read
      refine ⟨⟨ended, ?_⟩, fun result => ?_⟩
      · rw [readSegment, if_neg some, parsed]
        simp only [ne_eq, not_true_eq_false, if_false, read, opened, and_self, if_true]
      · rw [scanBytes, if_neg some, parsed]
        simp only [ne_eq, not_true_eq_false, if_false, scanRecords, read, opened, and_self, if_true]
        exact trimmed

end Segments

section Directory

variable {crc32c : ByteString → UInt32} {maxRecordBytes : Nat} {policy : TailPolicy}

theorem readLog_append {contents : DiskPath → Option ByteString} {front back : List SegmentEntry}
    {expected next : Lsn} {records : List ScannedRecord}
    (read : readLog crc32c maxRecordBytes policy contents front expected = some (records, next)) :
    readLog crc32c maxRecordBytes policy contents (front ++ back) expected =
      (readLog crc32c maxRecordBytes policy contents back next).map fun later =>
        (records ++ later.1, later.2) := by
  induction front generalizing expected records with
  | nil =>
    obtain ⟨rfl, rfl⟩ := Prod.mk.inj (Option.some.inj read)
    simp
  | cons segment rest ih =>
    obtain ⟨bytes, held, read⟩ := Option.bind_eq_some_iff.mp read
    obtain ⟨⟨first, middle⟩, here, read⟩ := Option.bind_eq_some_iff.mp read
    obtain ⟨⟨later, last⟩, rest_read, same⟩ := Option.map_eq_some_iff.mp read
    obtain ⟨rfl, rfl⟩ := Prod.mk.inj same
    rw [List.cons_append, readLog, held, Option.bind_some, here, Option.bind_some, ih rest_read,
      Option.map_map]
    congr 1
    funext found
    simp

/-- The closed segments of a written log yield their records and lead to the active one. -/
theorem readLog_written {contents : DiskPath → Option ByteString} {closed : List SegmentEntry}
    {active : SegmentEntry} {recordsOf : SegmentEntry → List ScannedRecord}
    (valid : ∀ segment ∈ closed, segment.firstLsn.valid)
    (held : ∀ segment ∈ closed, contents segment.path =
      some (writtenSegment crc32c segment.firstLsn (recordsOf segment)))
    (continues : (closed ++ [active]).IsChain fun left right =>
      Consecutive left.firstLsn (recordsOf left) right.firstLsn)
    (fits : ∀ segment ∈ closed, ∀ record ∈ recordsOf segment, Fits maxRecordBytes record) :
    readLog crc32c maxRecordBytes policy contents closed
      (((closed ++ [active]).head?.map SegmentEntry.firstLsn).getD 0) =
      some (closed.flatMap recordsOf, active.firstLsn) := by
  induction closed with
  | nil => rfl
  | cons segment rest ih =>
    have later := ih (fun other member => valid other (by simp [member]))
      (fun other member => held other (by simp [member])) continues.tail
      (fun other member => fits other (by simp [member]))
    have here : Consecutive segment.firstLsn (recordsOf segment)
        (((rest ++ [active]).head?.map SegmentEntry.firstLsn).getD 0) := by
      cases rest with
      | nil => exact (List.isChain_cons_cons.mp continues).1
      | cons following others => exact (List.isChain_cons_cons.mp continues).1
    have read := @readSegment_written crc32c maxRecordBytes policy segment _ _ _
      (valid segment (by simp)) here (fits segment (by simp))
    simp only [List.cons_append, List.head?_cons, Option.map_some, Option.getD_some] at later ⊢
    rw [readLog, held segment (by simp), Option.bind_some, read, Option.bind_some, later]
    simp

theorem Consecutive.last {first next : Lsn} {records : List ScannedRecord}
    (consecutive : Consecutive first records next) {last : ScannedRecord}
    (ends : last ∈ records.getLast?) : nextLsn last.lsn = some next := by
  induction records generalizing first with
  | nil => cases ends
  | cons record rest ih =>
    obtain ⟨same, following, follows, later⟩ := consecutive
    cases rest with
    | nil =>
      obtain rfl : record = last := by simpa using ends
      obtain rfl : following = next := later
      rw [same]
      exact follows
    | cons other others => exact ih later (by simpa using ends)

theorem cutAt_damaged (machine : Machine) (walDir : Directory) (path : DiskPath)
    (cut : Option Nat) : DamagedFrom walDir machine (machine.cutAt path cut) := by
  intro segment
  unfold IsSegment
  by_cases same : segment.path = path
  · have kept : (machine.cutAt path cut).disk.contents path = none ↔
        machine.disk.contents path = none := by
      cases found : machine.disk.contents path with
      | none =>
        cases cut with
        | none => simp [Machine.cutAt, found]
        | some offset =>
          have missing : machine.disk.live[path]? = none := Option.map_eq_none_iff.mp found
          simp [Machine.cutAt, Machine.setDisk, Disk.truncate, missing, Disk.contents]
      | some bytes => simp [cutAt_contents_self found]
    rw [same, ne_eq, kept]
  · rw [cutAt_contents same]

/-- Where the scan of a whole directory says the log goes on: behind the last record, or where
it began when there is none. -/
def GoesOnBehind (first : Lsn) (result : WalScanResult) : Prop :=
  (∀ last ∈ result.records.getLast?, result.lastLsn = last.lsn ∧
      nextLsn last.lsn = some result.nextLsn) ∧
    (result.records = [] → result.lastLsn = 0 ∧ result.nextLsn = first)

/-- What the scan of a written log answers whose active segment was cut off. -/
structure TornTailRecovered (crc32c : ByteString → UInt32) (closed : List SegmentEntry)
    (active : SegmentEntry) (recordsOf : SegmentEntry → List ScannedRecord) (size : Nat)
    (before : Machine) (result : WalScanResult) (now : Machine) : Prop where
  error : result.error = .none
  records : ∃ kept, LongestComplete crc32c (recordsOf active) (size - segmentHeaderBytes) kept ∧
    result.records = closed.flatMap recordsOf ++ kept ∧
    now.disk.contents active.path = some (if size < segmentHeaderBytes then []
      else writtenSegment crc32c active.firstLsn kept)
  others : ∀ path, path ≠ active.path → now.disk.contents path = before.disk.contents path
  goesOn : GoesOnBehind (((closed ++ [active]).head?.map SegmentEntry.firstLsn).getD 0) result

theorem goesOnBehind_of_scanned {first ended : Lsn} {result : WalScanResult}
    (consecutive : Consecutive first result.records ended) (next : result.nextLsn = ended)
    (last : result.lastLsn = if ended.valid ∧ first < ended then ended - 1 else 0) :
    GoesOnBehind first result := by
  refine ⟨fun record ends => ?_, fun none => ?_⟩
  · have follows := consecutive.last ends
    have step := nextLsn_toNat follows
    have length := consecutive.length
    have some : 0 < result.records.length := by
      cases shape : result.records with
      | nil => simp [shape] at ends
      | cons head tail => simp
    have above : first < ended := UInt64.lt_iff_toNat_lt.mpr (by omega)
    have valid : ended.valid := valid_of_le (by omega)
    refine ⟨?_, by rw [next]; exact follows⟩
    rw [last, if_pos ⟨valid, above⟩]
    refine UInt64.toNat_inj.mp ?_
    have one : (1 : Lsn) ≤ ended := UInt64.le_iff_toNat_le.mpr (by
      have : (1 : Lsn).toNat = 1 := rfl
      omega)
    rw [UInt64.toNat_sub_of_le _ _ one]
    have : (1 : Lsn).toNat = 1 := rfl
    omega
  · rw [none] at consecutive
    obtain rfl : first = ended := consecutive
    refine ⟨?_, next⟩
    rw [last, if_neg fun inside => absurd inside.2 (UInt64.lt_irrefl first)]

/-- Recovery from a torn tail is exact, and a record that fits decodes to itself. -/
theorem torn_tail_recovery_exact {before machine now : Machine} {walDir : Directory}
    {closed : List SegmentEntry} {active : SegmentEntry}
    {recordsOf : SegmentEntry → List ScannedRecord} {firstExpected : Lsn} {size : Nat}
    {result : WalScanResult}
    (written : WrittenLog crc32c before walDir closed (some active) recordsOf)
    (fits : ∀ segment ∈ closed ++ [active], ∀ record ∈ recordsOf segment,
      Fits maxRecordBytes record)
    (torn : machine = before.cutAt active.path (some size))
    (start : ∀ lead ∈ (closed ++ [active]).head?, firstExpected.valid →
      firstExpected = lead.firstLsn)
    (scanned : Program.Reaches Machine.Succeeds
      (scanWalDirectory crc32c maxRecordBytes walDir .trimActiveTail firstExpected) machine
      (.pure result) now) :
    TornTailRecovered crc32c closed active recordsOf size before result now ∧
      ∀ record, Fits maxRecordBytes record → ∀ rest,
        decodeRecord crc32c maxRecordBytes (encodeRecord crc32c record ++ rest) =
          .ok (record, (encodeRecord crc32c record).length) := by
  refine ⟨?_, fun record fits rest => decodeRecord_encodeRecord fits rest⟩
  have opened := written.active active rfl
  have inside : active ∈ closed ++ [active] := by simp
  have held : before.disk.contents active.path = some (writtenSegment crc32c active.firstLsn
      (recordsOf active)) := written.contents active inside
  have others : ∀ path, path ≠ active.path →
      machine.disk.contents path = before.disk.contents path := by
    intro path different
    rw [torn]
    exact cutAt_contents different _
  have cutBytes : machine.disk.contents active.path = some ((writtenSegment crc32c
      active.firstLsn (recordsOf active)).take size) := by
    rw [torn]
    exact cutAt_contents_self held _
  have listed : SegmentsOf machine walDir (closed ++ [active]) := by
    rw [torn]
    exact written.listed.damaged (cutAt_damaged before walDir active.path _)
  have named := path_of_names written.named
  have valid : ∀ segment ∈ closed ++ [active], segment.firstLsn.valid :=
    fun segment member => segmentEntry_valid (listed.mem_iff.mp member).1
  have apart : ∀ segment ∈ closed, segment.path ≠ active.path := by
    intro segment member same
    have distinct := List.pairwise_append.mp listed.distinct
    exact distinct.2.2 segment member active (by simp) same
  have read := @readLog_written crc32c maxRecordBytes .trimActiveTail machine.disk.contents closed
    active recordsOf (fun segment member => valid segment (by simp [member]))
    (fun segment member => by
      rw [others _ (apart segment member)]
      exact written.contents segment (by simp [member]))
    written.continues (fun segment member => fits segment (by simp [member]))
  obtain ⟨last, consecutive⟩ := written.consecutive active inside
  obtain ⟨⟨ended, activeRead⟩, left⟩ := readSegment_cut opened (valid active inside) consecutive
    (fits active inside) size
  have started : (if firstExpected.valid then firstExpected
      else ((closed ++ [active]).head?.map SegmentEntry.firstLsn).getD 0) =
        ((closed ++ [active]).head?.map SegmentEntry.firstLsn).getD 0 := by
    split
    · rename_i given
      obtain ⟨lead, head⟩ := Option.isSome_iff_exists.mp
        (show ((closed ++ [active]).head?).isSome by cases closed <;> rfl)
      rw [start lead head given, head]
      rfl
    · rfl
  have whole : readLog crc32c maxRecordBytes .trimActiveTail machine.disk.contents
      (closed ++ [active]) (((closed ++ [active]).head?.map SegmentEntry.firstLsn).getD 0) =
        some (closed.flatMap recordsOf ++
          completeRecords crc32c (size - segmentHeaderBytes) (recordsOf active), ended) := by
    rw [readLog_append read, readLog, cutBytes, Option.bind_some, activeRead, Option.bind_some,
      readLog]
    simp
  obtain ⟨segments, again, answer⟩ := (((scanWalDirectory_ensures walDir firstExpected).sound
    scanned).2 _ rfl).1
  obtain rfl := segmentsOf_unique listed again named
  have answer := answer.resolve_left fun empty => absurd empty.1 (by simp)
  unfold Scanned at answer
  simp only [started, whole] at answer
  obtain ⟨error, records, -, next, lastLsn⟩ := answer
  have cut := ((scanWalDirectory_active listed named written.inactive cutBytes
    firstExpected).sound scanned).2 _ rfl
  rw [scanStart, started, read] at cut
  obtain ⟨reached, -, after⟩ := cut
  refine ⟨error, ⟨_, completeRecords_longest _ _, records, ?_⟩, fun path different => ?_, ?_⟩
  · rw [after, cutAt_contents_self cutBytes]
    exact congrArg some (left reached)
  · rw [after, cutAt_contents different]
    exact others path different
  · exact goesOnBehind_of_scanned (records ▸ readLog_consecutive whole) next lastLsn

end Directory

section Torn

def tornMachine : Machine := wholeMachine.cutAt flippedSegment.path (some 60)

def tornScan : WalScanResult × Machine :=
  (scanWalDirectory castagnoli 1024 flippedDirectory .trimActiveTail 0).run Machine.perform
    tornMachine

/-- The cut goes through the second record. -/
theorem torn_tail_recovery_exact_second :
    TornTailRecovered castagnoli [] flippedSegment (fun _ => flippedRecords) 60 wholeMachine
        tornScan.1 tornScan.2 ∧
      ∀ record, Fits 1024 record → ∀ rest,
        decodeRecord castagnoli 1024 (encodeRecord castagnoli record ++ rest) =
          .ok (record, (encodeRecord castagnoli record).length) := by
  have scanned : Program.Reaches Machine.Succeeds
      (scanWalDirectory castagnoli 1024 flippedDirectory .trimActiveTail 0) tornMachine
      (.pure tornScan.1) tornScan.2 := by
    unfold tornScan
    exact succeeds_run _ _
  refine torn_tail_recovery_exact flipped_written ?_ rfl ?_ scanned
  · intro segment member record inside
    have both : ∀ record ∈ flippedRecords, recordBodyBytes record = 29 := by decide
    have body := both record inside
    exact ⟨by omega, by omega⟩
  · exact fun lead _ valid => absurd rfl valid

def laterSegment : SegmentEntry where
  path := flippedDirectory.file (segmentFileName 5 ++ activeSegmentSuffix)
  firstLsn := 5
  active := true

def laterRecords : List ScannedRecord :=
  [⟨5, .externalCommand, 1, [7]⟩]

/-- A log of which the front was pruned. -/
def laterMachine : Machine :=
  .holding [flippedDirectory] [(laterSegment.path, writtenSegment castagnoli 5 laterRecords)]

theorem later_written : WrittenLog castagnoli laterMachine flippedDirectory []
    (some laterSegment) fun _ => laterRecords where
  listed := by
    unfold SegmentsOf
    decide +kernel
  inactive segment member := absurd member (by simp)
  active segment member := by
    obtain rfl := Option.some.inj member
    rfl
  named segment member := by
    obtain rfl := List.mem_singleton.mp member
    decide +kernel
  contents segment member := by
    obtain rfl := List.mem_singleton.mp member
    decide +kernel
  consecutive segment member := by
    obtain rfl := List.mem_singleton.mp member
    exact ⟨6, rfl, 6, rfl, rfl⟩
  continues := by simp

def laterScan : WalScanResult × Machine :=
  (scanWalDirectory castagnoli 1024 flippedDirectory .trimActiveTail 0).run Machine.perform
    (laterMachine.cutAt laterSegment.path (some 20))

/-- With no record left there is no last LSN to go on from. -/
theorem torn_tail_without_last_lsn :
    ¬ ∀ (crc32c : ByteString → UInt32) (maxRecordBytes : Nat) (before machine now : Machine)
      (walDir : Directory) (closed : List SegmentEntry) (active : SegmentEntry)
      (recordsOf : SegmentEntry → List ScannedRecord) (firstExpected : Lsn) (size : Nat)
      (result : WalScanResult),
      WrittenLog crc32c before walDir closed (some active) recordsOf →
      (∀ segment ∈ closed ++ [active], ∀ record ∈ recordsOf segment,
        Fits maxRecordBytes record) →
      machine = before.cutAt active.path (some size) →
      (∀ lead ∈ (closed ++ [active]).head?, firstExpected.valid →
        firstExpected = lead.firstLsn) →
      Program.Reaches Machine.Succeeds
        (scanWalDirectory crc32c maxRecordBytes walDir .trimActiveTail firstExpected) machine
        (.pure result) now →
      result.nextLsn.toNat = result.lastLsn.toNat + 1 := by
  intro claimed
  have scanned : Program.Reaches Machine.Succeeds
      (scanWalDirectory castagnoli 1024 flippedDirectory .trimActiveTail 0)
      (laterMachine.cutAt laterSegment.path (some 20)) (.pure laterScan.1) laterScan.2 := by
    unfold laterScan
    exact succeeds_run _ _
  have answered : laterScan.1.nextLsn = 5 ∧ laterScan.1.lastLsn = 0 := by decide +kernel
  have successor := claimed castagnoli 1024 _ _ _ _ _ _ _ 0 20 _ later_written
    (fun segment _ record inside => by
      obtain rfl := List.mem_singleton.mp inside
      exact ⟨by decide, by decide⟩)
    rfl (fun lead _ valid => absurd rfl valid) scanned
  rw [answered.1, answered.2] at successor
  exact absurd successor (by decide)

end Torn

end GeoWorld.Persistence
