import Mathlib
import GeoWorld.Persistence.BranchFork
import GeoWorld.Persistence.WalLimit

/-!
The limits on the size of a record. An append bounds the payload, the decoder the framed
body, and recovery decodes with a limit of its own; what is over one of the two is written
and never read again.
-/

namespace GeoWorld.Persistence

open WorldModel Library

section Decoding

variable {crc32c : ByteString → UInt32} {maxRecordBytes : Nat}

/-- The payload of a decoded record is within its body. -/
theorem decodeRecord_payload {buffer : ByteString} {record : ScannedRecord} {total : Nat}
    (decoded : decodeRecord crc32c maxRecordBytes buffer = .ok (record, total)) :
    recordBodyBytes record ≤ readLE 4 0 buffer ∧ readLE 4 0 buffer ≤ maxRecordBytes := by
  unfold decodeRecord at decoded
  split at decoded
  · cases decoded
  simp only at decoded
  split at decoded
  · cases decoded
  rename_i inside
  split at decoded
  · cases decoded
  split at decoded
  · cases decoded
  split at decoded
  · cases decoded
  rename_i length
  split at decoded
  · cases decoded
  obtain ⟨rfl, -⟩ := Prod.mk.inj (Except.ok.inj decoded)
  simp only [recordBodyBytes, List.length_take]
  omega

/-- A record that is read back is within the limit. -/
theorem fits_of_decoded {record : ScannedRecord} {total : Nat} {rest : ByteString}
    (decoded : decodeRecord crc32c maxRecordBytes (encodeRecord crc32c record ++ rest) =
      .ok (record, total)) : Fits maxRecordBytes record := by
  obtain ⟨within, limit⟩ := decodeRecord_payload decoded
  have length : readLE 4 0 (encodeRecord crc32c record ++ rest) =
      recordBodyBytes record % 256 ^ 4 := by
    rw [encodeRecord, List.append_assoc, List.append_assoc, List.append_assoc]
    exact readLE_bytesLE_low [] _ 4 (recordBodyBytes record)
  have small : recordBodyBytes record % 256 ^ 4 < 256 ^ 4 := Nat.mod_lt _ (by decide)
  have whole := Nat.mod_le (recordBodyBytes record) (256 ^ 4)
  exact ⟨by omega, by omega⟩

end Decoding

section Reading

variable {crc32c : ByteString → UInt32} {maxRecordBytes : Nat} {policy : TailPolicy}

/-- The record is within the limit, and it is not the last there can be. -/
def Readable (maxRecordBytes : Nat) (record : ScannedRecord) : Prop :=
  Fits maxRecordBytes record ∧ nextLsn record.lsn ≠ none

/-- The first of the records that is not readable is not read. -/
theorem readRecords_unreadable {good tail : List ScannedRecord} {bad : ScannedRecord}
    {front : ByteString} {expected next : Lsn} (consecutive : Consecutive expected good next)
    (readable : ∀ record ∈ good, Fits maxRecordBytes record)
    (unreadable : ¬ Readable maxRecordBytes bad) {fuel : Nat}
    (enough : ((good ++ bad :: tail).flatMap (encodeRecord crc32c)).length ≤ fuel) :
    let read := readRecords crc32c maxRecordBytes fuel front.length expected
      (front ++ (good ++ bad :: tail).flatMap (encodeRecord crc32c))
    (∀ offset error, read.ended ≠ .broken offset error) →
      ¬ good ++ [bad] <+: read.records ∧
        (read.ended = .complete → good.length < read.records.length) := by
  have positive : ∀ record, 0 < (encodeRecord crc32c record).length := fun record => by
    rw [encodeRecord_length, recordLengthPrefixBytes]
    omega
  induction good generalizing front expected fuel with
  | nil =>
    have some := positive bad
    rw [List.nil_append, List.flatMap_cons, List.length_append] at enough
    obtain ⟨less, rfl⟩ := Nat.exists_eq_add_of_lt (lt_of_lt_of_le some
      (le_trans (Nat.le_add_right _ _) enough))
    have inside : ¬ (front ++ (bad :: tail).flatMap (encodeRecord crc32c)).length ≤
        front.length := by
      rw [List.flatMap_cons, List.length_append, List.length_append]
      omega
    simp only [List.nil_append]
    rw [Nat.zero_add, readRecords, if_neg inside, List.drop_left]
    cases decoded : decodeRecord crc32c maxRecordBytes
        ((bad :: tail).flatMap (encodeRecord crc32c)) with
    | error status => simp
    | ok found =>
      obtain ⟨record, total⟩ := found
      simp only
      by_cases lsn : record.lsn ≠ expected
      · simp [if_pos lsn]
      rw [if_neg lsn]
      cases follows : nextLsn expected with
      | none => simp
      | some following =>
        intro _
        refine ⟨fun same => ?_, by simp⟩
        obtain rfl : bad = record := (List.cons_prefix_cons.mp same).1
        rw [List.flatMap_cons] at decoded
        refine unreadable ⟨fits_of_decoded decoded, ?_⟩
        rw [not_not.mp lsn, follows]
        exact Option.some_ne_none _
  | cons record rest ih =>
    obtain ⟨lsn, following, follows, later⟩ := consecutive
    have some := positive record
    rw [List.cons_append, List.flatMap_cons, List.length_append] at enough
    obtain ⟨less, rfl⟩ := Nat.exists_eq_add_of_lt (lt_of_lt_of_le some
      (le_trans (Nat.le_add_right _ _) enough))
    have decoded : decodeRecord crc32c maxRecordBytes ((front ++ (record :: (rest ++ bad :: tail)
        ).flatMap (encodeRecord crc32c)).drop front.length) =
          .ok (record, (encodeRecord crc32c record).length) := by
      rw [List.drop_left, List.flatMap_cons]
      exact decodeRecord_encodeRecord (readable record (by simp)) _
    have inside : front.length <
        (front ++ (record :: (rest ++ bad :: tail)).flatMap (encodeRecord crc32c)).length := by
      rw [List.flatMap_cons, List.length_append, List.length_append]
      omega
    have behind := @ih (front ++ encodeRecord crc32c record) following later
      (fun other member => readable other (by simp [member])) less (by omega)
    rw [List.length_append, List.append_assoc, ← List.flatMap_cons] at behind
    simp only [List.cons_append] at behind ⊢
    rw [Nat.zero_add, readRecords_record inside decoded lsn follows]
    intro unbroken
    obtain ⟨apart, longer⟩ := behind unbroken
    refine ⟨fun same => apart (List.cons_prefix_cons.mp same).2, fun complete => ?_⟩
    rw [List.length_cons, List.length_cons]
    exact Nat.succ_lt_succ (longer complete)

/-- Records with the LSNs from a position on. -/
def InTurn : Nat → List ScannedRecord → Prop
  | _, [] => True
  | position, record :: rest => record.lsn.toNat = position ∧ InTurn (position + 1) rest

/-- Where none of them has the last LSN, each has a successor. -/
theorem InTurn.consecutive {first : Lsn} {records tail : List ScannedRecord}
    (inTurn : InTurn first.toNat (records ++ tail))
    (followed : ∀ record ∈ records, nextLsn record.lsn ≠ none) :
    ∃ next, Consecutive first records next := by
  induction records generalizing first with
  | nil => exact ⟨first, rfl⟩
  | cons record rest ih =>
    obtain ⟨here, later⟩ := inTurn
    have same : record.lsn = first := UInt64.toNat_inj.mp here
    obtain ⟨next, follows⟩ := Option.ne_none_iff_exists'.mp (followed record (by simp))
    rw [same] at follows
    rw [← nextLsn_toNat follows] at later
    obtain ⟨last, chain⟩ := ih later fun other member => followed other (by simp [member])
    exact ⟨last, same, next, follows, chain⟩

theorem readable_or_first (maxRecordBytes : Nat) (records : List ScannedRecord) :
    (∀ record ∈ records, Readable maxRecordBytes record) ∨
      ∃ good bad tail, records = good ++ bad :: tail ∧
        (∀ record ∈ good, Readable maxRecordBytes record) ∧ ¬ Readable maxRecordBytes bad := by
  induction records with
  | nil => exact .inl (by simp)
  | cons record rest ih =>
    by_cases here : Readable maxRecordBytes record
    swap
    · exact .inr ⟨[], record, rest, rfl, by simp, here⟩
    rcases ih with all | ⟨good, bad, tail, rfl, before, unreadable⟩
    · exact .inl (List.forall_mem_cons.mpr ⟨here, all⟩)
    · exact .inr ⟨record :: good, bad, tail, rfl, List.forall_mem_cons.mpr ⟨here, before⟩,
        unreadable⟩

/-- A segment whose records are all read has readable ones only. A closed segment is read to
its end or not at all; behind the active one nothing more is read. -/
theorem readable_of_readSegment {segment : SegmentEntry} {next : Lsn}
    {records found later others : List ScannedRecord} (valid : segment.firstLsn.valid)
    (inTurn : InTurn segment.firstLsn.toNat records)
    (read : readSegment crc32c maxRecordBytes policy segment segment.firstLsn
      (writtenSegment crc32c segment.firstLsn records) = some (found, next))
    (same : found ++ later = records ++ others) (ends : segment.active = true → later = []) :
    ∀ record ∈ records, Readable maxRecordBytes record := by
  refine (readable_or_first maxRecordBytes records).resolve_right ?_
  rintro ⟨good, bad, tail, rfl, readable, unreadable⟩
  obtain ⟨middle, consecutive⟩ := inTurn.consecutive fun record member => (readable record member).2
  obtain ⟨bytes, written⟩ : ∃ bytes, writtenSegment crc32c segment.firstLsn
      (good ++ bad :: tail) = bytes := ⟨_, rfl⟩
  have parsed : parseSegmentHeader bytes = some segment.firstLsn := by
    rw [← written]
    exact parseSegmentHeader_encodeSegmentHeader valid _
  have stops := @readRecords_unreadable crc32c maxRecordBytes good tail bad
    (encodeSegmentHeader segment.firstLsn) _ _ consecutive
    (fun record member => (readable record member).1) unreadable bytes.length
    (by rw [← written, writtenSegment, List.length_append]; omega)
  rw [segmentHeader_length, ← writtenSegment, written] at stops
  rw [written, readSegment, if_neg (written ▸ writtenSegment_ne_nil), parsed] at read
  simp only [ne_eq, not_true_eq_false, if_false] at read
  generalize readRecords crc32c maxRecordBytes bytes.length segmentHeaderBytes segment.firstLsn
    bytes = reading at stops read
  obtain ⟨records, expected, ended⟩ := reading
  have inside : good ++ [bad] <+: found ++ later := by
    rw [same]
    exact ⟨tail ++ others, by simp⟩
  cases ended with
  | complete =>
    obtain ⟨rfl, -⟩ := Prod.mk.inj (Option.some.inj read)
    obtain ⟨apart, longer⟩ := stops fun _ _ broken => by cases broken
    refine apart (List.prefix_of_prefix_length_le inside (List.prefix_append _ _) ?_)
    rw [List.length_append, List.length_singleton]
    exact longer rfl
  | broken offset error => cases read
  | undecodable offset status =>
    simp only at read
    split at read
    · rename_i trimmable
      obtain ⟨rfl, -⟩ := Prod.mk.inj (Option.some.inj read)
      rw [ends trimmable.1, List.append_nil] at inside
      exact (stops fun _ _ broken => by cases broken).1 inside
    · cases read

/-- Each segment goes on where the one before it ends. -/
def GoesOn (recordsOf : SegmentEntry → List ScannedRecord) (left right : SegmentEntry) : Prop :=
  right.firstLsn.toNat = left.firstLsn.toNat + (recordsOf left).length

/-- A log is read completely exactly when each of its records is readable. -/
theorem readLog_complete_iff {contents : DiskPath → Option ByteString}
    {segments : List SegmentEntry} {recordsOf : SegmentEntry → List ScannedRecord} {start : Lsn}
    (begins : ∀ lead ∈ segments.head?, lead.firstLsn = start)
    (valid : ∀ segment ∈ segments, segment.firstLsn.valid)
    (held : ∀ segment ∈ segments, contents segment.path =
      some (writtenSegment crc32c segment.firstLsn (recordsOf segment)))
    (inTurn : ∀ segment ∈ segments, InTurn segment.firstLsn.toNat (recordsOf segment))
    (continues : segments.IsChain fun left right =>
      left.active = false ∧ GoesOn recordsOf left right) :
    (∃ last, readLog crc32c maxRecordBytes policy contents segments start =
        some (segments.flatMap recordsOf, last)) ↔
      ∀ record ∈ segments.flatMap recordsOf, Readable maxRecordBytes record := by
  induction segments generalizing start with
  | nil => simp [readLog]
  | cons segment rest ih =>
    obtain rfl : segment.firstLsn = start := begins segment rfl
    have here := inTurn segment (by simp)
    have whole : (∀ record ∈ recordsOf segment, Readable maxRecordBytes record) →
        ∃ next, readSegment crc32c maxRecordBytes policy segment segment.firstLsn
            (writtenSegment crc32c segment.firstLsn (recordsOf segment)) =
              some (recordsOf segment, next) ∧ ∀ lead ∈ rest.head?, lead.firstLsn = next := by
      intro readable
      have here : InTurn segment.firstLsn.toNat (recordsOf segment ++ []) := by
        rwa [List.append_nil]
      obtain ⟨next, consecutive⟩ := here.consecutive fun record member =>
        (readable record member).2
      refine ⟨next, readSegment_written (valid segment (by simp)) consecutive
        fun record member => (readable record member).1, fun lead head => ?_⟩
      obtain ⟨others, rfl⟩ : ∃ others, rest = lead :: others := by
        cases rest with
        | nil => cases head
        | cons other others => exact ⟨others, by rw [Option.some.inj head]⟩
      have follows := (List.isChain_cons_cons.mp continues).1.2
      exact UInt64.toNat_inj.mp (follows.trans consecutive.length.symm)
    have behind : ∀ {next : Lsn}, (∀ lead ∈ rest.head?, lead.firstLsn = next) → _ :=
      fun begins => ih begins (fun other member => valid other (by simp [member]))
        (fun other member => held other (by simp [member]))
        (fun other member => inTurn other (by simp [member])) continues.tail
    rw [readLog, held segment (by simp), Option.bind_some, List.flatMap_cons,
      List.forall_mem_append]
    constructor
    · rintro ⟨last, read⟩
      obtain ⟨⟨found, next⟩, first, read⟩ := Option.bind_eq_some_iff.mp read
      obtain ⟨⟨later, ended⟩, others, both⟩ := Option.map_eq_some_iff.mp read
      have same : found ++ later = _ := (Prod.mk.inj both).1
      have readable := readable_of_readSegment (valid segment (by simp)) here first same
        fun active => by
          cases rest with
          | nil => exact (Prod.mk.inj (Option.some.inj others)).1.symm
          | cons other rest =>
            have closed := (List.isChain_cons_cons.mp continues).1.1
            rw [active] at closed
            cases closed
      obtain ⟨next', again, begins⟩ := whole readable
      obtain ⟨rfl, rfl⟩ := Prod.mk.inj (Option.some.inj (first.symm.trans again))
      rw [List.append_cancel_left same] at others
      exact ⟨readable, (behind begins).mp ⟨_, others⟩⟩
    · rintro ⟨readable, later⟩
      obtain ⟨next, read, begins⟩ := whole readable
      obtain ⟨last, others⟩ := (behind begins).mpr later
      exact ⟨last, by rw [read, Option.bind_some, others]; rfl⟩

end Reading

section Accepted

variable {formats : Formats} {config : WalConfig} {machine : Machine} {policy : TailPolicy}
  {segments : List SegmentEntry} {recordsOf : SegmentEntry → List ScannedRecord}

/-- In some state of the log, `append` accepts the record. -/
def AppendAccepts (config : WalConfig) (record : ScannedRecord) : Prop :=
  ∃ (log : LogQueue) (durability : Durability),
    (log.append config ⟨record.kind, record.targetTick, record.payload, durability⟩).1 = .none

theorem appendAccepts_of_le {record : ScannedRecord} (valid : config.Valid)
    (limit : record.payload.length ≤ config.maxRecordBytes)
    (room : record.payload.length ≤ config.queueMaxBytes) : AppendAccepts config record := by
  have some := valid.queueMaxRecords
  refine ⟨{ writer := { started := true } }, .durable, ?_⟩
  simp [LogQueue.append, payloadBytes, not_lt.mpr limit, not_lt.mpr room, some]

/-- The segments as the writer leaves them, whatever the records it accepted are. -/
structure AcceptedLog (crc32c : ByteString → UInt32) (config : WalConfig) (machine : Machine)
    (segments : List SegmentEntry) (recordsOf : SegmentEntry → List ScannedRecord) : Prop where
  listed : SegmentsOf machine config.layout.walDir segments
  named : ∀ segment ∈ segments, segment.path = config.layout.walDir.file
    (segmentFileName segment.firstLsn ++
      if segment.active then activeSegmentSuffix else segmentExtension)
  contents : ∀ segment ∈ segments, machine.disk.contents segment.path =
    some (writtenSegment crc32c segment.firstLsn (recordsOf segment))
  inTurn : ∀ segment ∈ segments, InTurn segment.firstLsn.toNat (recordsOf segment)
  continues : segments.IsChain fun left right =>
    left.active = false ∧ GoesOn recordsOf left right
  accepted : ∀ record ∈ segments.flatMap recordsOf, AppendAccepts config record

/-- Every record is decoded with the limit it was accepted under. -/
def DecodesAll (crc32c : ByteString → UInt32) (config : WalConfig)
    (records : List ScannedRecord) : Prop :=
  ∀ record ∈ records, ∀ rest, decodeRecord crc32c config.maxRecordBytes
    (encodeRecord crc32c record ++ rest) = .ok (record, (encodeRecord crc32c record).length)

/-- The limit of the scans that are given none. -/
def defaultMaxRecordBytes : Nat := 4 * 1024 * 1024

/-- The scan behind the recovery plan, which rebuilds the index of the durable requests. -/
def startupScan (crc32c : ByteString → UInt32) (walDir : Directory) : FileProgram WalScanResult :=
  scanWalDirectory crc32c defaultMaxRecordBytes walDir .trimActiveTail firstLsn

def ScanReads (scan : FileProgram WalScanResult) (machine : Machine)
    (records : List ScannedRecord) : Prop :=
  ∀ result now, Program.Reaches Machine.Succeeds scan machine (.pure result) now →
    result.error = .none ∧ result.records = records

/-- The plan is made of a scan that reads the records. -/
def PlannerReads (formats : Formats) (loader : CheckpointLoader) (policy : TailPolicy)
    (machine : Machine) (records : List ScannedRecord) : Prop :=
  ∃ scan : WalScanResult, scan.error = .none ∧ scan.records = records ∧
    recovery formats loader policy machine =
      (baseOf formats loader machine).bind fun checkpoint => planReplay checkpoint scan

theorem decodesAll_iff {records : List ScannedRecord} :
    DecodesAll formats.crc32c config records ↔
      ∀ record ∈ records, Fits config.maxRecordBytes record := by
  constructor
  · exact fun decodes record member => fits_of_decoded (decodes record member [])
  · exact fun fits record member rest => decodeRecord_encodeRecord (fits record member) rest

/-- A scan reads the whole log exactly when every record is readable and the log begins where
the scan does. -/
theorem AcceptedLog.scanReads_iff {crc32c : ByteString → UInt32}
    (log : AcceptedLog crc32c config machine segments recordsOf) (maxRecordBytes : Nat)
    (firstExpected : Lsn) :
    ScanReads (scanWalDirectory crc32c maxRecordBytes config.layout.walDir policy firstExpected)
        machine (segments.flatMap recordsOf) ↔
      (∀ record ∈ segments.flatMap recordsOf, Readable maxRecordBytes record) ∧
        (firstExpected.valid → ∀ lead ∈ segments.head?, lead.firstLsn = firstExpected) := by
  have valid : ∀ segment ∈ segments, segment.firstLsn.valid :=
    fun segment member => segmentEntry_valid (log.listed.mem_iff.mp member).1
  have complete : ∀ {start : Lsn}, (∀ lead ∈ segments.head?, lead.firstLsn = start) → _ :=
    fun begins => @readLog_complete_iff crc32c maxRecordBytes policy _ _ _ _ begins valid
      log.contents log.inTurn log.continues
  have begun : ∀ lead ∈ segments.head?,
      lead.firstLsn = (segments.head?.map SegmentEntry.firstLsn).getD 0 := by
    intro lead head
    rw [head]
    rfl
  have answers : ∀ {result : WalScanResult} {now : Machine}, Program.Reaches Machine.Succeeds
      (scanWalDirectory crc32c maxRecordBytes config.layout.walDir policy firstExpected) machine
      (.pure result) now → (segments = [] ∧ result = {}) ∨ Scanned crc32c maxRecordBytes policy
        machine.disk.contents segments firstExpected result := by
    intro result now scanned
    obtain ⟨others, again, answer⟩ := (((scanWalDirectory_ensures _ _).sound scanned).2 _ rfl).1
    obtain rfl := segmentsOf_unique log.listed again (path_of_names log.named)
    exact answer
  constructor
  · intro reads
    have scanned := succeeds_run (scanWalDirectory crc32c maxRecordBytes config.layout.walDir
      policy firstExpected) machine
    obtain ⟨error, records⟩ := reads _ _ scanned
    rcases answers scanned with ⟨rfl, -⟩ | answer
    · simp
    unfold Scanned at answer
    simp only at answer
    cases read : readLog crc32c maxRecordBytes policy machine.disk.contents segments
        (if firstExpected.valid then firstExpected
          else (segments.head?.map SegmentEntry.firstLsn).getD 0) with
    | none =>
      rw [read] at answer
      exact absurd error answer
    | some found =>
      obtain ⟨all, last⟩ := found
      rw [read] at answer
      obtain rfl := answer.2.1.symm.trans records
      have start : firstExpected.valid → ∀ lead ∈ segments.head?, lead.firstLsn = firstExpected := by
        intro given lead head
        by_contra other
        obtain ⟨others, rfl⟩ : ∃ others, segments = lead :: others := by
          cases segments with
          | nil => cases head
          | cons first others => exact ⟨others, by rw [Option.some.inj head]⟩
        rw [if_pos given, readLog, log.contents lead (by simp), Option.bind_some,
          readSegment_other (valid lead (by simp)) other] at read
        cases read
      refine ⟨(complete ?_).mp ⟨last, read⟩, start⟩
      split
      · rename_i given
        exact start given
      · exact begun
  · rintro ⟨readable, start⟩ result now scanned
    rcases answers scanned with ⟨rfl, rfl⟩ | answer
    · exact ⟨rfl, rfl⟩
    have begins : ∀ lead ∈ segments.head?, lead.firstLsn = if firstExpected.valid then firstExpected
        else (segments.head?.map SegmentEntry.firstLsn).getD 0 := by
      split
      · rename_i given
        exact start given
      · exact begun
    obtain ⟨last, read⟩ := (complete begins).mpr readable
    unfold Scanned at answer
    simp only [read] at answer
    exact ⟨answer.1, answer.2.1⟩

/-- What both limits leave room for. -/
def WithinLimits (config : WalConfig) (record : ScannedRecord) : Prop :=
  recordBodyBytes record ≤ config.maxRecordBytes ∧
    recordBodyBytes record ≤ defaultMaxRecordBytes ∧ nextLsn record.lsn ≠ none

theorem fits_of_le {limit : Nat} {record : ScannedRecord}
    (within : recordBodyBytes record ≤ limit)
    (small : recordBodyBytes record ≤ defaultMaxRecordBytes) : Fits limit record := by
  unfold defaultMaxRecordBytes at small
  exact ⟨within, by omega⟩

/-- What was accepted and written is read back, by the decoder, by the planner and by the scan
at startup, exactly when it is within both limits and nothing was pruned. -/
theorem accepted_records_read_iff
    (log : AcceptedLog formats.crc32c config machine segments recordsOf)
    {loader : CheckpointLoader} (same : loader.layout = config.layout) :
    (DecodesAll formats.crc32c config (segments.flatMap recordsOf) ∧
        ScanReads (startupScan formats.crc32c config.layout.walDir) machine
          (segments.flatMap recordsOf) ∧
        PlannerReads formats loader policy machine (segments.flatMap recordsOf)) ↔
      (∀ record ∈ segments.flatMap recordsOf, WithinLimits config record) ∧
        ∀ lead ∈ segments.head?, lead.firstLsn = firstLsn := by
  constructor
  · rintro ⟨decodes, scans, -⟩
    have fits := decodesAll_iff.mp decodes
    obtain ⟨readable, start⟩ := (log.scanReads_iff _ _).mp scans
    exact ⟨fun record member => ⟨(fits record member).1, (readable record member).1.1,
      (readable record member).2⟩, start (by decide)⟩
  · rintro ⟨within, start⟩
    have readable : ∀ record ∈ segments.flatMap recordsOf,
        Readable defaultMaxRecordBytes record := fun record member =>
      ⟨fits_of_le (within record member).2.1 (within record member).2.1, (within record member).2.2⟩
    refine ⟨decodesAll_iff.mpr fun record member =>
      fits_of_le (within record member).1 (within record member).2.1,
      (log.scanReads_iff _ _).mpr ⟨readable, fun _ => start⟩, ?_⟩
    cases base : baseOf formats loader machine with
    | error error =>
      refine ⟨{ records := segments.flatMap recordsOf }, rfl, rfl, ?_⟩
      rw [recovery_eq, base]
      rfl
    | ok checkpoint =>
      have reads := (@AcceptedLog.scanReads_iff _ _ policy _ _ _ log defaultMaxRecordBytes
        (if checkpoint.isSome then 0 else firstLsn)).mpr ⟨readable, fun given => by
          split at given
          · exact absurd given (by decide)
          · rename_i missing
            rw [if_neg missing]
            exact start⟩
      obtain ⟨error, records⟩ := reads _ _ (succeeds_run _ _)
      refine ⟨_, error, records, ?_⟩
      rw [recovery_eq, base]
      change replayFrom formats loader policy machine checkpoint = _
      unfold replayFrom
      rw [same]
      rfl

/-- The largest payload that is accepted under the default limits. -/
def largestRecord : ScannedRecord :=
  ⟨1, .externalCommand, 1, List.replicate (4 * 1024 * 1024) 0⟩

theorem largest_length : largestRecord.payload.length = 4 * 1024 * 1024 :=
  List.length_replicate

theorem largest_accepted : AppendAccepts pairConfig largestRecord :=
  appendAccepts_of_le (by decide) largest_length.le (largest_length.le.trans (by decide))

/-- With its header and checksum it is over the limit of the decoder. -/
theorem largest_record_unread :
    ¬ ∀ (crc32c : ByteString → UInt32) (config : WalConfig) (record : ScannedRecord),
      config.Valid → AppendAccepts config record → DecodesAll crc32c config [record] := by
  intro claimed
  have decodes := claimed castagnoli pairConfig largestRecord (by decide) largest_accepted
  have fits := fits_of_decoded (decodes largestRecord (by simp) [])
  have body : recordBodyBytes largestRecord = 24 + 4 * 1024 * 1024 + 4 := by
    rw [recordBodyBytes, largest_length]
    rfl
  have limit : pairConfig.maxRecordBytes = 4 * 1024 * 1024 := rfl
  have within := fits.1
  omega

def smallSegment : SegmentEntry where
  path := pairConfig.layout.walDir.file (segmentFileName 1 ++ activeSegmentSuffix)
  firstLsn := 1
  active := true

def smallRecords : List ScannedRecord :=
  [⟨1, .externalCommand, 1, [7]⟩, ⟨2, .externalCommand, 1, [8, 9]⟩]

def smallMachine : Machine :=
  .holding [pairConfig.layout.walDir]
    [(smallSegment.path, writtenSegment castagnoli 1 smallRecords)]

theorem small_accepted : AcceptedLog castagnoli pairConfig smallMachine [smallSegment]
    fun _ => smallRecords where
  listed := by
    unfold SegmentsOf
    decide +kernel
  named segment member := by
    obtain rfl := List.mem_singleton.mp member
    decide +kernel
  contents segment member := by
    obtain rfl := List.mem_singleton.mp member
    decide +kernel
  inTurn segment member := by
    obtain rfl := List.mem_singleton.mp member
    exact ⟨rfl, rfl, trivial⟩
  continues := by simp
  accepted record member := by
    have short : ∀ record ∈ smallRecords, record.payload.length ≤ 2 := by decide
    have length := short record (by simpa using member)
    exact appendAccepts_of_le (by decide) (length.trans (by decide)) (length.trans (by decide))

theorem accepted_records_read_small :
    DecodesAll castagnoli pairConfig ([smallSegment].flatMap fun _ => smallRecords) ∧
      ScanReads (startupScan castagnoli pairConfig.layout.walDir) smallMachine
        ([smallSegment].flatMap fun _ => smallRecords) ∧
      PlannerReads plainFormats ⟨pairConfig.layout, 7, Vector.replicate 16 1⟩ .strict smallMachine
        ([smallSegment].flatMap fun _ => smallRecords) := by
  have within : ∀ record ∈ [smallSegment].flatMap fun _ => smallRecords,
      recordBodyBytes record ≤ 30 ∧ nextLsn record.lsn ≠ none := by decide
  have limits : pairConfig.maxRecordBytes = 4194304 ∧ defaultMaxRecordBytes = 4194304 :=
    ⟨rfl, rfl⟩
  have log : AcceptedLog plainFormats.crc32c pairConfig smallMachine [smallSegment]
      fun _ => smallRecords := small_accepted
  refine (accepted_records_read_iff log rfl).mpr ⟨fun record member => ?_, fun lead head => ?_⟩
  · obtain ⟨body, follows⟩ := within record member
    exact ⟨by omega, by omega, follows⟩
  · obtain rfl := Option.some.inj head
    rfl

end Accepted

end GeoWorld.Persistence
