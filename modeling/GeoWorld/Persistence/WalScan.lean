import Mathlib
import GeoWorld.Persistence.CheckpointLoader
import GeoWorld.Persistence.WalReader

/-!
The scan of a log directory on healthy storage, told from the bytes of its segments: what
each segment adds, where its tail is cut off, and when the scan stops with an error.
-/

namespace GeoWorld.Persistence

open WorldModel Library

/-- What the scan of a segment does; `cut` is where the tail is cut off. -/
structure SegmentScan where
  result : WalScanResult
  expected : Lsn
  goOn : Bool
  cut : Option Nat := none

def SegmentScan.outcome (scan : SegmentScan) : WalScanResult × Lsn × Bool :=
  (scan.result, scan.expected, scan.goOn)

/-- The file is cut off, if it is. -/
def Machine.cutAt (machine : Machine) (path : DiskPath) : Option Nat → Machine
  | none => machine
  | some offset => machine.setDisk (machine.disk.truncate path offset)

section Bytes

variable (crc32c : ByteString → UInt32) (maxRecordBytes : Nat)

def trimmedTail (result : WalScanResult) (segment : SegmentEntry) (bytes : ByteString)
    (goodOffset : Nat) : WalScanResult :=
  { result with
    trimmedBytes := result.trimmedBytes + (bytes.length - goodOffset)
    activeSegment := some segment.path }

/-- The scan of the records behind a header that parsed. -/
def scanRecords (result : WalScanResult) (segment : SegmentEntry) (policy : TailPolicy)
    (expected : Lsn) (bytes : ByteString) : SegmentScan :=
  let result := if segment.active then
    { result with activeSegment := some segment.path } else result
  let read := readRecords crc32c maxRecordBytes bytes.length segmentHeaderBytes expected bytes
  let result := { result with records := result.records ++ read.records }
  match read.ended with
  | .complete => ⟨result, read.expected, true, none⟩
  | .broken offset error =>
    ⟨reportCorruption result segment offset read.expected error, read.expected, false, none⟩
  | .undecodable offset status =>
    if segment.active ∧ policy = .trimActiveTail then
      ⟨trimmedTail result segment bytes offset, read.expected, true, some offset⟩
    else
      ⟨reportCorruption result segment offset read.expected
        (if status = .crcMismatch then .checksumMismatch else .segmentCorrupted), read.expected,
        false, none⟩

/-- A segment without a readable header. -/
def scanHeaderless (result : WalScanResult) (segment : SegmentEntry) (policy : TailPolicy)
    (expected : Lsn) (bytes : ByteString) : SegmentScan :=
  if segment.active ∧ policy = .trimActiveTail then
    ⟨trimmedTail result segment bytes 0, expected, true, some 0⟩
  else
    ⟨reportCorruption result segment 0 expected .segmentCorrupted, expected, false, none⟩

def scanBytes (result : WalScanResult) (segment : SegmentEntry) (policy : TailPolicy)
    (expected : Lsn) (bytes : ByteString) : SegmentScan :=
  if bytes = [] then
    if segment.active then
      ⟨{ result with activeSegment := some segment.path }, expected, true, none⟩
    else
      ⟨reportCorruption result segment 0 expected .segmentCorrupted, expected, false, none⟩
  else match parseSegmentHeader bytes with
    | none => scanHeaderless result segment policy expected bytes
    | some headerFirst =>
      if headerFirst ≠ expected then
        ⟨reportCorruption result segment 0 expected .lsnDiscontinuity, expected, false, none⟩
      else scanRecords crc32c maxRecordBytes result segment policy expected bytes

end Bytes

section Healthy

variable {crc32c : ByteString → UInt32} {maxRecordBytes : Nat} {machine : Machine}

theorem succeeds_truncateFile {path : DiskPath} {size : Nat} {error : PersistenceError}
    {after : Machine} (answered : Machine.Succeeds machine (.truncateFile path size) error after)
    {bytes : ByteString} (found : machine.disk.contents path = some bytes) :
    after = machine.setDisk (machine.disk.truncate path size) := by
  rcases answered with succeeded | no
  · have live : (machine.disk.live[path]?).isSome := by
      obtain ⟨file, held, _⟩ := Option.map_eq_some_iff.mp found
      rw [held]
      rfl
    rw [Machine.perform, if_pos live] at succeeded
    exact (Prod.mk.inj succeeded).2
  · exact no.elim

theorem trimActiveTail_ensures {result : WalScanResult} {segment : SegmentEntry}
    {bytes : ByteString} (found : machine.disk.contents segment.path = some bytes)
    (goodOffset : Nat) :
    Program.Ensures Machine.Succeeds (fun _ => True)
      (fun trimmed now => trimmed = trimmedTail result segment bytes goodOffset ∧
        now = machine.cutAt segment.path (some goodOffset))
      (trimActiveTail result segment goodOffset) machine := by
  unfold trimActiveTail
  refine Program.ensures_perform_bind.mpr ⟨trivial, fun answer after answered => ?_⟩
  obtain ⟨rfl, read⟩ := succeeds_readFile answered
  rw [found] at read
  obtain rfl : answer = .ok bytes := by
    cases answer with
    | error error => cases read
    | ok other => rw [Option.some.inj read]
  refine Program.ensures_perform_bind.mpr ⟨trivial, fun error now answered => ?_⟩
  exact ⟨trivial, rfl, succeeds_truncateFile answered found⟩

/-- The scan of a segment is told by its bytes. -/
theorem scanSegment_ensures {result : WalScanResult} {segment : SegmentEntry}
    {bytes : ByteString} (found : machine.disk.contents segment.path = some bytes)
    (policy : TailPolicy) (expected : Lsn) :
    Program.Ensures Machine.Succeeds (fun _ => True)
      (fun outcome now =>
        outcome = (scanBytes crc32c maxRecordBytes result segment policy expected bytes).outcome ∧
        now = machine.cutAt segment.path
          (scanBytes crc32c maxRecordBytes result segment policy expected bytes).cut)
      (scanSegment crc32c maxRecordBytes result segment policy expected) machine := by
  unfold scanSegment
  refine Program.ensures_perform_bind.mpr ⟨trivial, fun answer after answered => ?_⟩
  obtain ⟨rfl, read⟩ := succeeds_readFile answered
  rw [found] at read
  obtain rfl : answer = .ok bytes := by
    cases answer with
    | error error => cases read
    | ok other => rw [Option.some.inj read]
  have headerless : parseSegmentHeader bytes = none → bytes ≠ [] →
      scanBytes crc32c maxRecordBytes result segment policy expected bytes =
        scanHeaderless result segment policy expected bytes := by
    intro unparsed some
    rw [scanBytes, if_neg some, unparsed]
  have trims : ∀ {result : WalScanResult} {rest : Lsn} {offset : Nat} {scan : SegmentScan},
      scan = ⟨trimmedTail result segment bytes offset, rest, true, some offset⟩ →
      Program.Ensures Machine.Succeeds (fun _ => True)
        (fun outcome now => outcome = scan.outcome ∧ now = after.cutAt segment.path scan.cut)
        (do
          let trimmed ← trimActiveTail result segment offset
          return (trimmed, rest, true)) after := by
    intro result rest offset scan same
    subst same
    refine (trimActiveTail_ensures found offset).bind fun trimmed now _ done => ?_
    obtain ⟨rfl, rfl⟩ := done
    exact ⟨trivial, rfl, rfl⟩
  simp only
  split
  · rename_i short
    have unparsed : parseSegmentHeader bytes = none := if_pos short
    split
    · rename_i empty
      subst empty
      split
      · rename_i active
        exact ⟨trivial, by simp [scanBytes, active, SegmentScan.outcome, Machine.cutAt]⟩
      · rename_i closed
        exact ⟨trivial, by simp [scanBytes, closed, SegmentScan.outcome, Machine.cutAt]⟩
    rename_i some
    rw [headerless unparsed some]
    split
    · rename_i trimmable
      exact trims (if_pos trimmable)
    · rename_i kept
      rw [scanHeaderless, if_neg kept]
      exact ⟨trivial, rfl, rfl⟩
  rename_i long
  have some : bytes ≠ [] := by
    rintro rfl
    exact long (by decide)
  split
  · rename_i unparsed
    rw [headerless unparsed some]
    split
    · rename_i trimmable
      exact trims (if_pos trimmable)
    · rename_i kept
      rw [scanHeaderless, if_neg kept]
      exact ⟨trivial, rfl, rfl⟩
  rename_i headerFirst parsed
  rw [scanBytes, if_neg some, parsed]
  simp only
  split
  · exact ⟨trivial, rfl, rfl⟩
  unfold scanRecords
  generalize readRecords crc32c maxRecordBytes bytes.length segmentHeaderBytes expected bytes = read
  obtain ⟨records, next, ended⟩ := read
  cases ended with
  | complete => exact ⟨trivial, rfl, rfl⟩
  | broken offset error => exact ⟨trivial, rfl, rfl⟩
  | undecodable offset status =>
    simp only
    split
    · exact trims rfl
    · exact ⟨trivial, rfl, rfl⟩

end Healthy

section Reading

variable (crc32c : ByteString → UInt32) (maxRecordBytes : Nat) (policy : TailPolicy)

/-- The records a segment adds and the LSN behind them, unless it ends the scan. -/
def readSegment (segment : SegmentEntry) (expected : Lsn) (bytes : ByteString) :
    Option (List ScannedRecord × Lsn) :=
  if bytes = [] then
    if segment.active then some ([], expected) else none
  else match parseSegmentHeader bytes with
    | none => if segment.active ∧ policy = .trimActiveTail then some ([], expected) else none
    | some headerFirst =>
      if headerFirst ≠ expected then none
      else
        let read := readRecords crc32c maxRecordBytes bytes.length segmentHeaderBytes expected bytes
        match read.ended with
        | .complete => some (read.records, read.expected)
        | .broken _ _ => none
        | .undecodable _ _ =>
          if segment.active ∧ policy = .trimActiveTail then some (read.records, read.expected)
          else none

def readLog (contents : DiskPath → Option ByteString) :
    List SegmentEntry → Lsn → Option (List ScannedRecord × Lsn)
  | [], expected => some ([], expected)
  | segment :: rest, expected =>
    (contents segment.path).bind fun bytes =>
      (readSegment crc32c maxRecordBytes policy segment expected bytes).bind fun read =>
        (readLog contents rest read.2).map fun later => (read.1 ++ later.1, later.2)

/-- The outcome of a scan that began with a result, as reading says. -/
def ReadAs (result : WalScanResult) (outcome : WalScanResult × Lsn × Bool) :
    Option (List ScannedRecord × Lsn) → Prop
  | some (records, next) => outcome.2.2 = true ∧ outcome.2.1 = next ∧
    outcome.1.records = result.records ++ records ∧ outcome.1.error = result.error ∧
      outcome.1.firstLsn = result.firstLsn
  | none => outcome.2.2 = false ∧ outcome.1.error ≠ .none

variable {crc32c maxRecordBytes policy}

theorem readRecords_broken {fuel offset : Nat} {expected : Lsn} {bytes : ByteString}
    {broken : Nat} {error : PersistenceError}
    (ended : (readRecords crc32c maxRecordBytes fuel offset expected bytes).ended =
      .broken broken error) : error ≠ .none := by
  induction fuel generalizing offset expected with
  | zero => cases ended
  | succ fuel ih =>
    unfold readRecords at ended
    split at ended
    · cases ended
    split at ended
    · cases ended
    split at ended
    · obtain ⟨-, rfl⟩ := RecordsEnd.broken.inj ended
      nofun
    split at ended
    · obtain ⟨-, rfl⟩ := RecordsEnd.broken.inj ended
      nofun
    · exact ih ended

theorem scanBytes_readAs (result : WalScanResult) (segment : SegmentEntry) (expected : Lsn)
    (bytes : ByteString) :
    ReadAs result (scanBytes crc32c maxRecordBytes result segment policy expected bytes).outcome
      (readSegment crc32c maxRecordBytes policy segment expected bytes) := by
  unfold scanBytes readSegment
  split
  · split
    · simp [ReadAs, SegmentScan.outcome]
    · simp [ReadAs, SegmentScan.outcome, reportCorruption]
  cases parsed : parseSegmentHeader bytes with
  | none =>
    simp only [scanHeaderless]
    split
    · simp [ReadAs, SegmentScan.outcome, trimmedTail]
    · simp [ReadAs, SegmentScan.outcome, reportCorruption]
  | some headerFirst =>
    simp only
    split
    · simp [ReadAs, SegmentScan.outcome, reportCorruption]
    have unbroken := @readRecords_broken crc32c maxRecordBytes bytes.length segmentHeaderBytes
      expected bytes
    unfold scanRecords
    generalize readRecords crc32c maxRecordBytes bytes.length segmentHeaderBytes expected bytes =
      read at unbroken
    obtain ⟨records, next, ended⟩ := read
    cases ended with
    | complete => cases active : segment.active <;> simp [ReadAs, SegmentScan.outcome]
    | broken offset error =>
      simpa [ReadAs, SegmentScan.outcome, reportCorruption] using unbroken rfl
    | undecodable offset status =>
      simp only
      split
      · rename_i trimmable
        simp [ReadAs, SegmentScan.outcome, trimmedTail, trimmable.1]
      · by_cases mismatch : status = .crcMismatch <;>
          simp [ReadAs, SegmentScan.outcome, reportCorruption, mismatch]

theorem readLog_congr {contents other : DiskPath → Option ByteString}
    {segments : List SegmentEntry} {expected : Lsn}
    (same : ∀ segment ∈ segments, other segment.path = contents segment.path) :
    readLog crc32c maxRecordBytes policy other segments expected =
      readLog crc32c maxRecordBytes policy contents segments expected := by
  induction segments generalizing expected with
  | nil => rfl
  | cons segment rest ih =>
    have later : ∀ expected, readLog crc32c maxRecordBytes policy other rest expected =
        readLog crc32c maxRecordBytes policy contents rest expected :=
      fun expected => ih fun other member => same other (by simp [member])
    simp only [readLog, same segment (by simp), later]

theorem cutAt_contents {machine : Machine} {path other : DiskPath} (different : other ≠ path)
    (cut : Option Nat) :
    (machine.cutAt path cut).disk.contents other = machine.disk.contents other := by
  cases cut with
  | none => rfl
  | some offset => exact (Disk.truncate_keeps different offset).contents

/-- The scan of segments reads them in turn and touches no other file. -/
theorem scanSegments_ensures {machine : Machine} {segments : List SegmentEntry}
    {result : WalScanResult} {expected : Lsn}
    (present : ∀ segment ∈ segments, machine.disk.contents segment.path ≠ none)
    (distinct : segments.Pairwise fun left right => left.path ≠ right.path) :
    Program.Ensures Machine.Succeeds (fun _ => True)
      (fun outcome now => ReadAs result outcome
          (readLog crc32c maxRecordBytes policy machine.disk.contents segments expected) ∧
        ∀ path, (∀ segment ∈ segments, segment.path ≠ path) →
          now.disk.contents path = machine.disk.contents path)
      (scanSegments crc32c maxRecordBytes policy segments result expected) machine := by
  induction segments generalizing machine result expected with
  | nil => exact ⟨trivial, by simp [ReadAs, readLog], fun _ _ => rfl⟩
  | cons segment rest ih =>
    obtain ⟨apart, distinct⟩ := List.pairwise_cons.mp distinct
    obtain ⟨bytes, found⟩ := Option.ne_none_iff_exists'.mp (present segment (by simp))
    unfold scanSegments
    refine (scanSegment_ensures found policy expected).bind fun outcome now _ scanned => ?_
    obtain ⟨rfl, rfl⟩ := scanned
    have read := @scanBytes_readAs crc32c maxRecordBytes policy result segment expected bytes
    generalize scanBytes crc32c maxRecordBytes result segment policy expected bytes = scan at read
    obtain ⟨reached, next, goOn, cut⟩ := scan
    have elsewhere : ∀ path, (∀ other ∈ segment :: rest, other.path ≠ path) →
        (machine.cutAt segment.path cut).disk.contents path = machine.disk.contents path :=
      fun path away => cutAt_contents (away segment (by simp)).symm _
    have same : ∀ other ∈ rest, (machine.cutAt segment.path cut).disk.contents other.path =
        machine.disk.contents other.path :=
      fun other member => cutAt_contents (apart other member).symm _
    simp only [readLog, found, Option.bind_some]
    cases reading : readSegment crc32c maxRecordBytes policy segment expected bytes with
    | none =>
      rw [reading] at read
      obtain ⟨stopped, failed⟩ := read
      simp only [SegmentScan.outcome] at stopped failed
      subst stopped
      exact ⟨trivial, ⟨rfl, failed⟩, elsewhere⟩
    | some outcome =>
      rw [reading] at read
      obtain ⟨onward, follow, records, error, first⟩ := read
      simp only [SegmentScan.outcome] at onward follow records error first
      subst onward follow
      refine (ih (fun other member => same other member ▸ present other (by simp [member]))
        distinct).mono (fun _ holds => holds) fun ended now _ later => ?_
      rw [readLog_congr same] at later
      refine ⟨?_, fun path away => ?_⟩
      · have read : ReadAs reached ended (readLog crc32c maxRecordBytes policy
            machine.disk.contents rest outcome.2) := later.1
        simp only [Option.bind_some]
        cases remaining : readLog crc32c maxRecordBytes policy machine.disk.contents rest
            outcome.2 with
        | none =>
          rw [remaining] at read
          exact read
        | some rest =>
          rw [remaining] at read
          obtain ⟨complete, last, all, errors, firsts⟩ := read
          exact ⟨complete, last, by rw [all, records, List.append_assoc], errors.trans error,
            firsts.trans first⟩
      · rw [later.2 path fun other member => away other (by simp [member])]
        exact elsewhere path away

/-- The segments of a directory in the order of a scan. -/
def SegmentsOf (machine : Machine) (walDir : Directory) (segments : List SegmentEntry) : Prop :=
  segments.Perm ((machine.filesIn walDir).filterMap segmentEntry) ∧
    segments.Pairwise fun left right => left.before right

/-- What the scan of a directory with these segments answers. -/
def Scanned (crc32c : ByteString → UInt32) (maxRecordBytes : Nat) (policy : TailPolicy)
    (contents : DiskPath → Option ByteString) (segments : List SegmentEntry) (firstExpected : Lsn)
    (result : WalScanResult) : Prop :=
  let first := (segments.head?.map SegmentEntry.firstLsn).getD 0
  let expected := if firstExpected.valid then firstExpected else first
  match readLog crc32c maxRecordBytes policy contents segments expected with
  | none => result.error ≠ .none
  | some (records, ended) => result.error = .none ∧ result.records = records ∧
    result.firstLsn = first ∧ result.nextLsn = ended ∧
      result.lastLsn = if ended.valid ∧ expected < ended then ended - 1 else 0

theorem segmentEntry_path {path : DiskPath} {segment : SegmentEntry}
    (entry : segmentEntry path = some segment) : segment.path = path := by
  unfold segmentEntry at entry
  split at entry
  · cases entry
  split at entry
  · obtain ⟨_, _, rfl⟩ := Option.map_eq_some_iff.mp entry
    rfl
  split at entry
  · obtain ⟨_, _, rfl⟩ := Option.map_eq_some_iff.mp entry
    rfl
  · cases entry

theorem before_total (left right : SegmentEntry) : left.before right ∨ right.before left := by
  unfold SegmentEntry.before
  by_cases same : left.active = right.active
  · simp only [same, ne_eq, not_true_eq_false, if_false, decide_eq_true_eq]
    exact UInt64.le_total _ _
  · rw [if_pos same, if_pos (Ne.symm same)]
    cases active : left.active
    · exact .inl rfl
    · cases other : right.active
      · exact .inr rfl
      · exact absurd (active.trans other.symm) same

theorem before_trans {first second third : SegmentEntry} (left : first.before second)
    (right : second.before third) : first.before third := by
  unfold SegmentEntry.before at *
  cases one : first.active <;> cases two : second.active <;> cases three : third.active <;>
    simp_all
  · exact UInt64.le_trans left right
  · exact UInt64.le_trans left right

theorem mem_entries {machine : Machine} {walDir : Directory} {segment : SegmentEntry} :
    segment ∈ (machine.filesIn walDir).filterMap segmentEntry ↔
      segmentEntry segment.path = some segment ∧ segment.path.directory = walDir ∧
        machine.disk.contents segment.path ≠ none := by
  rw [List.mem_filterMap]
  constructor
  · rintro ⟨path, inside, entry⟩
    obtain rfl := segmentEntry_path entry
    exact ⟨entry, (mem_filesIn.mp inside).symm⟩
  · rintro ⟨entry, inside, present⟩
    exact ⟨segment.path, mem_filesIn.mpr ⟨present, inside⟩, entry⟩

theorem filesIn_nodup (machine : Machine) (walDir : Directory) :
    (machine.filesIn walDir).Nodup :=
  List.Nodup.filter _ Std.ExtTreeMap.nodup_keys

theorem entries_distinct (machine : Machine) (walDir : Directory) :
    ((machine.filesIn walDir).filterMap segmentEntry).Pairwise
      fun left right => left.path ≠ right.path := by
  refine List.Pairwise.filterMap _ (fun left right apart first one second two => ?_)
    (filesIn_nodup machine walDir)
  rw [segmentEntry_path one, segmentEntry_path two]
  exact apart

/-- A segment file of the directory. -/
def IsSegment (machine : Machine) (walDir : Directory) (segment : SegmentEntry) : Prop :=
  segmentEntry segment.path = some segment ∧ segment.path.directory = walDir ∧
    machine.disk.contents segment.path ≠ none

theorem SegmentsOf.mem_iff {machine : Machine} {walDir : Directory}
    {segments : List SegmentEntry} (listed : SegmentsOf machine walDir segments)
    {segment : SegmentEntry} : segment ∈ segments ↔ IsSegment machine walDir segment :=
  listed.1.mem_iff.trans mem_entries

theorem SegmentsOf.present {machine : Machine} {walDir : Directory} {segments : List SegmentEntry}
    (listed : SegmentsOf machine walDir segments) :
    ∀ segment ∈ segments, segment.path.directory = walDir ∧
      machine.disk.contents segment.path ≠ none :=
  fun _ member => (listed.mem_iff.mp member).2

theorem SegmentsOf.distinct {machine : Machine} {walDir : Directory}
    {segments : List SegmentEntry} (listed : SegmentsOf machine walDir segments) :
    segments.Pairwise fun left right => left.path ≠ right.path :=
  (listed.1.pairwise_iff fun apart => apart.symm).mpr (entries_distinct machine walDir)

/-- What a scan answers behind its last segment. -/
def finished (expected : Lsn) (outcome : WalScanResult × Lsn × Bool) : WalScanResult :=
  if outcome.2.2 then
    { outcome.1 with
      lastLsn := if outcome.2.1.valid ∧ expected < outcome.2.1 then outcome.2.1 - 1 else 0
      nextLsn := outcome.2.1 }
  else outcome.1

/-- The rule of a scan: it reads the segments of the directory in their order. -/
theorem scanWalDirectory_rule {machine : Machine} {walDir : Directory} {firstExpected : Lsn}
    {post : WalScanResult → Machine → Prop}
    (nothing : SegmentsOf machine walDir [] → post {} machine)
    (scans : ∀ segments, SegmentsOf machine walDir segments →
      let first := (segments.head?.map SegmentEntry.firstLsn).getD 0
      let expected := if firstExpected.valid then firstExpected else first
      Program.Ensures Machine.Succeeds (fun _ => True)
        (fun outcome now => post (finished expected outcome) now)
        (scanSegments crc32c maxRecordBytes policy segments { firstLsn := first } expected)
        machine) :
    Program.Ensures Machine.Succeeds (fun _ => True) post
      (scanWalDirectory crc32c maxRecordBytes walDir policy firstExpected) machine := by
  unfold scanWalDirectory
  refine Program.ensures_perform_bind.mpr ⟨trivial, fun answer after answered => ?_⟩
  obtain ⟨rfl, ⟨rfl, empty⟩ | ⟨files, rfl, listed⟩⟩ := succeeds_listFiles answered
  · refine ⟨trivial, nothing ⟨?_, .nil⟩⟩
    rw [empty]
    rfl
  simp only
  have : Std.Total fun left right : SegmentEntry => left.before right = true := ⟨before_total⟩
  have : IsTrans SegmentEntry fun left right => left.before right = true :=
    ⟨fun _ _ _ => before_trans⟩
  have segmentsOf : SegmentsOf after walDir
      ((files.filterMap segmentEntry).insertionSort fun left right => left.before right) := by
    refine ⟨(List.perm_insertionSort _ _).trans (listed.filterMap _), ?_⟩
    exact List.pairwise_insertionSort _ _
  generalize (files.filterMap segmentEntry).insertionSort (fun left right => left.before right) =
    segments at segmentsOf
  have scanned := scans segments segmentsOf
  simp only at scanned
  generalize (if firstExpected.valid then firstExpected
    else (segments.head?.map SegmentEntry.firstLsn).getD 0) = expected at scanned ⊢
  split
  · rename_i none
    rw [none.1] at segmentsOf
    exact ⟨trivial, nothing segmentsOf⟩
  refine scanned.bind fun outcome now _ holds => ?_
  obtain ⟨result, ended, complete⟩ := outcome
  cases complete
  · exact ⟨trivial, holds⟩
  · exact ⟨trivial, holds⟩

theorem scanWalDirectory_ensures {machine : Machine} (walDir : Directory) (firstExpected : Lsn) :
    Program.Ensures Machine.Succeeds (fun _ => True)
      (fun result now =>
        (∃ segments, SegmentsOf machine walDir segments ∧
          ((segments = [] ∧ result = {}) ∨
            Scanned crc32c maxRecordBytes policy machine.disk.contents segments firstExpected
              result)) ∧
        ∀ path, path.directory ≠ walDir → now.disk.contents path = machine.disk.contents path)
      (scanWalDirectory crc32c maxRecordBytes walDir policy firstExpected) machine := by
  refine scanWalDirectory_rule (fun none => ⟨⟨[], none, .inl ⟨rfl, rfl⟩⟩, fun _ _ => rfl⟩)
    fun segments listed => ?_
  refine (scanSegments_ensures (fun segment member => (listed.present segment member).2)
    listed.distinct).mono (fun _ _ => trivial) fun outcome now _ scanned => ?_
  obtain ⟨read, elsewhere⟩ := scanned
  obtain ⟨result, ended, complete⟩ := outcome
  refine ⟨⟨segments, listed, .inr ?_⟩, fun path away => elsewhere path fun segment member same => ?_⟩
  · unfold Scanned
    simp only
    generalize (if firstExpected.valid then firstExpected
      else (segments.head?.map SegmentEntry.firstLsn).getD 0) = expected at read ⊢
    cases reading : readLog crc32c maxRecordBytes policy machine.disk.contents segments expected with
    | none =>
      rw [reading] at read
      obtain ⟨stopped, failed⟩ := read
      simp only at stopped failed
      subst stopped
      exact failed
    | some outcome =>
      rw [reading] at read
      obtain ⟨done, last, records, error, first⟩ := read
      simp only at done last records error first
      subst done last
      exact ⟨error, records, first, rfl, rfl⟩
  · refine away ?_
    rw [← same]
    exact (listed.present segment member).1

end Reading

section Lsns

variable {crc32c : ByteString → UInt32} {maxRecordBytes : Nat} {policy : TailPolicy}

/-- Records with consecutive LSNs, and the LSN behind them. -/
def Consecutive : Lsn → List ScannedRecord → Lsn → Prop
  | first, [], last => first = last
  | first, record :: rest, last => record.lsn = first ∧
    ∃ next, nextLsn first = some next ∧ Consecutive next rest last

theorem nextLsn_toNat {current next : Lsn} (follows : nextLsn current = some next) :
    next.toNat = current.toNat + 1 := by
  unfold nextLsn at follows
  split at follows
  · cases follows
  · rename_i inside
    obtain rfl := Option.some.inj follows
    simp only [not_or, not_not] at inside
    have bound := current.toNat_lt
    have below : current.toNat ≠ 18446744073709551615 := by
      intro last
      exact inside.2 (UInt64.toNat_inj.mp last)
    rw [UInt64.toNat_add]
    change (current.toNat + 1) % 2 ^ 64 = _
    omega

theorem Consecutive.append {first middle last : Lsn} {front back : List ScannedRecord}
    (left : Consecutive first front middle) (right : Consecutive middle back last) :
    Consecutive first (front ++ back) last := by
  induction front generalizing first with
  | nil =>
    obtain rfl : first = middle := left
    exact right
  | cons record rest ih =>
    obtain ⟨lsn, next, follows, later⟩ := left
    exact ⟨lsn, next, follows, ih later⟩

theorem Consecutive.length {first last : Lsn} {records : List ScannedRecord}
    (consecutive : Consecutive first records last) :
    last.toNat = first.toNat + records.length := by
  induction records generalizing first with
  | nil =>
    obtain rfl : first = last := consecutive
    rfl
  | cons record rest ih =>
    obtain ⟨-, next, follows, later⟩ := consecutive
    have step := nextLsn_toNat follows
    have rest := ih later
    rw [List.length_cons]
    omega

/-- The LSNs of the records are exactly those from the first on. -/
theorem Consecutive.mem_iff {first last : Lsn} {records : List ScannedRecord}
    (consecutive : Consecutive first records last) (lsn : Lsn) :
    (∃ record ∈ records, record.lsn = lsn) ↔
      first.toNat ≤ lsn.toNat ∧ lsn.toNat < last.toNat := by
  induction records generalizing first with
  | nil =>
    obtain rfl : first = last := consecutive
    simp only [List.not_mem_nil, false_and, exists_false, false_iff]
    omega
  | cons record rest ih =>
    obtain ⟨same, next, follows, later⟩ := consecutive
    have step := nextLsn_toNat follows
    have length := later.length
    simp only [List.mem_cons, exists_eq_or_imp, ih later, same]
    constructor
    · rintro (rfl | inside)
      · omega
      · omega
    · intro inside
      by_cases start : first = lsn
      · exact .inl start
      · have different : first.toNat ≠ lsn.toNat := fun same => start (UInt64.toNat_inj.mp same)
        exact .inr (by omega)

theorem readRecords_consecutive {fuel offset : Nat} {expected : Lsn} {bytes : ByteString}
    (unbroken : ∀ broken error, (readRecords crc32c maxRecordBytes fuel offset expected
      bytes).ended ≠ .broken broken error) :
    Consecutive expected (readRecords crc32c maxRecordBytes fuel offset expected bytes).records
      (readRecords crc32c maxRecordBytes fuel offset expected bytes).expected := by
  induction fuel generalizing offset expected with
  | zero => rfl
  | succ fuel ih =>
    unfold readRecords at unbroken ⊢
    split
    · rfl
    rename_i inside
    rw [if_neg inside] at unbroken
    cases decoded : decodeRecord crc32c maxRecordBytes (bytes.drop offset) with
    | error status => rfl
    | ok read =>
      obtain ⟨record, total⟩ := read
      rw [decoded] at unbroken
      simp only at unbroken ⊢
      by_cases other : record.lsn ≠ expected
      · rw [if_pos other] at unbroken
        exact absurd rfl (unbroken _ _)
      rw [if_neg other] at unbroken ⊢
      cases follows : nextLsn expected with
      | none =>
        rw [follows] at unbroken
        exact absurd rfl (unbroken _ _)
      | some next =>
        rw [follows] at unbroken
        exact ⟨not_not.mp other, next, follows, ih unbroken⟩

theorem readSegment_consecutive {segment : SegmentEntry} {expected next : Lsn}
    {bytes : ByteString} {records : List ScannedRecord}
    (read : readSegment crc32c maxRecordBytes policy segment expected bytes =
      some (records, next)) : Consecutive expected records next := by
  unfold readSegment at read
  split at read
  · split at read
    · obtain ⟨rfl, rfl⟩ := Prod.mk.inj (Option.some.inj read)
      rfl
    · cases read
  split at read
  · split at read
    · obtain ⟨rfl, rfl⟩ := Prod.mk.inj (Option.some.inj read)
      rfl
    · cases read
  split at read
  · cases read
  have consecutive := @readRecords_consecutive crc32c maxRecordBytes bytes.length
    segmentHeaderBytes expected bytes
  generalize readRecords crc32c maxRecordBytes bytes.length segmentHeaderBytes expected bytes =
    found at read consecutive
  obtain ⟨records, next, ended⟩ := found
  cases ended with
  | complete =>
    obtain ⟨rfl, rfl⟩ := Prod.mk.inj (Option.some.inj read)
    exact consecutive (by simp)
  | broken offset error => cases read
  | undecodable offset status =>
    simp only at read
    split at read
    · obtain ⟨rfl, rfl⟩ := Prod.mk.inj (Option.some.inj read)
      exact consecutive (by simp)
    · cases read

theorem readLog_consecutive {contents : DiskPath → Option ByteString}
    {segments : List SegmentEntry} {expected last : Lsn} {records : List ScannedRecord}
    (read : readLog crc32c maxRecordBytes policy contents segments expected =
      some (records, last)) : Consecutive expected records last := by
  induction segments generalizing expected records with
  | nil =>
    obtain ⟨rfl, rfl⟩ := Prod.mk.inj (Option.some.inj read)
    rfl
  | cons segment rest ih =>
    obtain ⟨bytes, _, read⟩ := Option.bind_eq_some_iff.mp read
    obtain ⟨⟨front, middle⟩, first, read⟩ := Option.bind_eq_some_iff.mp read
    obtain ⟨⟨back, final⟩, later, same⟩ := Option.map_eq_some_iff.mp read
    obtain ⟨rfl, rfl⟩ := Prod.mk.inj same
    exact (readSegment_consecutive first).append (ih later)

end Lsns

end GeoWorld.Persistence
