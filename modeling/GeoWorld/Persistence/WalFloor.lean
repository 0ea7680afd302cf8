import Mathlib
import GeoWorld.Persistence.AtomicPublish
import GeoWorld.Persistence.CheckpointPublish
import GeoWorld.Persistence.TableCode
import GeoWorld.Persistence.WalAppend

/-!
The recovery floor of a start: which LSNs are given out after it, and from which
directories they are all above the floor and follow the last record that is left.
-/

namespace GeoWorld.Persistence

open WorldModel Library

section Readable

variable (crc32c : ByteString → UInt32) (maxRecordBytes : Nat)

/-- The record can be read from the start of the segment on. -/
def SegmentHolds (bytes : ByteString) (lsn : Lsn) : Prop :=
  ∃ first, parseSegmentHeader bytes = some first ∧
    ∃ record ∈ (readRecords crc32c maxRecordBytes bytes.length segmentHeaderBytes first
      bytes).records, record.lsn = lsn

/-- The record can be read in a segment of the directory. -/
def Survives (machine : Machine) (walDir : Directory) (lsn : Lsn) : Prop :=
  ∃ segment, IsSegment machine walDir segment ∧
    ∃ bytes, machine.disk.contents segment.path = some bytes ∧
      SegmentHolds crc32c maxRecordBytes bytes lsn

/-- The last record that is left; the floor, if none is. -/
def LastLeft (machine : Machine) (walDir : Directory) (floor base : Lsn) : Prop :=
  (Survives crc32c maxRecordBytes machine walDir base ∧
      ∀ lsn, Survives crc32c maxRecordBytes machine walDir lsn → lsn ≤ base) ∨
    (∀ lsn, ¬ Survives crc32c maxRecordBytes machine walDir lsn) ∧ base = floor

variable {crc32c maxRecordBytes} {policy : TailPolicy}

theorem readSegment_holds {segment : SegmentEntry} {expected next : Lsn} {bytes : ByteString}
    {records : List ScannedRecord}
    (read : readSegment crc32c maxRecordBytes policy segment expected bytes =
      some (records, next)) (lsn : Lsn) :
    SegmentHolds crc32c maxRecordBytes bytes lsn ↔ ∃ record ∈ records, record.lsn = lsn := by
  unfold readSegment at read
  split at read
  · rename_i empty
    split at read
    · obtain ⟨rfl, -⟩ := Prod.mk.inj (Option.some.inj read)
      have unparsed : parseSegmentHeader bytes = none := by
        rw [empty]
        rfl
      simp [SegmentHolds, unparsed]
    · cases read
  cases parsed : parseSegmentHeader bytes with
  | none =>
    rw [parsed] at read
    simp only at read
    split at read
    · obtain ⟨rfl, -⟩ := Prod.mk.inj (Option.some.inj read)
      simp [SegmentHolds, parsed]
    · cases read
  | some first =>
    rw [parsed] at read
    simp only at read
    by_cases other : first ≠ expected
    · rw [if_pos other] at read
      cases read
    rw [if_neg other] at read
    obtain rfl := not_not.mp other
    have records_eq : (readRecords crc32c maxRecordBytes bytes.length segmentHeaderBytes first
        bytes).records = records := by
      generalize readRecords crc32c maxRecordBytes bytes.length segmentHeaderBytes first bytes =
        found at read
      obtain ⟨all, last, ended⟩ := found
      cases ended with
      | complete => exact (Prod.mk.inj (Option.some.inj read)).1
      | broken offset error => cases read
      | undecodable offset status =>
        simp only at read
        split at read
        · exact (Prod.mk.inj (Option.some.inj read)).1
        · cases read
    constructor
    · rintro ⟨start, same, record, member, lsn⟩
      obtain rfl := Option.some.inj (parsed.symm.trans same)
      exact ⟨record, records_eq ▸ member, lsn⟩
    · rintro ⟨record, member, lsn⟩
      exact ⟨first, parsed, record, records_eq.symm ▸ member, lsn⟩

theorem readLog_holds {contents : DiskPath → Option ByteString} {segments : List SegmentEntry}
    {expected last : Lsn} {records : List ScannedRecord}
    (read : readLog crc32c maxRecordBytes policy contents segments expected =
      some (records, last)) (lsn : Lsn) :
    (∃ segment ∈ segments, ∃ bytes, contents segment.path = some bytes ∧
        SegmentHolds crc32c maxRecordBytes bytes lsn) ↔
      ∃ record ∈ records, record.lsn = lsn := by
  induction segments generalizing expected records with
  | nil =>
    obtain ⟨rfl, -⟩ := Prod.mk.inj (Option.some.inj read)
    simp
  | cons segment rest ih =>
    obtain ⟨bytes, held, read⟩ := Option.bind_eq_some_iff.mp read
    obtain ⟨⟨front, middle⟩, first, read⟩ := Option.bind_eq_some_iff.mp read
    obtain ⟨⟨back, final⟩, later, same⟩ := Option.map_eq_some_iff.mp read
    obtain ⟨rfl, rfl⟩ := Prod.mk.inj same
    have here := readSegment_holds first lsn
    have there := ih later
    have parts : (∃ record ∈ front ++ back, record.lsn = lsn) ↔
        (∃ record ∈ front, record.lsn = lsn) ∨ ∃ record ∈ back, record.lsn = lsn := by
      simp only [List.mem_append, or_and_right, exists_or]
    rw [List.exists_mem_cons_iff, parts, there, ← here]
    simp [held]

end Readable

section Starting

variable {crc32c : ByteString → UInt32} {config : WalConfig}

/-- Calls that leave the files of a directory as they were. -/
def LogUntouched (walDir : Directory) (before now : Machine) : Prop :=
  ∀ path, path.directory = walDir → now.disk.contents path = before.disk.contents path

theorem walDir_ne_manifestDir (layout : DurableLayout) : layout.manifestDir ≠ layout.walDir := by
  intro same
  exact absurd (List.append_cancel_left same) (by decide)

theorem createDirectories_untouched {walDir : Directory} {before now : Machine}
    (untouched : LogUntouched walDir before now) (directory : Directory) :
    Program.Ensures Machine.Allowed (fun _ => True) (fun _ after => LogUntouched walDir before after)
      (ask (.createDirectories directory)) now := by
  refine ⟨trivial, fun error after asked => ⟨trivial, ?_⟩⟩
  intro path inside
  rw [(allowed_createDirectories asked).1]
  exact untouched path inside

theorem freezeIdentity_untouched {before now : Machine}
    (untouched : LogUntouched config.layout.walDir before now) :
    Program.Ensures Machine.Allowed (fun _ => True)
      (fun _ after => LogUntouched config.layout.walDir before after)
      (freezeIdentity crc32c config) now := by
  have apart : ∀ path : DiskPath, path.directory = config.layout.walDir →
      ∀ name, path ≠ ⟨config.layout.manifestDir, name⟩ := by
    rintro path inside name rfl
    exact walDir_ne_manifestDir _ inside
  unfold freezeIdentity
  have loaded : Program.Ensures Machine.Allowed (fun _ => True)
      (fun _ after => LogUntouched config.layout.walDir before after)
      (loadDirectoryManifest crc32c config.layout.directoryManifestPath) now := by
    refine Program.ensures_perform_bind.mpr ⟨trivial, fun answer after asked => ?_⟩
    obtain ⟨rfl, _⟩ := allowed_readFile asked
    cases answer with
    | error error => exact ⟨trivial, untouched⟩
    | ok bytes => exact ⟨trivial, untouched⟩
  refine loaded.bind fun manifest now _ untouched => ?_
  split
  · have published := atomicPublish_ensures now config.layout.directoryManifestPath
      (encodeManifest crc32c { world := config.world, branch := config.branch })
    refine published.mono (fun _ _ => trivial) fun error after publishing _ path inside => ?_
    exact (publishing.others path (apart path inside _) (apart path inside _)).contents.trans
      (untouched path inside)
  · exact ⟨trivial, untouched⟩
  · exact ⟨trivial, untouched⟩

theorem prepareDirectory_untouched (before : Machine) :
    Program.Ensures Machine.Allowed (fun _ => True)
      (fun _ after => LogUntouched config.layout.walDir before after)
      (prepareDirectory crc32c config) before := by
  have start : LogUntouched config.layout.walDir before before := fun _ _ => rfl
  unfold prepareDirectory
  refine (createDirectories_untouched start _).bind fun error now _ untouched => ?_
  refine (afterNone_ensures trivial (fun _ => untouched)
    (createDirectories_untouched untouched _)).bind fun error now _ untouched => ?_
  refine (afterNone_ensures trivial (fun _ => untouched)
    (createDirectories_untouched untouched _)).bind fun error now _ untouched => ?_
  exact afterNone_ensures trivial (fun _ => untouched) (freezeIdentity_untouched untouched)

theorem openActive_ensures {environment : Program.Environment FileOp FileOp.Answer Machine}
    {machine : Machine} (writer : WalWriter) (path : DiskPath) :
    Program.Ensures environment (fun _ => True)
      (fun opened _ => writer.SamePosition opened.2) (openActive writer path) machine := by
  refine Program.ensures_perform_bind.mpr ⟨trivial, fun answer after _ => ?_⟩
  cases answer with
  | error error => exact ⟨trivial, .refl writer⟩
  | ok size =>
    simp only
    split
    · exact Program.ensures_perform_bind.mpr ⟨trivial, fun error now _ => ⟨trivial, rfl, rfl, rfl⟩⟩
    · exact ⟨trivial, rfl, rfl, rfl⟩

/-- The first of the segments of a directory, in the order of a scan. -/
def Leading (machine : Machine) (walDir : Directory) (lead : SegmentEntry) : Prop :=
  IsSegment machine walDir lead ∧ ∀ other, IsSegment machine walDir other → lead.before other

/-- Where the scan of a start begins to count. -/
def countsFrom (config : WalConfig) (lead : SegmentEntry) : Lsn :=
  if config.recoveryFloorLsn.valid then lead.firstLsn else firstLsn

/-- A writer that started from a directory. -/
structure StartedAt (crc32c : ByteString → UInt32) (config : WalConfig) (machine : Machine)
    (writer : WalWriter) : Prop where
  valid : config.Valid
  healthy : writer.fault = false
  exhausted : writer.lsnExhausted = true ↔ config.recoveryFloorLsn.toNat = lastLsnValue
  place : config.recoveryFloorLsn.toNat ≠ lastLsnValue →
    (∀ segment, ¬ IsSegment machine config.layout.walDir segment) ∧
        writer.nextLsnValue.toNat = config.recoveryFloorLsn.toNat + 1 ∨
      ∃ lead, Leading machine config.layout.walDir lead ∧
        (countsFrom config lead).toNat ≤ config.recoveryFloorLsn.toNat + 1 ∧
        (countsFrom config lead).toNat ≤ writer.nextLsnValue.toNat ∧
        ∀ lsn, Survives crc32c config.maxRecordBytes machine config.layout.walDir lsn ↔
          (countsFrom config lead).toNat ≤ lsn.toNat ∧ lsn.toNat < writer.nextLsnValue.toNat

theorem nextLsn_eq_none {lsn : Lsn} (valid : lsn.valid) (ended : nextLsn lsn = none) :
    lsn.toNat = lastLsnValue := by
  unfold nextLsn at ended
  split at ended
  · rename_i no
    rcases no with invalid | last
    · exact absurd valid invalid
    · rw [last]
      rfl
  · cases ended

theorem valid_of_le {lsn : Lsn} (positive : 1 ≤ lsn.toNat) : lsn.valid := by
  rintro rfl
  exact absurd positive (by decide)

theorem Lsn.valid.positive {lsn : Lsn} (valid : lsn.valid) : 1 ≤ lsn.toNat := by
  have different : lsn.toNat ≠ 0 := fun zero => valid (UInt64.toNat_inj.mp zero)
  omega

theorem isSegment_congr {machine now : Machine} {walDir : Directory}
    (untouched : LogUntouched walDir machine now) (segment : SegmentEntry) :
    IsSegment now walDir segment ↔ IsSegment machine walDir segment := by
  unfold IsSegment
  by_cases inside : segment.path.directory = walDir
  · rw [untouched _ inside]
  · simp [inside]

theorem survives_congr {machine now : Machine} {walDir : Directory} {maxRecordBytes : Nat}
    (untouched : LogUntouched walDir machine now) (lsn : Lsn) :
    Survives crc32c maxRecordBytes now walDir lsn ↔
      Survives crc32c maxRecordBytes machine walDir lsn := by
  unfold Survives
  refine exists_congr fun segment => ?_
  rw [isSegment_congr untouched]
  refine and_congr_right fun known => ?_
  rw [untouched _ known.2.1]

theorem segmentEntry_valid {path : DiskPath} {segment : SegmentEntry}
    (entry : segmentEntry path = some segment) : segment.firstLsn.valid := by
  have parsed : ∀ {name : FileName} {lsn : Lsn}, parseSegmentFileName name = some lsn →
      lsn.valid := by
    intro name lsn found
    unfold parseSegmentFileName at found
    split at found
    · cases found
    · exact of_decide_eq_true (Option.filter_eq_some_iff.mp found).2
  unfold segmentEntry at entry
  split at entry
  · cases entry
  split at entry
  · obtain ⟨_, found, rfl⟩ := Option.map_eq_some_iff.mp entry
    exact parsed found
  split at entry
  · obtain ⟨_, found, rfl⟩ := Option.map_eq_some_iff.mp entry
    exact parsed found
  · cases entry

theorem countsFrom_valid {machine : Machine} {walDir : Directory} {lead : SegmentEntry}
    (known : IsSegment machine walDir lead) : (countsFrom config lead).valid := by
  unfold countsFrom
  split
  · exact segmentEntry_valid known.1
  · decide

/-- What a scan without an error says about the place where the log goes on. -/
theorem scanned_place {machine : Machine} {scan : WalScanResult}
    (scanned : ∃ segments, SegmentsOf machine config.layout.walDir segments ∧
      ((segments = [] ∧ scan = {}) ∨
        Scanned crc32c config.maxRecordBytes .trimActiveTail machine.disk.contents segments
          (if config.recoveryFloorLsn.valid then 0 else firstLsn) scan))
    (succeeded : scan.error = .none) :
    ((∀ segment, ¬ IsSegment machine config.layout.walDir segment) ∧ scan.lastLsn = 0 ∧
        (scan.nextLsn = 0 ∨ ¬ config.recoveryFloorLsn.valid ∧ scan.nextLsn = firstLsn)) ∨
      ∃ lead, Leading machine config.layout.walDir lead ∧ scan.firstLsn = lead.firstLsn ∧
        (countsFrom config lead).valid ∧
        (countsFrom config lead).toNat ≤ scan.nextLsn.toNat ∧
        ∀ lsn, Survives crc32c config.maxRecordBytes machine config.layout.walDir lsn ↔
          (countsFrom config lead).toNat ≤ lsn.toNat ∧ lsn.toNat < scan.nextLsn.toNat := by
  obtain ⟨segments, listed, read⟩ := scanned
  cases segments with
  | nil =>
    refine .inl ⟨fun segment known => List.not_mem_nil (listed.mem_iff.mpr known), ?_⟩
    rcases read with ⟨-, rfl⟩ | read
    · exact ⟨rfl, .inl rfl⟩
    simp only [Scanned, readLog] at read
    obtain ⟨-, -, -, next, last⟩ := read
    have no : ¬ Lsn.valid 0 := by decide
    have yes : firstLsn.valid := by decide
    by_cases floor : config.recoveryFloorLsn.valid
    · simp [floor, no] at next last
      exact ⟨last, .inl next⟩
    · simp [floor, yes] at next last
      exact ⟨last, .inr ⟨floor, next⟩⟩
  | cons lead rest =>
    have read := read.resolve_left fun empty => absurd empty.1 (by simp)
    have known := listed.mem_iff.mp (List.mem_cons_self : lead ∈ lead :: rest)
    have no : ¬ Lsn.valid 0 := by decide
    have counts : (if (if config.recoveryFloorLsn.valid then 0 else firstLsn).valid then
        (if config.recoveryFloorLsn.valid then 0 else firstLsn)
        else ((lead :: rest).head?.map SegmentEntry.firstLsn).getD 0) = countsFrom config lead := by
      unfold countsFrom
      by_cases floor : config.recoveryFloorLsn.valid
      · simp [floor, no]
      · have yes : firstLsn.valid := by decide
        simp [floor, yes]
    have start : (countsFrom config lead).valid := countsFrom_valid known
    simp only [Scanned, counts] at read
    cases reading : readLog crc32c config.maxRecordBytes .trimActiveTail machine.disk.contents
        (lead :: rest) (countsFrom config lead) with
    | none =>
      rw [reading] at read
      exact absurd succeeded read
    | some outcome =>
      obtain ⟨records, ended⟩ := outcome
      rw [reading] at read
      obtain ⟨-, -, first, rfl, -⟩ := read
      have consecutive := readLog_consecutive reading
      refine .inr ⟨lead, ⟨known, fun other member => ?_⟩, by simpa using first, start, ?_,
        fun lsn => ?_⟩
      · rcases List.mem_cons.mp (listed.mem_iff.mpr member) with rfl | later
        · exact (before_total other other).elim id id
        · exact (List.pairwise_cons.mp listed.2).1 other later
      · have length := consecutive.length
        omega
      · rw [← consecutive.mem_iff lsn, ← readLog_holds reading lsn]
        unfold Survives
        refine exists_congr fun segment => and_congr_left fun _ => ?_
        exact listed.mem_iff.symm

theorem floorScan_error {scan : WalScanResult} {error : PersistenceError}
    (refused : floorScan config scan = .error error) : error ≠ .none := by
  unfold floorScan at refused
  split at refused
  · split at refused
    · cases refused
    · split at refused
      · cases refused
        nofun
      · split at refused <;> cases refused
  · cases refused

/-- The scan of a start that accepts its floor leaves the writer in its place. -/
theorem startedAt_of_scan {machine now : Machine} {scan floored : WalScanResult}
    {exhausted : Bool} {writer : WalWriter} (valid : config.Valid)
    (untouched : LogUntouched config.layout.walDir machine now)
    (scanned : ∃ segments, SegmentsOf now config.layout.walDir segments ∧
      ((segments = [] ∧ scan = {}) ∨
        Scanned crc32c config.maxRecordBytes .trimActiveTail now.disk.contents segments
          (if config.recoveryFloorLsn.valid then 0 else firstLsn) scan))
    (succeeded : scan.error = .none)
    (accepted : floorScan config scan = .ok (floored, exhausted))
    (goesOn : (WalWriter.positioned floored exhausted).SamePosition writer) :
    StartedAt crc32c config machine writer := by
  obtain ⟨next, fault, exhausts⟩ := goesOn
  have place := scanned_place scanned succeeded
  simp only [isSegment_congr untouched, survives_congr untouched, Leading] at place
  have no : ¬ Lsn.valid 0 := by decide
  by_cases floor : config.recoveryFloorLsn.valid
  swap
  · have zero : config.recoveryFloorLsn.toNat = 0 := by
      rw [not_not.mp floor]
      rfl
    have counts : ∀ lead, countsFrom config lead = firstLsn := fun lead => if_neg floor
    obtain ⟨rfl, rfl⟩ : scan = floored ∧ exhausted = false := by
      rw [floorScan, if_neg floor] at accepted
      cases accepted
      exact ⟨rfl, rfl⟩
    simp only [WalWriter.positioned, Bool.false_eq_true, false_or] at next exhausts fault
    have one : firstLsn.toNat = 1 := rfl
    rcases place with ⟨nothing, last, position⟩ | ⟨lead, leads, -, counted, below, lsns⟩
    · have here : writer.nextLsnValue = firstLsn := by
        rcases position with position | ⟨-, position⟩
        · rw [next, position, if_neg no]
        · rw [next, position, if_pos (by decide)]
      refine ⟨valid, fault, ?_, fun _ => .inl ⟨nothing, by rw [here, zero, one]⟩⟩
      simp [exhausts, last, no, zero, lastLsnValue]
    · have positive : scan.nextLsn.valid := valid_of_le (counted.positive.trans below)
      rw [if_pos positive] at next
      rw [← next] at below lsns
      refine ⟨valid, fault, ?_, fun _ => .inr ⟨lead, leads, ?_, below, lsns⟩⟩
      · simp [exhausts, positive, zero, lastLsnValue]
      · rw [counts, zero, one]
  cases follows : nextLsn config.recoveryFloorLsn with
  | none =>
    obtain ⟨rfl, rfl⟩ : scan = floored ∧ exhausted = true := by
      rw [floorScan, if_pos floor, follows] at accepted
      cases accepted
      exact ⟨rfl, rfl⟩
    have last := nextLsn_eq_none floor follows
    refine ⟨valid, fault, ?_, fun other => absurd last other⟩
    simp [exhausts, WalWriter.positioned, last]
  | some afterFloor =>
    have step := nextLsn_toNat follows
    have bound := afterFloor.toNat_lt
    have counts : ∀ lead, countsFrom config lead = lead.firstLsn := fun lead => if_pos floor
    have notLast : config.recoveryFloorLsn.toNat ≠ lastLsnValue := by
      rw [lastLsnValue]
      omega
    simp only [floorScan, if_pos floor, follows] at accepted
    split at accepted
    · cases accepted
    rename_i continues
    rcases place with ⟨nothing, last, position⟩ | ⟨lead, leads, first, positive, below, lsns⟩
    · have position : ¬ scan.nextLsn.valid := by
        rcases position with position | ⟨none, -⟩
        · rw [position]
          exact no
        · exact absurd floor none
      rw [if_pos position] at accepted
      cases accepted
      have positive : afterFloor.valid := valid_of_le (step ▸ Nat.succ_le_succ (Nat.zero_le _))
      simp only [WalWriter.positioned, positive, if_true] at next exhausts fault
      refine ⟨valid, fault, ?_, fun _ => .inl ⟨nothing, by rw [next, step]⟩⟩
      simp [exhausts, notLast]
    · have next_valid : scan.nextLsn.valid := valid_of_le (positive.positive.trans below)
      rw [if_neg (not_not.mpr next_valid)] at accepted
      cases accepted
      simp only [WalWriter.positioned, next_valid, if_true] at next exhausts fault
      rw [← next] at below lsns
      refine ⟨valid, fault, ?_, fun _ => .inr ⟨lead, leads, ?_, below, lsns⟩⟩
      · simp [exhausts, notLast]
      · rw [counts] at positive ⊢
        rw [first] at continues
        have within := not_and.mp continues positive
        have bound := UInt64.le_iff_toNat_le.mp (UInt64.not_lt.mp within)
        omega

theorem start_startedAt (machine : Machine) :
    Program.Ensures Machine.Succeeds (fun _ => True)
      (fun started _ => started.1 = .none → StartedAt crc32c config machine started.2 ∧
        started.2.started)
      (WalWriter.start crc32c config) machine := by
  unfold WalWriter.start
  split
  · exact ⟨trivial, nofun⟩
  rename_i valid
  refine ((prepareDirectory_untouched machine).restrict fun _ _ _ _ => .inl).bind
    fun error now _ untouched => ?_
  split
  · rename_i failed
    exact ⟨trivial, fun none => absurd none failed⟩
  refine (scanWalDirectory_ensures _ _).bind fun scan later _ scanned => ?_
  split
  · rename_i failed
    exact ⟨trivial, fun none => absurd none failed⟩
  rename_i succeeded
  cases accepted : floorScan config scan with
  | error error =>
    refine ⟨trivial, fun none => ?_⟩
    exact absurd none (floorScan_error accepted)
  | ok floored =>
    obtain ⟨floored, exhausted⟩ := floored
    have done := fun writer => @startedAt_of_scan crc32c config machine now scan floored exhausted
      writer (not_not.mp valid) untouched scanned.1 (not_not.mp succeeded) accepted
    simp only
    split
    · exact ⟨trivial, fun _ => ⟨done _ ⟨rfl, rfl, rfl⟩, rfl⟩⟩
    · rename_i path _
      refine (openActive_ensures _ path).bind fun opened final _ kept => ?_
      obtain ⟨error, writer⟩ := opened
      refine ⟨trivial, fun none => ⟨done _ ⟨kept.next, kept.fault, kept.exhausted⟩, ?_⟩⟩
      exact decide_eq_true none

end Starting

section Floor

variable {crc32c : ByteString → UInt32} {config : WalConfig} {machine : Machine}
  {writer : WalWriter}

/-- The LSNs are above the floor and follow the last record that is left. -/
def FollowsFloor (crc32c : ByteString → UInt32) (config : WalConfig) (machine : Machine)
    (assigned : List Lsn) : Prop :=
  (∀ lsn ∈ assigned, config.recoveryFloorLsn < lsn) ∧
    ∀ base, LastLeft crc32c config.maxRecordBytes machine config.layout.walDir
      config.recoveryFloorLsn base → InRow (base.toNat + 1) assigned

/-- There is nothing to give out, or the log begins above the floor, or the record at the
floor is left. -/
def FloorCovered (crc32c : ByteString → UInt32) (config : WalConfig) (machine : Machine) : Prop :=
  config.recoveryFloorLsn.toNat = lastLsnValue ∨
    (∀ lead, Leading machine config.layout.walDir lead →
      config.recoveryFloorLsn < lead.firstLsn) ∨
    Survives crc32c config.maxRecordBytes machine config.layout.walDir config.recoveryFloorLsn

theorem inRow_head {position : Nat} {lsn : Lsn} {rest : List Lsn}
    (row : InRow position (lsn :: rest)) : lsn.toNat = min position lastLsnValue :=
  row 0 (by simp)

theorem leading_first {one other : SegmentEntry}
    (left : Leading machine config.layout.walDir one)
    (right : Leading machine config.layout.walDir other) : one.firstLsn = other.firstLsn := by
  have before := left.2 other right.1
  have after := right.2 one left.1
  unfold SegmentEntry.before at before after
  by_cases same : one.active = other.active
  · simp only [same, ne_eq, not_true_eq_false, if_false, decide_eq_true_eq] at before after
    exact UInt64.le_antisymm before after
  · rw [if_pos same] at before
    rw [if_pos (Ne.symm same)] at after
    simp_all

theorem StartedAt.positive (started : StartedAt crc32c config machine writer)
    (left : config.recoveryFloorLsn.toNat ≠ lastLsnValue) : 1 ≤ writer.nextLsnValue.toNat := by
  rcases started.place left with ⟨-, next⟩ | ⟨lead, leads, -, below, -⟩
  · omega
  · exact (countsFrom_valid leads.1).positive.trans below

/-- A started writer with an LSN left gives it out for the first record. -/
theorem StartedAt.gives (started : StartedAt crc32c config machine writer)
    (ready : writer.started) (left : config.recoveryFloorLsn.toNat ≠ lastLsnValue) (now : Machine) :
    ∃ lsn rest last final, lsn = writer.nextLsnValue ∧
      Appending crc32c config ⟨writer, []⟩ now (lsn :: rest) last final := by
  have open_ : writer.lsnExhausted = false := by
    rw [Bool.eq_false_iff]
    exact fun exhausted => left (started.exhausted.mp exhausted)
  let record : WalRecord := { payload := [] }
  have queued : (LogQueue.append config ⟨writer, []⟩ record).2 = ⟨writer, [record]⟩ := by
    have room := Nat.pos_of_ne_zero started.valid.queueMaxRecords
    simp [LogQueue.append, record, open_, ready, started.healthy, payloadBytes,
      Nat.not_le.mpr room]
  let taken : List PendingAppend := [⟨record, false⟩]
  have limited : GroupCommit config (taken.map PendingAppend.record) :=
    ⟨Nat.pos_of_ne_zero started.valid.groupCommitMaxRecords, .inl rfl⟩
  have reached := @Program.run_reaches _ _ _ _ Machine.Allowed Machine.perform
    (fun _ _ => .inl (.inl rfl)) (processBatch crc32c config writer taken) now
  generalize Program.run Machine.perform (processBatch crc32c config writer taken) now = result
    at reached
  have here : writer.At writer.nextLsnValue.toNat := by
    have bound := writer.nextLsnValue.toNat_lt
    refine ⟨started.positive left, ?_⟩
    rw [lastLsnValue]
    omega
  have outcome := ((processBatch_ensures (.inr here)).sound reached).2 _ rfl
  have given := outcome.2.1 started.healthy (by simp [taken])
  obtain ⟨lsn, rest, assigned⟩ := List.exists_cons_of_ne_nil given
  have first : lsn = writer.nextLsnValue := by
    have row := outcome.1
    rw [assigned] at row
    exact UInt64.toNat_inj.mp ((inRow_head row).trans here.2.symm)
  have batch : Appending crc32c config ⟨writer, taken.map PendingAppend.record ++ []⟩ now
      (result.1.assigned ++ []) _ _ :=
    .batch taken (by simp [taken]) limited reached (.nil _ _)
  rw [List.append_nil, List.append_nil, assigned] at batch
  exact ⟨lsn, rest, _, _, first, .append record (queued ▸ batch)⟩

/-- The LSN of every base to go on from is the one the writer stands at. -/
theorem StartedAt.continues (started : StartedAt crc32c config machine writer)
    (left : config.recoveryFloorLsn.toNat ≠ lastLsnValue)
    (above : config.recoveryFloorLsn.toNat < writer.nextLsnValue.toNat) {base : Lsn}
    (last : LastLeft crc32c config.maxRecordBytes machine config.layout.walDir
      config.recoveryFloorLsn base) : writer.nextLsnValue.toNat = base.toNat + 1 := by
  rcases started.place left with ⟨nothing, next⟩ | ⟨lead, -, low, below, lsns⟩
  · rcases last with ⟨⟨segment, known, _⟩, -⟩ | ⟨-, rfl⟩
    · exact absurd known (nothing segment)
    · exact next
  rcases last with ⟨kept, most⟩ | ⟨none, rfl⟩
  · -- the record before the position is left, so it is the last
    have inside := (lsns base).mp kept
    have bound := writer.nextLsnValue.toNat_lt
    obtain ⟨previous, before⟩ : ∃ previous : Lsn,
        previous.toNat = writer.nextLsnValue.toNat - 1 := by
      refine ⟨UInt64.ofNat (writer.nextLsnValue.toNat - 1), ?_⟩
      rw [UInt64.toNat_ofNat']
      exact Nat.mod_eq_of_lt (by omega)
    have latest := UInt64.le_iff_toNat_le.mp (most previous ((lsns previous).mpr (by omega)))
    omega
  · have missing := none config.recoveryFloorLsn
    have start := none (countsFrom config lead)
    rw [lsns] at missing start
    omega

theorem StartedAt.covered_iff (started : StartedAt crc32c config machine writer)
    (left : config.recoveryFloorLsn.toNat ≠ lastLsnValue) :
    FloorCovered crc32c config machine ↔
      config.recoveryFloorLsn.toNat < writer.nextLsnValue.toNat := by
  unfold FloorCovered
  rcases started.place left with ⟨nothing, next⟩ | ⟨lead, leads, low, below, lsns⟩
  · refine ⟨fun _ => by omega, fun _ => .inr (.inl fun lead leads => ?_)⟩
    exact absurd leads.1 (nothing lead)
  rw [lsns]
  have same : ∀ other, Leading machine config.layout.walDir other →
      other.firstLsn = lead.firstLsn :=
    fun other others => leading_first others leads
  have positive := (segmentEntry_valid leads.1.1).positive
  have counted : config.recoveryFloorLsn < lead.firstLsn ↔
      (countsFrom config lead).toNat = config.recoveryFloorLsn.toNat + 1 := by
    rw [UInt64.lt_iff_toNat_lt]
    unfold countsFrom at low ⊢
    split at low
    · rename_i floor
      rw [if_pos floor]
      omega
    · rename_i floor
      have zero : config.recoveryFloorLsn.toNat = 0 := by
        rw [not_not.mp floor]
        rfl
      have one : firstLsn.toNat = 1 := rfl
      rw [if_neg floor, zero, one]
      omega
  constructor
  · rintro (last | begins | kept)
    · exact absurd last left
    · have start := counted.mp (begins lead leads)
      omega
    · exact kept.2
  · intro above
    by_cases start : (countsFrom config lead).toNat = config.recoveryFloorLsn.toNat + 1
    · refine .inr (.inl fun other others => ?_)
      rw [same other others]
      exact counted.mpr start
    · exact .inr (.inr (by omega))

theorem startedAt_of_reaches {now : Machine}
    (started : Program.Reaches Machine.Succeeds (WalWriter.start crc32c config) machine
      (.pure (.none, writer)) now) :
    StartedAt crc32c config machine writer ∧ writer.started :=
  ((start_startedAt machine).sound started).2 (.none, writer) rfl rfl

/-- A start keeps the LSNs above its floor and without a gap if and only if the directory
covers the floor; whatever has planned the recovery before is of no matter. -/
theorem floor_lsns_continue_iff {now : Machine}
    (started : Program.Reaches Machine.Succeeds (WalWriter.start crc32c config) machine
      (.pure (.none, writer)) now) :
    (∀ assigned last final, Appending crc32c config ⟨writer, []⟩ now assigned last final →
      FollowsFloor crc32c config machine assigned) ↔ FloorCovered crc32c config machine := by
  obtain ⟨started, ready⟩ := startedAt_of_reaches started
  by_cases last : config.recoveryFloorLsn.toNat = lastLsnValue
  · refine ⟨fun _ => .inl last, fun _ assigned after final run => ?_⟩
    obtain rfl := run.exhausted (started.exhausted.mpr last) rfl
    exact ⟨fun _ member => absurd member (by simp), fun _ _ _ inside => absurd inside (by simp)⟩
  have bound := config.recoveryFloorLsn.toNat_lt
  have position := writer.nextLsnValue.toNat_lt
  rw [started.covered_iff last]
  constructor
  · intro follows
    obtain ⟨lsn, rest, after, final, rfl, run⟩ := started.gives ready last now
    have above := (follows _ _ _ run).1 writer.nextLsnValue (by simp)
    exact UInt64.lt_iff_toNat_lt.mp above
  · intro above assigned after final run
    have here : writer.At writer.nextLsnValue.toNat := by
      refine ⟨by omega, ?_⟩
      rw [lastLsnValue]
      omega
    have row := run.inRow (.inr here)
    refine ⟨fun lsn member => ?_, fun base left => started.continues last above left ▸ row⟩
    obtain ⟨index, inside, rfl⟩ := List.getElem_of_mem member
    have value := row index inside
    rw [UInt64.lt_iff_toNat_lt]
    simp only [lastLsnValue, List.get_eq_getElem] at value last
    omega

end Floor

section Lost

def lostConfig : WalConfig where
  durableRoot := [['d']]
  world := 7
  branch := Vector.replicate 16 1
  recoveryFloorLsn := 10

def lostCheckpoint : CheckpointFiles :=
  checkpointFiles plainFormats
    { layout := lostConfig.layout, world := 7, branch := Vector.replicate 16 1 }
    (⟨⟨3, 4, 10, 5⟩, [], []⟩ : CapturedCheckpoint Unit) ['p'] []

/-- A checkpoint that includes ten records; of the log only a segment is left that begins
with the fifth, and its header is damaged. -/
def lostMachine : Machine :=
  .holding [lostConfig.layout.walDir] [
    (lostCheckpoint.dataPath, lostCheckpoint.data),
    (lostCheckpoint.manifestPath, lostCheckpoint.manifest),
    (lostConfig.layout.walDir.file (segmentFileName 5 ++ activeSegmentSuffix),
      List.replicate segmentHeaderBytes 0)]

def lostLoader : CheckpointLoader := ⟨lostConfig.layout, 7, Vector.replicate 16 1⟩

def lostPlan : Except PersistenceError RecoveryPlan × Machine :=
  (buildRecoveryPlan plainFormats lostLoader .trimActiveTail).run Machine.perform lostMachine

def lostStart : (PersistenceError × WalWriter) × Machine :=
  (WalWriter.start castagnoli lostConfig).run Machine.perform lostPlan.2

theorem lost_planned : (lostPlan.1.toOption.bind RecoveryPlan.checkpoint).map
    (fun loaded => loaded.info.anchor.includedLsn) = some 10 := by
  decide +kernel

theorem lost_started : lostStart.1.1 = .none ∧ lostStart.1.2.nextLsnValue = 5 := by
  decide +kernel

theorem lost_plan : ∃ plan loaded, lostPlan.1 = .ok plan ∧ plan.checkpoint = some loaded ∧
    loaded.info.anchor.includedLsn = 10 := by
  obtain ⟨loaded, found, included⟩ := Option.map_eq_some_iff.mp lost_planned
  obtain ⟨plan, passed, held⟩ := Option.bind_eq_some_iff.mp found
  refine ⟨plan, loaded, ?_, held, included⟩
  cases outcome : lostPlan.1 with
  | error error =>
    rw [outcome] at passed
    cases passed
  | ok other =>
    rw [outcome] at passed
    rw [Option.some.inj passed]

theorem succeeds_run {α : Type} (program : FileProgram α) (machine : Machine) :
    Program.Reaches Machine.Succeeds program machine
      (.pure (program.run Machine.perform machine).1) (program.run Machine.perform machine).2 :=
  Program.run_reaches (fun _ _ => .inl rfl) program machine

theorem lost_start : Program.Reaches Machine.Succeeds (WalWriter.start castagnoli lostConfig)
    lostPlan.2 (.pure (.none, lostStart.1.2)) lostStart.2 := by
  have reached : Program.Reaches Machine.Succeeds (WalWriter.start castagnoli lostConfig)
      lostPlan.2 (.pure lostStart.1) lostStart.2 := by
    unfold lostStart
    exact succeeds_run _ _
  have paired : ∀ outcome : PersistenceError × WalWriter, outcome.1 = .none →
      outcome = (.none, outcome.2) := fun outcome none => Prod.ext none rfl
  rw [paired lostStart.1 lost_started.1] at reached
  exact reached

/-- The record after the recovery gets the fifth LSN again. -/
theorem floor_lsn_given_again :
    ¬ ∀ (formats : Formats) (loader : CheckpointLoader) (config : WalConfig) (plan : RecoveryPlan)
      (loaded : LoadedCheckpoint) (writer : WalWriter) (before between now : Machine),
      loader.layout = config.layout →
      Program.Reaches Machine.Succeeds (buildRecoveryPlan formats loader .trimActiveTail) before
        (.pure (.ok plan)) between →
      plan.checkpoint = some loaded →
      loaded.info.anchor.includedLsn = config.recoveryFloorLsn →
      Program.Reaches Machine.Succeeds (WalWriter.start formats.crc32c config) between
        (.pure (.none, writer)) now →
      ∀ assigned last final, Appending formats.crc32c config ⟨writer, []⟩ now assigned last final →
        FollowsFloor formats.crc32c config between assigned := by
  intro claimed
  obtain ⟨plan, loaded, planned, held, included⟩ := lost_plan
  have built : Program.Reaches Machine.Succeeds
      (buildRecoveryPlan plainFormats lostLoader .trimActiveTail) lostMachine (.pure lostPlan.1)
      lostPlan.2 := by
    unfold lostPlan
    exact succeeds_run _ _
  rw [planned] at built
  obtain ⟨started, ready⟩ := startedAt_of_reaches lost_start
  obtain ⟨lsn, rest, last, final, first, run⟩ := started.gives ready (by decide) lostStart.2
  have above := (claimed plainFormats lostLoader lostConfig plan loaded _ _ _ _ rfl built held
    included lost_start _ _ _ run).1 lsn (by simp)
  rw [first, lost_started.2] at above
  exact absurd above (by decide)

theorem floor_lsns_continue_lost :
    (∀ assigned last final, Appending castagnoli lostConfig ⟨lostStart.1.2, []⟩ lostStart.2
        assigned last final → FollowsFloor castagnoli lostConfig lostPlan.2 assigned) ↔
      FloorCovered castagnoli lostConfig lostPlan.2 :=
  floor_lsns_continue_iff lost_start

end Lost

end GeoWorld.Persistence
