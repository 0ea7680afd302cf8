import Mathlib
import GeoWorld.Persistence.TableCode
import GeoWorld.Persistence.WalScan

/-!
Damage to the bytes of a log. The scan cuts off the active segment where it cannot go on,
so what it discards is an incomplete last record only when the damage is one; damage
before intact records takes them along.
-/

namespace GeoWorld.Persistence

open WorldModel Library

section Walks

variable (crc32c : ByteString → UInt32) (maxRecordBytes : Nat)

/-- Records with consecutive LSNs lead from one offset and LSN to another. -/
inductive Walks (bytes : ByteString) : Nat → Lsn → Nat → Lsn → Prop where
  | stay (offset : Nat) (expected : Lsn) : Walks bytes offset expected offset expected
  | record {offset total last : Nat} {expected next ended : Lsn} {record : ScannedRecord}
      (inside : offset < bytes.length)
      (decoded : decodeRecord crc32c maxRecordBytes (bytes.drop offset) = .ok (record, total))
      (lsn : record.lsn = expected) (follows : nextLsn expected = some next)
      (later : Walks bytes (offset + total) next last ended) :
      Walks bytes offset expected last ended

/-- The records of the segment lead from its first LSN to the LSN behind them. -/
def ReadsTo (bytes : ByteString) (first next : Lsn) : Prop :=
  parseSegmentHeader bytes = some first ∧
    ∃ last, bytes.length ≤ last ∧ Walks crc32c maxRecordBytes bytes segmentHeaderBytes first last next

/-- The same for segments in a row. -/
inductive LogReadsTo (contents : DiskPath → Option ByteString) :
    List SegmentEntry → Lsn → Lsn → Prop where
  | nil (expected : Lsn) : LogReadsTo contents [] expected expected
  | cons {segment : SegmentEntry} {rest : List SegmentEntry} {bytes : ByteString}
      {first next last : Lsn} (held : contents segment.path = some bytes)
      (reads : ReadsTo crc32c maxRecordBytes bytes first next)
      (later : LogReadsTo contents rest next last) :
      LogReadsTo contents (segment :: rest) first last

variable {crc32c maxRecordBytes}

theorem decodeRecord_positive {buffer : ByteString} {record : ScannedRecord} {total : Nat}
    (decoded : decodeRecord crc32c maxRecordBytes buffer = .ok (record, total)) : 0 < total := by
  unfold decodeRecord at decoded
  simp only at decoded
  split_ifs at decoded
  simp only [Except.ok.injEq, Prod.mk.injEq] at decoded
  rw [← decoded.2, recordLengthPrefixBytes]
  omega

theorem Walks.le {bytes : ByteString} {offset last : Nat} {expected ended : Lsn}
    (walk : Walks crc32c maxRecordBytes bytes offset expected last ended) : offset ≤ last := by
  induction walk with
  | stay => exact le_refl _
  | record _ _ _ _ _ ih => omega

/-- How reading from an offset goes on behind a record. -/
theorem readRecords_record {fuel offset total : Nat} {expected next : Lsn} {bytes : ByteString}
    {record : ScannedRecord} (inside : offset < bytes.length)
    (decoded : decodeRecord crc32c maxRecordBytes (bytes.drop offset) = .ok (record, total))
    (lsn : record.lsn = expected) (follows : nextLsn expected = some next) :
    readRecords crc32c maxRecordBytes (fuel + 1) offset expected bytes =
      { readRecords crc32c maxRecordBytes fuel (offset + total) next bytes with
        records := record ::
          (readRecords crc32c maxRecordBytes fuel (offset + total) next bytes).records } := by
  rw [readRecords, if_neg (not_le.mpr inside), decoded]
  simp only [lsn, ne_eq, not_true_eq_false, if_false, follows]

/-- Reading follows a walk. -/
theorem Walks.reading {bytes : ByteString} {offset last : Nat} {expected ended : Lsn}
    (walk : Walks crc32c maxRecordBytes bytes offset expected last ended) {fuel : Nat}
    (enough : bytes.length ≤ offset + fuel) :
    ∃ left, bytes.length ≤ last + left ∧
      (readRecords crc32c maxRecordBytes fuel offset expected bytes).ended =
        (readRecords crc32c maxRecordBytes left last ended bytes).ended ∧
      (readRecords crc32c maxRecordBytes fuel offset expected bytes).expected =
        (readRecords crc32c maxRecordBytes left last ended bytes).expected := by
  induction walk generalizing fuel with
  | stay => exact ⟨fuel, enough, rfl, rfl⟩
  | record inside decoded lsn follows later ih =>
    have positive := decodeRecord_positive decoded
    cases fuel with
    | zero => omega
    | succ fuel =>
      obtain ⟨left, room, ended, expected⟩ := @ih fuel (by omega)
      rw [readRecords_record inside decoded lsn follows]
      exact ⟨left, room, ended, expected⟩

/-- Reading is a walk to where it ends. -/
theorem walks_readRecords {fuel offset : Nat} {expected : Lsn} {bytes : ByteString}
    (enough : bytes.length ≤ offset + fuel) :
    let read := readRecords crc32c maxRecordBytes fuel offset expected bytes
    match read.ended with
    | .complete => ∃ last, bytes.length ≤ last ∧
        Walks crc32c maxRecordBytes bytes offset expected last read.expected
    | .undecodable stop status => stop < bytes.length ∧
        decodeRecord crc32c maxRecordBytes (bytes.drop stop) = .error status ∧
        Walks crc32c maxRecordBytes bytes offset expected stop read.expected
    | .broken _ _ => True := by
  induction fuel generalizing offset expected with
  | zero => exact ⟨offset, enough, .stay _ _⟩
  | succ fuel ih =>
    by_cases outside : bytes.length ≤ offset
    · rw [readRecords, if_pos outside]
      exact ⟨offset, outside, .stay _ _⟩
    have inside := not_le.mp outside
    cases decoded : decodeRecord crc32c maxRecordBytes (bytes.drop offset) with
    | error status =>
      rw [readRecords, if_neg outside, decoded]
      exact ⟨inside, decoded, .stay _ _⟩
    | ok outcome =>
      obtain ⟨record, total⟩ := outcome
      by_cases other : record.lsn ≠ expected
      · rw [readRecords, if_neg outside, decoded]
        simp [other]
      have lsn := not_not.mp other
      cases follows : nextLsn expected with
      | none =>
        rw [readRecords, if_neg outside, decoded]
        simp [lsn, follows]
      | some next =>
        have positive := decodeRecord_positive decoded
        have later := @ih (offset + total) next (by omega)
        rw [readRecords_record inside decoded lsn follows]
        generalize readRecords crc32c maxRecordBytes fuel (offset + total)
          next bytes = read at later
        obtain ⟨records, rest, ended⟩ := read
        cases ended with
        | complete =>
          obtain ⟨last, behind, walk⟩ := later
          exact ⟨last, behind, .record inside decoded lsn follows walk⟩
        | undecodable stop status =>
          obtain ⟨before, failed, walk⟩ := later
          exact ⟨before, failed, .record inside decoded lsn follows walk⟩
        | broken offset error => trivial

theorem Walks.undecodable {bytes : ByteString} {offset stop : Nat} {expected ended : Lsn}
    (walk : Walks crc32c maxRecordBytes bytes offset expected stop ended)
    {status : RecordDecodeStatus} (before : stop < bytes.length)
    (failed : decodeRecord crc32c maxRecordBytes (bytes.drop stop) = .error status) {fuel : Nat}
    (enough : bytes.length ≤ offset + fuel) :
    (readRecords crc32c maxRecordBytes fuel offset expected bytes).ended =
      .undecodable stop status := by
  obtain ⟨left, room, ends, -⟩ := walk.reading enough
  rw [ends]
  cases left with
  | zero => omega
  | succ left => rw [readRecords, if_neg (not_le.mpr before), failed]

theorem Walks.complete {bytes : ByteString} {offset last : Nat} {expected ended : Lsn}
    (walk : Walks crc32c maxRecordBytes bytes offset expected last ended)
    (behind : bytes.length ≤ last) {fuel : Nat} (enough : bytes.length ≤ offset + fuel) :
    (readRecords crc32c maxRecordBytes fuel offset expected bytes).ended =
        .complete ∧
      (readRecords crc32c maxRecordBytes fuel offset expected bytes).expected =
        ended := by
  obtain ⟨left, room, ends, next⟩ := walk.reading enough
  rw [ends, next]
  cases left with
  | zero => exact ⟨rfl, rfl⟩
  | succ left =>
    rw [readRecords, if_pos behind]
    exact ⟨rfl, rfl⟩

theorem readSegment_closed {policy : TailPolicy} {segment : SegmentEntry} {expected next : Lsn}
    {bytes : ByteString} (closed : segment.active = false) :
    (∃ records, readSegment crc32c maxRecordBytes policy segment expected bytes =
        some (records, next)) ↔ ReadsTo crc32c maxRecordBytes bytes expected next := by
  unfold readSegment ReadsTo
  by_cases empty : bytes = []
  · subst empty
    rw [if_pos rfl, if_neg (by simp [closed])]
    have unparsed : parseSegmentHeader [] = none := rfl
    simp [unparsed]
  rw [if_neg empty]
  cases parsed : parseSegmentHeader bytes with
  | none => simp [closed]
  | some first =>
    simp only [Option.some.injEq]
    by_cases other : first ≠ expected
    · rw [if_pos other]
      simp [other]
    obtain rfl := not_not.mp other
    rw [if_neg other]
    have enough : bytes.length ≤ segmentHeaderBytes + bytes.length := by omega
    have walked := @walks_readRecords crc32c maxRecordBytes bytes.length segmentHeaderBytes first
      bytes enough
    have complete : ∀ {last ended}, Walks crc32c maxRecordBytes bytes segmentHeaderBytes first
        last ended → bytes.length ≤ last → _ := fun walk behind => walk.complete behind enough
    generalize readRecords crc32c maxRecordBytes bytes.length segmentHeaderBytes first bytes =
      read at walked complete
    obtain ⟨records, rest, ended⟩ := read
    cases ended with
    | complete =>
      simp only [true_and, Option.some.injEq, Prod.mk.injEq, exists_eq_left']
      constructor
      · rintro rfl
        exact walked
      · rintro ⟨last, behind, walk⟩
        exact (complete walk behind).2
    | broken offset error =>
      simp only [reduceCtorEq, exists_false, true_and, false_iff]
      rintro ⟨last, behind, walk⟩
      exact absurd (complete walk behind).1 (by simp)
    | undecodable offset status =>
      simp only [closed, Bool.false_eq_true, false_and, if_false, reduceCtorEq, exists_false,
        true_and, false_iff]
      rintro ⟨last, behind, walk⟩
      exact absurd (complete walk behind).1 (by simp)

theorem readLog_closed {policy : TailPolicy} {contents : DiskPath → Option ByteString}
    {segments : List SegmentEntry} {expected last : Lsn}
    (closed : ∀ segment ∈ segments, segment.active = false) :
    (∃ records, readLog crc32c maxRecordBytes policy contents segments expected =
        some (records, last)) ↔ LogReadsTo crc32c maxRecordBytes contents segments expected last := by
  induction segments generalizing expected with
  | nil =>
    constructor
    · rintro ⟨records, read⟩
      obtain ⟨-, rfl⟩ := Prod.mk.inj (Option.some.inj read)
      exact .nil expected
    · intro reads
      cases reads
      exact ⟨[], rfl⟩
  | cons segment rest ih =>
    have here := fun next bytes => @readSegment_closed crc32c maxRecordBytes policy segment expected
      next bytes (closed segment (by simp))
    have there := fun expected => @ih expected fun other member => closed other (by simp [member])
    constructor
    · rintro ⟨records, read⟩
      obtain ⟨bytes, held, read⟩ := Option.bind_eq_some_iff.mp read
      obtain ⟨⟨front, middle⟩, first, read⟩ := Option.bind_eq_some_iff.mp read
      obtain ⟨⟨back, final⟩, later, same⟩ := Option.map_eq_some_iff.mp read
      obtain ⟨-, rfl⟩ := Prod.mk.inj same
      exact .cons held ((here middle bytes).mp ⟨front, first⟩) ((there middle).mp ⟨back, later⟩)
    · intro reads
      cases reads with
      | @cons _ _ bytes _ next _ held reads later =>
        obtain ⟨front, first⟩ := (here next bytes).mpr reads
        obtain ⟨back, rest⟩ := (there next).mpr later
        exact ⟨front ++ back, by simp [readLog, held, first, rest]⟩

end Walks

section Scanning

variable {crc32c : ByteString → UInt32} {maxRecordBytes : Nat} {policy : TailPolicy}

theorem scanBytes_closed {result : WalScanResult} {segment : SegmentEntry} {expected : Lsn}
    {bytes : ByteString} (closed : segment.active = false) :
    (scanBytes crc32c maxRecordBytes result segment policy expected bytes).cut = none := by
  unfold scanBytes
  split
  · simp [closed]
  split
  · simp [scanHeaderless, closed]
  split
  · rfl
  unfold scanRecords
  generalize readRecords crc32c maxRecordBytes bytes.length segmentHeaderBytes expected bytes = read
  obtain ⟨records, next, ended⟩ := read
  cases ended <;> simp [closed]

/-- Closed segments, then an active one that is scanned as its bytes tell, if the closed ones
lead to it. -/
theorem scanSegments_active {machine : Machine} {closed : List SegmentEntry}
    {active : SegmentEntry} {bytes : ByteString} {result : WalScanResult} {expected : Lsn}
    (inactive : ∀ segment ∈ closed, segment.active = false)
    (present : ∀ segment ∈ closed, machine.disk.contents segment.path ≠ none)
    (found : machine.disk.contents active.path = some bytes) :
    Program.Ensures Machine.Succeeds (fun _ => True)
      (fun outcome now =>
        match readLog crc32c maxRecordBytes policy machine.disk.contents closed expected with
        | none => outcome.2.2 = false ∧ outcome.1.error ≠ .none
        | some (_, next) => ∃ reached, reached.error = result.error ∧
          (outcome = (scanBytes crc32c maxRecordBytes reached active policy next bytes).outcome ∧
            now = machine.cutAt active.path
              (scanBytes crc32c maxRecordBytes reached active policy next bytes).cut))
      (scanSegments crc32c maxRecordBytes policy (closed ++ [active]) result expected) machine := by
  induction closed generalizing result expected with
  | nil =>
    simp only [List.nil_append, readLog]
    unfold scanSegments
    refine (scanSegment_ensures found policy expected).bind fun outcome now _ scanned => ?_
    obtain ⟨rfl, rfl⟩ := scanned
    generalize scan_eq : scanBytes crc32c maxRecordBytes result active policy expected bytes = scan
    obtain ⟨reached, next, goOn, cut⟩ := scan
    cases goOn
    · exact ⟨trivial, result, rfl, by simp [scan_eq, SegmentScan.outcome]⟩
    · exact ⟨trivial, result, rfl, by simp [scan_eq, SegmentScan.outcome]⟩
  | cons segment rest ih =>
    obtain ⟨held, stored⟩ := Option.ne_none_iff_exists'.mp (present segment (by simp))
    have uncut := @scanBytes_closed crc32c maxRecordBytes policy result segment expected held
      (inactive segment (by simp))
    have read := @scanBytes_readAs crc32c maxRecordBytes policy result segment expected held
    rw [List.cons_append]
    unfold scanSegments
    refine (scanSegment_ensures stored policy expected).bind fun outcome now _ scanned => ?_
    obtain ⟨rfl, rfl⟩ := scanned
    generalize scanBytes crc32c maxRecordBytes result segment policy expected held = scan
      at uncut read
    obtain ⟨reached, next, goOn, cut⟩ := scan
    simp only at uncut
    subst uncut
    simp only [readLog, stored, Option.bind_some]
    cases reading : readSegment crc32c maxRecordBytes policy segment expected held with
    | none =>
      rw [reading] at read
      obtain ⟨stopped, failed⟩ := read
      simp only [SegmentScan.outcome] at stopped failed
      subst stopped
      exact ⟨trivial, rfl, failed⟩
    | some outcome =>
      rw [reading] at read
      obtain ⟨onward, follow, -, error, -⟩ := read
      simp only [SegmentScan.outcome] at onward follow error
      subst onward follow
      refine (ih (fun other member => inactive other (by simp [member]))
        (fun other member => present other (by simp [member]))).mono (fun _ holds => holds)
          fun ended now _ later => ?_
      simp only [SegmentScan.outcome] at later
      simp only [Option.bind_some]
      cases remaining : readLog crc32c maxRecordBytes policy machine.disk.contents rest
          outcome.2 with
      | none =>
        rw [remaining] at later
        exact later
      | some last =>
        rw [remaining] at later
        obtain ⟨middle, same, rest⟩ := later
        exact ⟨middle, same.trans error, rest⟩

/-- An error that says where the scan stopped. -/
def Reported (walDir : Directory) (result : WalScanResult) : Prop :=
  result.error ≠ .none ∧ result.corruption.error = result.error ∧
    ∃ path : DiskPath, path.directory = walDir ∧ result.corruption.segment = path.components

theorem reported_corruption (result : WalScanResult) (segment : SegmentEntry) (offset : Nat)
    (expected : Lsn) {error : PersistenceError} (some : error ≠ .none) :
    Reported segment.path.directory (reportCorruption result segment offset expected error) :=
  ⟨some, rfl, segment.path, rfl, rfl⟩

theorem scanBytes_reported {result : WalScanResult} {segment : SegmentEntry} {expected : Lsn}
    {bytes : ByteString}
    (stopped : (scanBytes crc32c maxRecordBytes result segment policy expected bytes).goOn = false) :
    Reported segment.path.directory
      (scanBytes crc32c maxRecordBytes result segment policy expected bytes).result := by
  unfold scanBytes at stopped ⊢
  split at stopped
  · split at stopped
    · cases stopped
    · rename_i empty closed
      rw [if_pos empty, if_neg closed]
      exact reported_corruption _ _ _ _ (by decide)
  rename_i some
  rw [if_neg some]
  cases parsed : parseSegmentHeader bytes with
  | none =>
    rw [parsed] at stopped
    simp only [scanHeaderless] at stopped ⊢
    split at stopped
    · cases stopped
    · rename_i kept
      rw [if_neg kept]
      exact reported_corruption _ _ _ _ (by decide)
  | some first =>
    rw [parsed] at stopped
    simp only at stopped ⊢
    split at stopped
    · rename_i other
      rw [if_pos other]
      exact reported_corruption _ _ _ _ (by decide)
    rename_i same
    rw [if_neg same]
    have unbroken := @readRecords_broken crc32c maxRecordBytes bytes.length segmentHeaderBytes
      expected bytes
    unfold scanRecords at stopped ⊢
    generalize readRecords crc32c maxRecordBytes bytes.length segmentHeaderBytes expected bytes =
      read at stopped unbroken ⊢
    obtain ⟨records, next, ended⟩ := read
    cases ended with
    | complete => cases stopped
    | broken offset error => exact reported_corruption _ _ _ _ (unbroken rfl)
    | undecodable offset status =>
      simp only at stopped ⊢
      split at stopped
      · cases stopped
      · rename_i kept
        rw [if_neg kept]
        refine reported_corruption _ _ _ _ ?_
        split <;> decide

theorem scanSegments_reported {machine : Machine} {walDir : Directory}
    {segments : List SegmentEntry} {result : WalScanResult} {expected : Lsn}
    (present : ∀ segment ∈ segments, segment.path.directory = walDir ∧
      machine.disk.contents segment.path ≠ none)
    (distinct : segments.Pairwise fun left right => left.path ≠ right.path) :
    Program.Ensures Machine.Succeeds (fun _ => True)
      (fun outcome _ => outcome.2.2 = false → Reported walDir outcome.1)
      (scanSegments crc32c maxRecordBytes policy segments result expected) machine := by
  induction segments generalizing machine result expected with
  | nil => exact ⟨trivial, nofun⟩
  | cons segment rest ih =>
    obtain ⟨apart, distinct⟩ := List.pairwise_cons.mp distinct
    obtain ⟨inside, held⟩ := present segment (by simp)
    obtain ⟨bytes, found⟩ := Option.ne_none_iff_exists'.mp held
    unfold scanSegments
    refine (scanSegment_ensures found policy expected).bind fun outcome now _ scanned => ?_
    obtain ⟨rfl, rfl⟩ := scanned
    have reported := @scanBytes_reported crc32c maxRecordBytes policy result segment expected bytes
    generalize scanBytes crc32c maxRecordBytes result segment policy expected bytes = scan
      at reported
    obtain ⟨reached, next, goOn, cut⟩ := scan
    cases goOn
    · exact ⟨trivial, fun _ => inside ▸ reported rfl⟩
    · refine ih (fun other member => ?_) distinct
      rw [cutAt_contents (apart other member).symm]
      exact present other (by simp [member])

end Scanning

section Directory

/-- The LSN that the first of these segments has to begin with. -/
def scanStart (firstExpected : Lsn) (segments : List SegmentEntry) : Lsn :=
  if firstExpected.valid then firstExpected
  else (segments.head?.map SegmentEntry.firstLsn).getD 0

variable {crc32c : ByteString → UInt32} {maxRecordBytes : Nat} {policy : TailPolicy}
  {machine : Machine} {walDir : Directory}

theorem scanWalDirectory_reported (firstExpected : Lsn) :
    Program.Ensures Machine.Succeeds (fun _ => True)
      (fun result _ => result.error ≠ .none → Reported walDir result)
      (scanWalDirectory crc32c maxRecordBytes walDir policy firstExpected) machine := by
  refine scanWalDirectory_rule (fun _ failed => absurd rfl failed) fun segments listed => ?_
  have reported := @scanSegments_reported crc32c maxRecordBytes policy machine walDir segments
    { firstLsn := (segments.head?.map SegmentEntry.firstLsn).getD 0 }
    (if firstExpected.valid then firstExpected
      else (segments.head?.map SegmentEntry.firstLsn).getD 0) listed.present listed.distinct
  have errors := @scanSegments_ensures crc32c maxRecordBytes policy machine segments
    { firstLsn := (segments.head?.map SegmentEntry.firstLsn).getD 0 }
    (if firstExpected.valid then firstExpected
      else (segments.head?.map SegmentEntry.firstLsn).getD 0)
    (fun segment member => (listed.present segment member).2) listed.distinct
  refine (reported.and errors).mono (fun _ _ => trivial) fun outcome now _ both failed => ?_
  obtain ⟨reported, read, -⟩ := both
  obtain ⟨result, ended, complete⟩ := outcome
  cases complete
  · exact reported rfl
  · -- a scan that got to the end has no error
    unfold ReadAs at read
    split at read
    · exact absurd read.2.2.2.1 failed
    · exact absurd read.1 (by simp)

/-- The segments come in one order only, if equal ones have equal names. -/
theorem segmentsOf_unique {segments other : List SegmentEntry}
    (listed : SegmentsOf machine walDir segments) (again : SegmentsOf machine walDir other)
    (named : ∀ left ∈ segments, ∀ right ∈ segments, left.active = right.active →
      left.firstLsn = right.firstLsn → left.path = right.path) : other = segments := by
  refine List.Perm.eq_of_pairwise (fun left right leftIn rightIn one two => ?_) again.2 listed.2
    (again.1.trans listed.1.symm)
  have leftIn := listed.1.mem_iff.mpr (again.1.mem_iff.mp leftIn)
  have same : left.active = right.active ∧ left.firstLsn = right.firstLsn := by
    unfold SegmentEntry.before at one two
    by_cases same : left.active = right.active
    · simp only [same, ne_eq, not_true_eq_false, if_false, decide_eq_true_eq] at one two
      exact ⟨same, UInt64.le_antisymm one two⟩
    · rw [if_pos same] at one
      rw [if_pos (Ne.symm same)] at two
      simp_all
  have path := named left leftIn right rightIn same.1 same.2
  obtain ⟨path, first, active⟩ := left
  obtain ⟨otherPath, otherFirst, otherActive⟩ := right
  simp_all

/-- Segments that are named by their first LSNs are told apart by them. -/
theorem path_of_names {segments : List SegmentEntry}
    (named : ∀ segment ∈ segments, segment.path = walDir.file (segmentFileName segment.firstLsn ++
      if segment.active then activeSegmentSuffix else segmentExtension)) :
    ∀ left ∈ segments, ∀ right ∈ segments, left.active = right.active →
      left.firstLsn = right.firstLsn → left.path = right.path := by
  intro left leftIn right rightIn kind first
  rw [named left leftIn, named right rightIn, kind, first]

/-- The scan went on behind the active segment if and only if it met no error there. -/
theorem finished_error {reached : WalScanResult} {segment : SegmentEntry} {next expected : Lsn}
    {bytes : ByteString} (healthy : reached.error = .none) :
    (finished expected (scanBytes crc32c maxRecordBytes reached segment policy next
        bytes).outcome).error = .none ↔
      (scanBytes crc32c maxRecordBytes reached segment policy next bytes).goOn = true := by
  have read := @scanBytes_readAs crc32c maxRecordBytes policy reached segment next bytes
  generalize scanBytes crc32c maxRecordBytes reached segment policy next bytes = scan at read
  obtain ⟨result, ended, goOn, cut⟩ := scan
  unfold ReadAs at read
  simp only [SegmentScan.outcome, finished] at read ⊢
  split at read
  · obtain ⟨rfl, -, -, error, -⟩ := read
    simp [error, healthy]
  · obtain ⟨rfl, failed⟩ := read
    simp [failed]

/-- A scan of closed segments and an active one, as the bytes of the active one tell. -/
theorem scanWalDirectory_active {closed : List SegmentEntry} {active : SegmentEntry}
    {bytes : ByteString} (listed : SegmentsOf machine walDir (closed ++ [active]))
    (named : ∀ left ∈ closed ++ [active], ∀ right ∈ closed ++ [active],
      left.active = right.active → left.firstLsn = right.firstLsn → left.path = right.path)
    (inactive : ∀ segment ∈ closed, segment.active = false)
    (found : machine.disk.contents active.path = some bytes) (firstExpected : Lsn) :
    Program.Ensures Machine.Succeeds (fun _ => True)
      (fun result now =>
        match readLog crc32c maxRecordBytes policy machine.disk.contents closed
          (scanStart firstExpected (closed ++ [active])) with
        | none => result.error ≠ .none
        | some (_, next) => ∃ reached : WalScanResult,
          let scan := scanBytes crc32c maxRecordBytes reached active policy next bytes
          (result.error = .none ↔ scan.goOn = true) ∧
            now = machine.cutAt active.path scan.cut)
      (scanWalDirectory crc32c maxRecordBytes walDir policy firstExpected) machine := by
  refine scanWalDirectory_rule (fun none => ?_) fun segments again => ?_
  · have empty := segmentsOf_unique listed none named
    exact absurd empty (by simp)
  obtain rfl := segmentsOf_unique listed again named
  refine (scanSegments_active inactive (fun segment member =>
    (listed.present segment (by simp [member])).2) found).mono (fun _ _ => trivial)
      fun outcome now _ scanned => ?_
  unfold scanStart
  cases reading : readLog crc32c maxRecordBytes policy machine.disk.contents closed
      (if firstExpected.valid then firstExpected
        else ((closed ++ [active]).head?.map SegmentEntry.firstLsn).getD 0) with
  | none =>
    rw [reading] at scanned
    obtain ⟨stopped, failed⟩ := scanned
    simp only [finished, stopped, Bool.false_eq_true, if_false]
    exact failed
  | some read =>
    rw [reading] at scanned
    obtain ⟨reached, healthy, rfl, rfl⟩ := scanned
    exact ⟨reached, finished_error healthy, rfl⟩

end Directory

section Damage

/-- A log as the writer leaves it: at most the last segment is active, every file is named
by its first LSN and holds its records, and the LSNs go on from file to file. -/
structure WrittenLog (crc32c : ByteString → UInt32) (machine : Machine) (walDir : Directory)
    (closed : List SegmentEntry) (opened : Option SegmentEntry)
    (recordsOf : SegmentEntry → List ScannedRecord) : Prop where
  listed : SegmentsOf machine walDir (closed ++ opened.toList)
  inactive : ∀ segment ∈ closed, segment.active = false
  active : ∀ segment ∈ opened, segment.active = true
  named : ∀ segment ∈ closed ++ opened.toList, segment.path =
    walDir.file (segmentFileName segment.firstLsn ++
      if segment.active then activeSegmentSuffix else segmentExtension)
  contents : ∀ segment ∈ closed ++ opened.toList, machine.disk.contents segment.path =
    some (writtenSegment crc32c segment.firstLsn (recordsOf segment))
  consecutive : ∀ segment ∈ closed ++ opened.toList,
    ∃ next, Consecutive segment.firstLsn (recordsOf segment) next
  continues : (closed ++ opened.toList).IsChain fun left right =>
    Consecutive left.firstLsn (recordsOf left) right.firstLsn

/-- Only the bytes of the segments have changed. -/
def DamagedFrom (walDir : Directory) (before damaged : Machine) : Prop :=
  ∀ segment, IsSegment damaged walDir segment ↔ IsSegment before walDir segment

variable (crc32c : ByteString → UInt32) (maxRecordBytes : Nat)

/-- Where a record of a written segment begins. -/
def recordOffset (first : Lsn) (records : List ScannedRecord) (index : Nat) : Nat :=
  (writtenSegment crc32c first (records.take index)).length

/-- The bytes of the record are still there, behind the first damaged byte. -/
def IntactBehindDamage (first : Lsn) (records : List ScannedRecord) (bytes : ByteString)
    (index : Nat) : Prop :=
  ∃ record, records[index]? = some record ∧
    encodeRecord crc32c record <+: bytes.drop (recordOffset crc32c first records index) ∧
    ∃ position < recordOffset crc32c first records index,
      bytes[position]? ≠ (writtenSegment crc32c first records)[position]?

/-- From there on the bytes are an incomplete header or an incomplete record. -/
def TornAt (bytes : ByteString) (offset : Nat) : Prop :=
  offset = 0 ∧ bytes.length < segmentHeaderBytes ∨
    segmentHeaderBytes ≤ offset ∧
      decodeRecord crc32c maxRecordBytes (bytes.drop offset) = .error .incomplete

/-- All that is cut off is a torn tail, without an intact record behind the damage. -/
def OnlyTornCut (first : Lsn) (records : List ScannedRecord) (bytes kept : ByteString) : Prop :=
  kept = bytes ∨ ∃ cut, kept = bytes.take cut ∧ TornAt crc32c maxRecordBytes bytes cut ∧
    ∀ index, IntactBehindDamage crc32c first records bytes index →
      recordOffset crc32c first records (index + 1) ≤ cut

/-- Where the records of a segment cannot be read on, the rest is a torn tail. -/
def StopsTorn (first : Lsn) (records : List ScannedRecord) (expected : Lsn)
    (bytes : ByteString) : Prop :=
  segmentHeaderBytes ≤ bytes.length → (parseSegmentHeader bytes).isSome ∧
    ∀ stop ended status, parseSegmentHeader bytes = some expected →
      Walks crc32c maxRecordBytes bytes segmentHeaderBytes expected stop ended →
      stop < bytes.length →
      decodeRecord crc32c maxRecordBytes (bytes.drop stop) = .error status →
        status = .incomplete ∧ ∀ index, IntactBehindDamage crc32c first records bytes index →
          recordOffset crc32c first records (index + 1) ≤ stop

variable {crc32c maxRecordBytes}

theorem SegmentsOf.damaged {before damaged : Machine} {walDir : Directory}
    {segments : List SegmentEntry} (listed : SegmentsOf before walDir segments)
    (same : DamagedFrom walDir before damaged) : SegmentsOf damaged walDir segments := by
  have nodup : ∀ machine : Machine, ((machine.filesIn walDir).filterMap segmentEntry).Nodup :=
    fun machine => List.Pairwise.imp (fun apart same => apart (congrArg SegmentEntry.path same))
      (entries_distinct machine walDir)
  refine ⟨(List.perm_ext_iff_of_nodup (listed.1.nodup_iff.mpr (nodup before))
    (nodup damaged)).mpr fun segment => ?_, listed.2⟩
  rw [mem_entries, listed.mem_iff]
  exact (same segment).symm

theorem segmentHeader_length (first : Lsn) :
    (encodeSegmentHeader first).length = segmentHeaderBytes := by
  simp [encodeSegmentHeader, segmentMagic, asciiBytes, segmentHeaderBytes]

theorem writtenSegment_ne_nil {crc32c : ByteString → UInt32} {first : Lsn}
    {records : List ScannedRecord} : writtenSegment crc32c first records ≠ [] := by
  intro empty
  have length := congrArg List.length empty
  rw [writtenSegment, List.length_append, segmentHeader_length, List.length_nil] at length
  simp [segmentHeaderBytes] at length

/-- Nothing is intact in a segment that is shorter than a header. -/
theorem not_intact_of_short {first : Lsn} {records : List ScannedRecord} {bytes : ByteString}
    (short : bytes.length < segmentHeaderBytes) (index : Nat) :
    ¬ IntactBehindDamage crc32c first records bytes index := by
  rintro ⟨record, -, intact, -⟩
  have behind : bytes.length ≤ recordOffset crc32c first records index := by
    rw [recordOffset, writtenSegment, List.length_append, segmentHeader_length]
    omega
  rw [List.drop_eq_nil_of_le behind] at intact
  have empty := congrArg List.length (List.prefix_nil.mp intact)
  simp [encodeRecord] at empty

theorem take_cut {bytes : ByteString} {offset cut : Nat} (inside : offset < bytes.length)
    (same : bytes.take offset = bytes.take cut) : cut = offset := by
  have lengths := congrArg List.length same
  simp only [List.length_take] at lengths
  omega

/-- Cutting at an offset inside leaves only a torn tail out if it is one. -/
theorem onlyTornCut_take {first : Lsn} {records : List ScannedRecord} {bytes : ByteString}
    {offset : Nat} (inside : offset < bytes.length) :
    OnlyTornCut crc32c maxRecordBytes first records bytes (bytes.take offset) ↔
      TornAt crc32c maxRecordBytes bytes offset ∧
        ∀ index, IntactBehindDamage crc32c first records bytes index →
          recordOffset crc32c first records (index + 1) ≤ offset := by
  constructor
  · rintro (whole | ⟨cut, same, torn⟩)
    · have lengths := congrArg List.length whole
      rw [List.length_take] at lengths
      omega
    · obtain rfl := take_cut inside same
      exact torn
  · exact fun torn => .inr ⟨offset, rfl, torn⟩

/-- What is left of the active segment when its scan goes on. -/
theorem onlyTornCut_iff {reached : WalScanResult} {active : SegmentEntry} {first expected : Lsn}
    {records : List ScannedRecord} {bytes : ByteString} (opened : active.active = true)
    (goesOn : (scanBytes crc32c maxRecordBytes reached active .trimActiveTail expected
      bytes).goOn = true) :
    OnlyTornCut crc32c maxRecordBytes first records bytes
        (match (scanBytes crc32c maxRecordBytes reached active .trimActiveTail expected bytes).cut with
          | none => bytes
          | some offset => bytes.take offset) ↔
      StopsTorn crc32c maxRecordBytes first records expected bytes := by
  unfold scanBytes at goesOn ⊢
  by_cases empty : bytes = []
  · subst empty
    simp only [if_true, opened]
    exact ⟨fun _ long => absurd long (by decide), fun _ => .inl rfl⟩
  have some : 0 < bytes.length := List.length_pos_iff.mpr empty
  rw [if_neg empty] at goesOn ⊢
  cases parsed : parseSegmentHeader bytes with
  | none =>
    simp only [scanHeaderless, opened, and_self, if_true]
    rw [onlyTornCut_take some]
    constructor
    · rintro ⟨⟨-, short⟩ | ⟨long, -⟩, -⟩ enough
      · omega
      · exact absurd long (by decide)
    · intro torn
      have short : bytes.length < segmentHeaderBytes := by
        by_contra long
        have known := (torn (not_lt.mp long)).1
        rw [parsed] at known
        cases known
      exact ⟨.inl ⟨rfl, short⟩, fun index intact => absurd intact (not_intact_of_short short index)⟩
  | some header =>
    rw [parsed] at goesOn
    simp only at goesOn ⊢
    by_cases other : header ≠ expected
    · rw [if_pos other] at goesOn
      cases goesOn
    obtain rfl := not_not.mp other
    rw [if_neg other] at goesOn ⊢
    have long : segmentHeaderBytes ≤ bytes.length := by
      by_contra short
      rw [parseSegmentHeader, if_pos (not_le.mp short)] at parsed
      cases parsed
    have enough : bytes.length ≤ segmentHeaderBytes + bytes.length := by omega
    have walked := @walks_readRecords crc32c maxRecordBytes bytes.length segmentHeaderBytes header
      bytes enough
    have fails : ∀ {stop ended status}, Walks crc32c maxRecordBytes bytes segmentHeaderBytes header
        stop ended → stop < bytes.length →
        decodeRecord crc32c maxRecordBytes (bytes.drop stop) = .error status → _ :=
      fun walk before failed => walk.undecodable before failed enough
    unfold scanRecords at goesOn ⊢
    generalize readRecords crc32c maxRecordBytes bytes.length segmentHeaderBytes header bytes =
      read at walked fails goesOn ⊢
    obtain ⟨found, next, ended⟩ := read
    have torn : StopsTorn crc32c maxRecordBytes first records header bytes ↔
        ∀ stop status, ended = .undecodable stop status → status = .incomplete ∧
          ∀ index, IntactBehindDamage crc32c first records bytes index →
            recordOffset crc32c first records (index + 1) ≤ stop := by
      constructor
      · intro torn stop status same
        subst same
        obtain ⟨before, failed, walk⟩ := walked
        exact (torn long).2 stop next status parsed walk before failed
      · intro all _
        refine ⟨by rw [parsed]; rfl, fun stop last status _ walk before failed => ?_⟩
        exact all stop status (fails walk before failed)
    rw [torn]
    cases ended with
    | complete => exact ⟨fun _ stop status same => (by cases same), fun _ => .inl rfl⟩
    | broken offset error => cases goesOn
    | undecodable offset status =>
      obtain ⟨before, failed, walk⟩ := walked
      simp only [opened, and_self, if_true]
      rw [onlyTornCut_take before]
      constructor
      · rintro ⟨⟨start, -⟩ | ⟨-, incomplete⟩, intact⟩ stop status same
        · have behind := walk.le
          rw [start] at behind
          exact absurd behind (by decide)
        · obtain ⟨rfl, rfl⟩ := RecordsEnd.undecodable.inj same
          exact ⟨Except.error.inj (failed.symm.trans incomplete), intact⟩
      · intro all
        obtain ⟨rfl, intact⟩ := all offset status rfl
        exact ⟨.inr ⟨walk.le, failed⟩, intact⟩

/-- A scan that stops at the active segment cuts nothing off. -/
theorem stopsTorn_of_stopped {reached : WalScanResult} {active : SegmentEntry}
    {first expected : Lsn} {records : List ScannedRecord} {bytes : ByteString}
    (opened : active.active = true)
    (stopped : (scanBytes crc32c maxRecordBytes reached active .trimActiveTail expected
      bytes).goOn = false) :
    StopsTorn crc32c maxRecordBytes first records expected bytes := by
  intro long
  unfold scanBytes at stopped
  by_cases empty : bytes = []
  · simp [empty, opened] at stopped
  rw [if_neg empty] at stopped
  cases parsed : parseSegmentHeader bytes with
  | none =>
    rw [parsed] at stopped
    simp [scanHeaderless, opened] at stopped
  | some header =>
    refine ⟨rfl, fun stop last status same walk before failed => ?_⟩
    obtain rfl := Option.some.inj same
    rw [parsed] at stopped
    simp only [ne_eq, not_true_eq_false, if_false] at stopped
    have ends := walk.undecodable before failed
      (show bytes.length ≤ segmentHeaderBytes + bytes.length by omega)
    simp [scanRecords, ends, opened] at stopped

theorem cutAt_contents_self {machine : Machine} {path : DiskPath} {bytes : ByteString}
    (found : machine.disk.contents path = some bytes) (cut : Option Nat) :
    (machine.cutAt path cut).disk.contents path =
      some (match cut with
        | none => bytes
        | some offset => bytes.take offset) := by
  cases cut with
  | none => exact found
  | some offset =>
    obtain ⟨file, held, rfl⟩ := Option.map_eq_some_iff.mp found
    simp [Machine.cutAt, Machine.setDisk, Disk.truncate, held, Disk.contents, Disk.setFile]

/-- Damage to a written log is reported, or costs no more than a torn tail, if and only if
the place where the active segment cannot be read on is one. -/
theorem damage_kept_iff {before machine now : Machine} {walDir : Directory}
    {closed : List SegmentEntry} {opened : Option SegmentEntry}
    {recordsOf : SegmentEntry → List ScannedRecord} {firstExpected : Lsn} {result : WalScanResult}
    (written : WrittenLog crc32c before walDir closed opened recordsOf)
    (damaged : DamagedFrom walDir before machine)
    (scanned : Program.Reaches Machine.Succeeds
      (scanWalDirectory crc32c maxRecordBytes walDir .trimActiveTail firstExpected) machine
      (.pure result) now) :
    (Reported walDir result ∨ result.error = .none ∧ ∀ active ∈ opened, ∃ bytes kept,
        machine.disk.contents active.path = some bytes ∧
          now.disk.contents active.path = some kept ∧
            OnlyTornCut crc32c maxRecordBytes active.firstLsn (recordsOf active) bytes kept) ↔
      ∀ active ∈ opened, ∀ bytes expected, machine.disk.contents active.path = some bytes →
        LogReadsTo crc32c maxRecordBytes machine.disk.contents closed
          (scanStart firstExpected (closed ++ [active])) expected →
        StopsTorn crc32c maxRecordBytes active.firstLsn (recordsOf active) expected bytes := by
  have reported := ((scanWalDirectory_reported firstExpected).sound scanned).2 _ rfl
  have listed := written.listed.damaged damaged
  cases opened with
  | none =>
    refine ⟨fun _ => nofun, fun _ => ?_⟩
    by_cases failed : result.error = .none
    · exact .inr ⟨failed, nofun⟩
    · exact .inl (reported failed)
  | some active =>
    have known : active ∈ closed ++ (some active).toList := by simp
    obtain ⟨bytes, found⟩ := Option.ne_none_iff_exists'.mp (listed.present active known).2
    have opened := written.active active rfl
    have named := path_of_names written.named
    have scan := ((scanWalDirectory_active listed named written.inactive found
      firstExpected).sound scanned).2 _ rfl
    have reads := fun expected => @readLog_closed crc32c maxRecordBytes .trimActiveTail
      machine.disk.contents closed (scanStart firstExpected (closed ++ [active])) expected
      written.inactive
    cases reading : readLog crc32c maxRecordBytes .trimActiveTail machine.disk.contents closed
        (scanStart firstExpected (closed ++ [active])) with
    | none =>
      rw [reading] at scan
      refine ⟨fun _ other member bytes expected _ log => ?_, fun _ => .inl (reported scan)⟩
      obtain rfl := Option.some.inj member
      obtain ⟨records, read⟩ := (reads expected).mpr log
      exact absurd (reading.symm.trans read) nofun
    | some read =>
      rw [reading] at scan
      obtain ⟨records, next⟩ := read
      obtain ⟨reached, healthy, rfl⟩ := scan
      have condition : (∀ other ∈ some active, ∀ bytes expected,
          machine.disk.contents other.path = some bytes →
          LogReadsTo crc32c maxRecordBytes machine.disk.contents closed
            (scanStart firstExpected (closed ++ [other])) expected →
          StopsTorn crc32c maxRecordBytes other.firstLsn (recordsOf other) expected bytes) ↔
          StopsTorn crc32c maxRecordBytes active.firstLsn (recordsOf active) next bytes := by
        constructor
        · intro all
          exact all active rfl bytes next found ((reads next).mp ⟨records, reading⟩)
        · intro torn other member held expected same log
          obtain rfl := Option.some.inj member
          obtain rfl := Option.some.inj (found.symm.trans same)
          obtain ⟨others, again⟩ := (reads expected).mpr log
          obtain ⟨-, rfl⟩ := Prod.mk.inj (Option.some.inj (reading.symm.trans again))
          exact torn
      rw [condition]
      by_cases goesOn : (scanBytes crc32c maxRecordBytes reached active .trimActiveTail next
          bytes).goOn = true
      · have fine := healthy.mpr goesOn
        have kept := cutAt_contents_self found
          (scanBytes crc32c maxRecordBytes reached active .trimActiveTail next bytes).cut
        rw [← onlyTornCut_iff opened goesOn]
        constructor
        · rintro (failed | ⟨-, left⟩)
          · exact absurd fine failed.1
          · obtain ⟨held, rest, same, after, torn⟩ := left active rfl
            obtain rfl := Option.some.inj (found.symm.trans same)
            obtain rfl := Option.some.inj (kept.symm.trans after)
            exact torn
        · intro torn
          refine .inr ⟨fine, fun other member => ?_⟩
          obtain rfl := Option.some.inj member
          exact ⟨bytes, _, found, kept, torn⟩
      · have stopped := Bool.eq_false_iff.mpr goesOn
        refine ⟨fun _ => stopsTorn_of_stopped opened stopped, fun _ => .inl (reported ?_)⟩
        exact fun fine => goesOn (healthy.mp fine)

end Damage

section Flipped

def flippedDirectory : Directory := [['f']]

def flippedSegment : SegmentEntry where
  path := flippedDirectory.file (segmentFileName 1 ++ activeSegmentSuffix)
  firstLsn := 1
  active := true

def flippedRecords : List ScannedRecord :=
  [⟨1, .externalCommand, 1, [7]⟩, ⟨2, .externalCommand, 2, [8]⟩]

def wholeMachine : Machine :=
  .holding [flippedDirectory]
    [(flippedSegment.path, writtenSegment castagnoli 1 flippedRecords)]

/-- The payload byte of the first record is another one. -/
def flippedBytes : ByteString :=
  (writtenSegment castagnoli 1 flippedRecords).set 44 9

def flippedMachine : Machine :=
  wholeMachine.setDisk
    (wholeMachine.disk.setFile flippedSegment.path ⟨flippedBytes, flippedBytes.length⟩)

example : (writtenSegment castagnoli 1 []).length = segmentHeaderBytes := by decide +kernel

theorem flipped_written : WrittenLog castagnoli wholeMachine flippedDirectory []
    (some flippedSegment) fun _ => flippedRecords where
  listed := by
    unfold SegmentsOf
    decide +kernel
  inactive := nofun
  active segment member := by
    obtain rfl := Option.some.inj member
    rfl
  named segment member := by
    obtain rfl := List.mem_singleton.mp member
    decide +kernel
  contents segment member := by
    obtain rfl := List.mem_singleton.mp member
    decide +kernel
  consecutive segment member := by
    obtain rfl := List.mem_singleton.mp member
    exact ⟨3, rfl, 2, rfl, rfl, 3, rfl, rfl⟩
  continues := by simp

theorem flipped_damaged : DamagedFrom flippedDirectory wholeMachine flippedMachine := by
  intro segment
  unfold IsSegment
  by_cases same : segment.path = flippedSegment.path
  · have before : wholeMachine.disk.contents flippedSegment.path ≠ none := by decide +kernel
    have after : flippedMachine.disk.contents flippedSegment.path ≠ none := by decide +kernel
    simp [same, before, after]
  · have kept : flippedMachine.disk.contents segment.path =
        wholeMachine.disk.contents segment.path :=
      (Disk.setFile_keeps same _).contents
    rw [kept]

def flippedScan : WalScanResult × Machine :=
  (scanWalDirectory castagnoli 1024 flippedDirectory .trimActiveTail 0).run Machine.perform
    flippedMachine

theorem flipped_scanned : Program.Reaches Machine.Succeeds
    (scanWalDirectory castagnoli 1024 flippedDirectory .trimActiveTail 0) flippedMachine
    (.pure flippedScan.1) flippedScan.2 := by
  unfold flippedScan
  exact Program.run_reaches (fun _ _ => .inl rfl) _ _

/-- The second record is intact, yet the scan cuts it off with the first. -/
theorem flipped_byte_discards :
    ¬ ∀ (crc32c : ByteString → UInt32) (maxRecordBytes : Nat) (before machine now : Machine)
      (walDir : Directory) (closed : List SegmentEntry) (opened : Option SegmentEntry)
      (recordsOf : SegmentEntry → List ScannedRecord) (firstExpected : Lsn)
      (result : WalScanResult),
      WrittenLog crc32c before walDir closed opened recordsOf →
      DamagedFrom walDir before machine →
      Program.Reaches Machine.Succeeds
        (scanWalDirectory crc32c maxRecordBytes walDir .trimActiveTail firstExpected) machine
        (.pure result) now →
      Reported walDir result ∨ result.error = .none ∧ ∀ active ∈ opened, ∃ bytes kept,
        machine.disk.contents active.path = some bytes ∧
          now.disk.contents active.path = some kept ∧
            OnlyTornCut crc32c maxRecordBytes active.firstLsn (recordsOf active) bytes kept := by
  intro claimed
  have fine : flippedScan.1.error = .none := by decide +kernel
  have found : flippedMachine.disk.contents flippedSegment.path = some flippedBytes := by
    decide +kernel
  have cut : flippedScan.2.disk.contents flippedSegment.path = some (flippedBytes.take 16) := by
    decide +kernel
  have refused : decodeRecord castagnoli 1024 (flippedBytes.drop 16) = .error .crcMismatch := by
    decide +kernel
  rcases claimed castagnoli 1024 _ _ _ _ _ _ _ 0 _ flipped_written flipped_damaged
    flipped_scanned with failed | ⟨-, kept⟩
  · exact failed.1 fine
  obtain ⟨bytes, left, same, after, torn⟩ := kept flippedSegment rfl
  obtain rfl := Option.some.inj (found.symm.trans same)
  obtain rfl := Option.some.inj (cut.symm.trans after)
  rw [onlyTornCut_take (by decide +kernel)] at torn
  rcases torn.1 with start | ⟨-, incomplete⟩
  · exact absurd start.1 (by decide)
  · exact absurd (refused.symm.trans incomplete) nofun

theorem damage_kept_flipped :
    (Reported flippedDirectory flippedScan.1 ∨ flippedScan.1.error = .none ∧
        ∀ active ∈ some flippedSegment, ∃ bytes kept,
          flippedMachine.disk.contents active.path = some bytes ∧
            flippedScan.2.disk.contents active.path = some kept ∧
              OnlyTornCut castagnoli 1024 active.firstLsn flippedRecords bytes kept) ↔
      ∀ active ∈ some flippedSegment, ∀ bytes expected,
        flippedMachine.disk.contents active.path = some bytes →
        LogReadsTo castagnoli 1024 flippedMachine.disk.contents []
          (scanStart 0 ([] ++ [active])) expected →
        StopsTorn castagnoli 1024 active.firstLsn flippedRecords expected bytes :=
  damage_kept_iff flipped_written flipped_damaged flipped_scanned

end Flipped

end GeoWorld.Persistence
