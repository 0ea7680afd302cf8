import Mathlib
import GeoWorld.Library.Runs
import GeoWorld.Persistence.TornTail
import GeoWorld.Persistence.WalVerdict

/-!
The end of the LSNs. The writer learns that none is left when it writes the last one, but
records that wait behind it were admitted before and are written under the last LSN again;
and the reader asks for the successor of every LSN, so it refuses a log that is full.
-/

namespace GeoWorld.Persistence

open WorldModel Library

/-- What has been admitted and not yet been written. -/
def LogThread.unwritten (log : LogThread) : List TicketedAppend :=
  (match log.phase with
    | .forming batch _ => batch
    | .writing _ rest => rest
    | _ => []) ++ log.queue

def WalWriter.lsnsLeft (writer : WalWriter) : Nat :=
  if writer.lsnExhausted then 0 else 2 ^ 64 - writer.nextLsnValue.toNat

/-- A record enters the queue only while there is an LSN left for it. -/
def LsnLeft (log : LogThread) : LogAction → Prop
  | .enqueue _ => log.unwritten.length < log.writer.lsnsLeft
  | _ => True

/-- The records are written in the order of their tickets, each under the LSN after the one
before; so no LSN comes twice and none comes behind the last there is. -/
def SuccessorChain (first : Lsn) (given : List (Ticket × Lsn)) : Prop :=
  ∀ index entry, given[index]? = some entry →
    entry.1 = index ∧ entry.2.toNat = first.toNat + index

theorem SuccessorChain.append {first lsn : Lsn} {given : List (Ticket × Lsn)}
    (chain : SuccessorChain first given) (next : lsn.toNat = first.toNat + given.length) :
    SuccessorChain first (given ++ [(given.length, lsn)]) := by
  intro index entry found
  by_cases old : index < given.length
  · rw [List.getElem?_append_left old] at found
    exact chain index entry found
  · rw [List.getElem?_append_right (not_lt.mp old), List.getElem?_singleton] at found
    split at found
    · obtain rfl := Option.some.inj found
      obtain rfl : index = given.length := by omega
      exact ⟨rfl, next⟩
    · cases found

section Chain

variable {crc32c : ByteString → UInt32} {config : WalConfig} {log after : LogThread}
  {action : LogAction} {first : Lsn}

open LogThread

/-- What waits to be written has the next tickets, and LSNs are left for all of it. -/
structure Waits (first : Lsn) (log : LogThread) : Prop where
  tickets : log.unwritten.map TicketedAppend.ticket =
    List.range' log.given.length log.unwritten.length
  admitted : log.given.length + log.unwritten.length = log.admitted.length
  room : log.unwritten.length ≤ log.writer.lsnsLeft
  next : 0 < log.writer.lsnsLeft →
    log.writer.nextLsnValue.toNat = first.toNat + log.given.length
  valid : log.writer.nextLsnValue.valid

theorem Waits.congr (waits : Waits first log) (unwritten : after.unwritten = log.unwritten)
    (given : after.given = log.given) (admitted : after.admitted = log.admitted)
    (position : log.writer.SamePosition after.writer) : Waits first after := by
  have left : after.writer.lsnsLeft = log.writer.lsnsLeft := by
    unfold WalWriter.lsnsLeft
    rw [position.next, position.exhausted]
  constructor
  · rw [unwritten, given]
    exact waits.tickets
  · rw [unwritten, given, admitted]
    exact waits.admitted
  · rw [unwritten, left]
    exact waits.room
  · rw [left, position.next, given]
    exact waits.next
  · rw [position.next]
    exact waits.valid

theorem advanced_left {writer ready : WalWriter} (kept : writer.SamePosition ready)
    (valid : writer.nextLsnValue.valid) (some : 0 < writer.lsnsLeft) (active : ActiveSegment)
    (length : Nat) :
    (ready.advanced active length).lsnsLeft + 1 = writer.lsnsLeft ∧
      (0 < (ready.advanced active length).lsnsLeft →
        (ready.advanced active length).nextLsnValue.toNat = writer.nextLsnValue.toNat + 1) ∧
      (ready.advanced active length).nextLsnValue.valid := by
  have open_ : writer.lsnExhausted = false := by
    cases exhausted : writer.lsnExhausted with
    | false => rfl
    | true => simp [WalWriter.lsnsLeft, exhausted] at some
  have bound := writer.nextLsnValue.toNat_lt
  have before : writer.lsnsLeft = 2 ^ 64 - writer.nextLsnValue.toNat := by
    simp [WalWriter.lsnsLeft, open_]
  cases follows : nextLsn writer.nextLsnValue with
  | none =>
    have last := nextLsn_eq_none valid follows
    have none : (ready.advanced active length).lsnsLeft = 0 := by
      simp [WalWriter.advanced, WalWriter.lsnsLeft, kept.next, follows]
    have same : (ready.advanced active length).nextLsnValue = writer.nextLsnValue := by
      rw [WalWriter.advanced_next, kept.next, follows]
      rfl
    rw [lastLsnValue] at last
    refine ⟨by omega, fun left => by omega, ?_⟩
    rw [same]
    exact valid
  | some next =>
    have step := nextLsn_toNat follows
    have small := next.toNat_lt
    have following : (ready.advanced active length).nextLsnValue = next := by
      rw [WalWriter.advanced_next, kept.next, follows]
      rfl
    have left : (ready.advanced active length).lsnsLeft = 2 ^ 64 - next.toNat := by
      simp [WalWriter.advanced, WalWriter.lsnsLeft, kept.next, kept.exhausted, follows, open_]
    rw [following, left]
    exact ⟨by omega, fun _ => step, valid_of_le (by omega)⟩

/-- A record that is written takes the next ticket and the next LSN. -/
theorem waits_write {pending : TicketedAppend} {rest : List TicketedAppend}
    (waits : Waits first log) (unwritten : log.unwritten = pending :: rest) :
    pending.ticket = log.given.length ∧
      log.writer.nextLsnValue.toNat = first.toNat + log.given.length := by
  have tickets := waits.tickets
  have room := waits.room
  rw [unwritten, List.length_cons] at room
  rw [unwritten, List.map_cons, List.length_cons, List.range'_succ] at tickets
  exact ⟨(List.cons.inj tickets).1, waits.next (by omega)⟩

theorem waits_enqueue {record : WalRecord} (waits : Waits first log)
    (left : log.unwritten.length < log.writer.lsnsLeft)
    (unwritten : after.unwritten = log.unwritten ++ [⟨record, log.admitted.length⟩])
    (given : after.given = log.given) (writer : after.writer = log.writer)
    (more : after.admitted.length = log.admitted.length + 1) : Waits first after := by
  have admitted := waits.admitted
  constructor
  · rw [unwritten, given, List.map_append, waits.tickets, List.length_append,
      List.length_singleton, List.range'_1_concat, admitted]
    rfl
  · rw [unwritten, given, more, List.length_append, List.length_singleton]
    omega
  · rw [unwritten, writer, List.length_append, List.length_singleton]
    omega
  · rw [writer, given]
    exact waits.next
  · rw [writer]
    exact waits.valid

theorem waits_written {pending : TicketedAppend} {ready : WalWriter} {active : ActiveSegment}
    {length : Nat} (waits : Waits first log) (kept : log.writer.SamePosition ready)
    (unwritten : log.unwritten = pending :: after.unwritten)
    (given : after.given.length = log.given.length + 1)
    (writer : after.writer = ready.advanced active length)
    (admitted : after.admitted = log.admitted) : Waits first after := by
  obtain ⟨-, here⟩ := waits_write waits unwritten
  have tickets := waits.tickets
  have counted := waits.admitted
  have room := waits.room
  rw [unwritten, List.length_cons] at tickets counted room
  rw [List.map_cons, List.range'_succ] at tickets
  obtain ⟨fewer, next, still⟩ := advanced_left kept waits.valid (by omega) active length
  constructor
  · rw [given]
    exact (List.cons.inj tickets).2
  · rw [given, admitted]
    omega
  · rw [writer]
    omega
  · rw [writer, given]
    intro left
    rw [next left, here]
    omega
  · rw [writer]
    exact still

theorem waits_step (step : Step crc32c config log action after) (left : LsnLeft log action)
    (faults : FaultInv log) (before : ¬ log.Faulted) (healthy : ¬ after.Faulted)
    (waits : Waits first log) : Waits first after := by
  have unfaulted : log.writer.fault = false := by
    cases fault : log.writer.fault with
    | false => rfl
    | true => exact absurd (.inl fault) before
  cases step with
  | check => exact waits.congr rfl rfl rfl (.refl _)
  | @enqueue record =>
    exact @waits_enqueue log _ first record waits left (by simp [unwritten]) rfl rfl (by simp)
  | refuse => exact waits.congr rfl rfl rfl (.refl _)
  | stop => exact waits.congr rfl rfl rfl ⟨rfl, rfl, rfl⟩
  | begin phase => exact waits.congr (by simp [unwritten, phase]) rfl rfl (.refl _)
  | take phase next => exact waits.congr (by simp [unwritten, phase, next]) rfl rfl (.refl _)
  | close phase => exact waits.congr (by simp [unwritten, phase, unfaulted]) rfl rfl (.refl _)
  | turnAway phase => exact waits.congr (by simp [unwritten, phase]) rfl rfl (.refl _)
  | @write written rest pending _ error writer storage phase reached =>
    by_cases failed : error = .none
    swap
    · exact absurd (.inr (.inl ⟨error, _, if_neg failed⟩)) healthy
    have round := (((writeRecord_ensures _ _ _ _).sound reached).2 _ rfl).1 failed
    obtain ⟨ready, active, length, kept, rfl⟩ := round.advanced
    exact @waits_written log _ first pending ready active length waits kept
      (by simp [unwritten, phase, failed]) (by simp) rfl rfl
  | @sync written error storage phase reached =>
    by_cases failed : error = .none
    swap
    · exact absurd (.inr (.inl ⟨error, _, if_neg failed⟩)) healthy
    refine waits.congr (by simp [unwritten, phase, failed]) rfl rfl ?_
    simp only
    split
    · exact ⟨rfl, rfl, rfl⟩
    · exact .refl _
  | answer phase =>
    refine waits.congr (by simp [unwritten, phase]) rfl rfl ?_
    simp only
    split
    · exact ⟨rfl, rfl, rfl⟩
    · exact .refl _
  | reject phase => exact absurd (.inr (.inl ⟨_, _, phase⟩)) before
  | raise phase => exact absurd (.inr (.inr phase)) before
  | drain phase => exact absurd (.inl (faults.draining phase)) before
  | exit phase empty =>
    exact waits.congr (by simp [unwritten, phase]) rfl rfl ⟨rfl, rfl, rfl⟩

/-- What is written so far is a chain, and until there is an error it goes on as one. -/
structure LsnInv (first : Lsn) (log : LogThread) : Prop where
  chain : SuccessorChain first log.given
  waits : ¬ log.Faulted → Waits first log

theorem lsnInv_step (step : Step crc32c config log action after) (left : LsnLeft log action)
    (faults : FaultInv log) (inv : LsnInv first log) : LsnInv first after := by
  have healthy : ¬ after.Faulted → ¬ log.Faulted := fun fine faulted =>
    fine (faulted_step step faulted)
  refine ⟨?_, fun fine => waits_step step left faults (healthy fine) fine
    (inv.waits (healthy fine))⟩
  cases step with
  | @write written rest pending _ _ _ _ phase =>
    have fine : ¬ log.Faulted := by
      rintro (fault | ⟨error, batch, failed⟩ | raising)
      · exact faults.writing fault _ _ phase
      · cases phase.symm.trans failed
      · cases phase.symm.trans raising
    have shape : log.unwritten = pending :: (rest ++ log.queue) := by simp [unwritten, phase]
    obtain ⟨ticket, next⟩ := waits_write (inv.waits fine) shape
    rw [ticket]
    exact inv.chain.append next
  | _ => exact inv.chain

theorem lsnInv_started {writer : WalWriter} (valid : writer.nextLsnValue.valid)
    (machine : Machine) : LsnInv writer.nextLsnValue (LogThread.started writer machine) where
  chain index entry found := by simp [started] at found
  waits _ := {
    tickets := rfl
    admitted := rfl
    room := Nat.zero_le _
    next := fun _ => rfl
    valid := valid }

end Chain

section Full

variable {crc32c : ByteString → UInt32} {maxRecordBytes : Nat} {policy : TailPolicy}

/-- A log whose last record has the last LSN there is. -/
structure FullLog (crc32c : ByteString → UInt32) (machine : Machine) (walDir : Directory)
    (closed : List SegmentEntry) (final : SegmentEntry)
    (recordsOf : SegmentEntry → List ScannedRecord) (last : ScannedRecord) : Prop where
  listed : SegmentsOf machine walDir (closed ++ [final])
  named : ∀ segment ∈ closed ++ [final], segment.path =
    walDir.file (segmentFileName segment.firstLsn ++
      if segment.active then activeSegmentSuffix else segmentExtension)
  contents : ∀ segment ∈ closed, machine.disk.contents segment.path =
    some (writtenSegment crc32c segment.firstLsn (recordsOf segment))
  ends : machine.disk.contents final.path =
    some (writtenSegment crc32c final.firstLsn (recordsOf final ++ [last]))
  continues : (closed ++ [final]).IsChain fun left right =>
    Consecutive left.firstLsn (recordsOf left) right.firstLsn
  consecutive : Consecutive final.firstLsn (recordsOf final) last.lsn
  full : last.lsn.toNat = lastLsnValue

theorem nextLsn_last {lsn : Lsn} (last : lsn.toNat = lastLsnValue) : nextLsn lsn = none := by
  cases follows : nextLsn lsn with
  | none => rfl
  | some next =>
    have step := nextLsn_toNat follows
    have bound := next.toNat_lt
    rw [lastLsnValue] at last
    omega

/-- Neither a scan of the log nor a start of the writer succeeds. -/
def LogRefused (crc32c : ByteString → UInt32) (config : WalConfig) (machine : Machine) : Prop :=
  (∀ policy firstExpected result now, Program.Reaches Machine.Succeeds
      (scanWalDirectory crc32c config.maxRecordBytes config.layout.walDir policy firstExpected)
      machine (.pure result) now → result.error ≠ .none) ∧
    ∀ error writer now, Program.Reaches Machine.Succeeds (WalWriter.start crc32c config) machine
      (.pure (error, writer)) now → error ≠ .none

/-- The reader stops at the last LSN, which has no successor. -/
theorem readRecords_full {records : List ScannedRecord} {last : ScannedRecord}
    {front : ByteString} {expected : Lsn} (consecutive : Consecutive expected records last.lsn)
    (full : nextLsn last.lsn = none)
    (fits : ∀ record ∈ records ++ [last], Fits maxRecordBytes record) {fuel : Nat}
    (enough : ((records ++ [last]).flatMap (encodeRecord crc32c)).length ≤ fuel) :
    ∃ offset, (readRecords crc32c maxRecordBytes fuel front.length expected
      (front ++ (records ++ [last]).flatMap (encodeRecord crc32c))).ended =
        .broken offset .lsnOverflow := by
  have positive : ∀ record, 0 < (encodeRecord crc32c record).length := fun record => by
    rw [encodeRecord_length, recordLengthPrefixBytes]
    omega
  induction records generalizing front expected fuel with
  | nil =>
    obtain rfl : expected = last.lsn := consecutive
    have here := fits last (by simp)
    simp only [List.nil_append, List.flatMap_singleton] at enough ⊢
    obtain ⟨less, rfl⟩ := Nat.exists_eq_add_of_lt (lt_of_lt_of_le (positive last) enough)
    have inside : ¬ (front ++ encodeRecord crc32c last).length ≤ front.length := by
      have some := positive last
      rw [List.length_append]
      omega
    have decoded := @decodeRecord_encodeRecord crc32c maxRecordBytes last here []
    rw [List.append_nil] at decoded
    refine ⟨front.length, ?_⟩
    rw [Nat.zero_add, readRecords, if_neg inside, List.drop_left, decoded]
    simp [full]
  | cons record rest ih =>
    obtain ⟨lsn, following, follows, later⟩ := consecutive
    have here := fits record (by simp)
    rw [List.cons_append, List.flatMap_cons] at enough ⊢
    rw [List.length_append] at enough
    have some := positive record
    obtain ⟨less, rfl⟩ := Nat.exists_eq_add_of_lt (lt_of_lt_of_le some
      (le_trans (Nat.le_add_right _ _) enough))
    obtain ⟨offset, broken⟩ := @ih (front ++ encodeRecord crc32c record) following later
      (fun other member => fits other (by
        rw [List.cons_append]
        exact List.mem_cons_of_mem _ member)) less (by omega)
    rw [List.append_assoc, List.length_append] at broken
    have decoded : decodeRecord crc32c maxRecordBytes ((front ++ (encodeRecord crc32c record ++
        (rest ++ [last]).flatMap (encodeRecord crc32c))).drop front.length) =
          .ok (record, (encodeRecord crc32c record).length) := by
      rw [List.drop_left]
      exact decodeRecord_encodeRecord here _
    have step := @readRecords_record crc32c maxRecordBytes less front.length _ expected following
      _ record (by simp; omega) decoded lsn follows
    refine ⟨offset, ?_⟩
    rw [Nat.zero_add, step]
    exact broken

/-- A segment whose header names another LSN ends the scan. -/
theorem readSegment_other {segment : SegmentEntry} {first expected : Lsn}
    {records : List ScannedRecord} (valid : first.valid) (other : first ≠ expected) :
    readSegment crc32c maxRecordBytes policy segment expected
      (writtenSegment crc32c first records) = none := by
  have parsed := parseSegmentHeader_encodeSegmentHeader valid
    (records.flatMap (encodeRecord crc32c))
  rw [readSegment, if_neg writtenSegment_ne_nil]
  unfold writtenSegment
  rw [parsed]
  simp only
  rw [if_pos other]

theorem readSegment_full {segment : SegmentEntry} {first : Lsn} {records : List ScannedRecord}
    {last : ScannedRecord} (valid : first.valid) (consecutive : Consecutive first records last.lsn)
    (full : nextLsn last.lsn = none)
    (fits : ∀ record ∈ records ++ [last], Fits maxRecordBytes record) (expected : Lsn) :
    readSegment crc32c maxRecordBytes policy segment expected
      (writtenSegment crc32c first (records ++ [last])) = none := by
  by_cases other : first ≠ expected
  · exact readSegment_other valid other
  obtain rfl := not_not.mp other
  have parsed := parseSegmentHeader_encodeSegmentHeader valid
    ((records ++ [last]).flatMap (encodeRecord crc32c))
  obtain ⟨offset, broken⟩ := @readRecords_full crc32c maxRecordBytes records last
    (encodeSegmentHeader first) first consecutive full fits
    (writtenSegment crc32c first (records ++ [last])).length
    (by rw [writtenSegment, List.length_append]; omega)
  rw [segmentHeader_length] at broken
  rw [readSegment, if_neg writtenSegment_ne_nil]
  unfold writtenSegment at broken ⊢
  rw [parsed]
  simp only
  rw [if_neg other, broken]

/-- The segments of a full log cannot be read, wherever the reader begins. -/
theorem FullLog.unread {machine : Machine} {walDir : Directory} {closed : List SegmentEntry}
    {final : SegmentEntry} {recordsOf : SegmentEntry → List ScannedRecord} {last : ScannedRecord}
    (log : FullLog crc32c machine walDir closed final recordsOf last)
    (fits : ∀ segment ∈ closed ++ [final], ∀ record ∈ recordsOf segment,
      Fits maxRecordBytes record) (fitsLast : Fits maxRecordBytes last) (expected : Lsn) :
    readLog crc32c maxRecordBytes policy machine.disk.contents (closed ++ [final]) expected =
      none := by
  have valid : ∀ segment ∈ closed ++ [final], segment.firstLsn.valid :=
    fun segment member => segmentEntry_valid (log.listed.mem_iff.mp member).1
  have whole := @readLog_written crc32c maxRecordBytes policy machine.disk.contents closed final
    recordsOf (fun segment member => valid segment (by simp [member])) log.contents log.continues
    (fun segment member => fits segment (by simp [member]))
  have ends : readLog crc32c maxRecordBytes policy machine.disk.contents [final] final.firstLsn =
      none := by
    have unread := @readSegment_full crc32c maxRecordBytes policy final final.firstLsn
      (recordsOf final) last (valid final (by simp)) log.consecutive (nextLsn_last log.full)
      (fun record member => by
        rcases List.mem_append.mp member with early | late
        · exact fits final (by simp) record early
        · rw [List.mem_singleton.mp late]
          exact fitsLast) final.firstLsn
    rw [readLog, log.ends, Option.bind_some, unread, Option.bind_none]
  by_cases start : ((closed ++ [final]).head?.map SegmentEntry.firstLsn).getD 0 = expected
  · rw [← start, readLog_append whole, ends, Option.map_none]
  -- the header of the first segment is not the one the reader expects
  obtain ⟨lead, rest, shape⟩ := List.exists_cons_of_ne_nil
    (List.append_ne_nil_of_right_ne_nil closed (List.cons_ne_nil final []))
  rw [shape] at start
  obtain ⟨records, held⟩ : ∃ records, machine.disk.contents lead.path =
      some (writtenSegment crc32c lead.firstLsn records) := by
    have member : lead ∈ closed ++ [final] := by simp [shape]
    rcases List.mem_append.mp member with early | late
    · exact ⟨_, log.contents lead early⟩
    · rw [List.mem_singleton.mp late]
      exact ⟨_, log.ends⟩
  rw [shape, readLog, held, Option.bind_some, readSegment_other (valid lead (by simp [shape])) start,
    Option.bind_none]

variable {machine : Machine} {walDir : Directory} {closed : List SegmentEntry}
  {final : SegmentEntry} {recordsOf : SegmentEntry → List ScannedRecord} {last : ScannedRecord}

theorem FullLog.untouched {now : Machine}
    (log : FullLog crc32c machine walDir closed final recordsOf last)
    (untouched : LogUntouched walDir machine now) :
    FullLog crc32c now walDir closed final recordsOf last where
  listed := log.listed.damaged (isSegment_congr untouched)
  named := log.named
  contents segment member := by
    have inside : segment.path.directory = walDir := by
      rw [log.named segment (by simp [member])]
      rfl
    rw [untouched _ inside]
    exact log.contents segment member
  ends := by
    have inside : final.path.directory = walDir := by
      rw [log.named final (by simp)]
      rfl
    rw [untouched _ inside]
    exact log.ends
  continues := log.continues
  consecutive := log.consecutive
  full := log.full

theorem FullLog.scan_refuses (log : FullLog crc32c machine walDir closed final recordsOf last)
    (fits : ∀ segment ∈ closed ++ [final], ∀ record ∈ recordsOf segment,
      Fits maxRecordBytes record) (fitsLast : Fits maxRecordBytes last) (firstExpected : Lsn) :
    Program.Ensures Machine.Succeeds (fun _ => True) (fun result _ => result.error ≠ .none)
      (scanWalDirectory crc32c maxRecordBytes walDir policy firstExpected) machine := by
  refine (scanWalDirectory_ensures walDir firstExpected).mono (fun _ _ => trivial)
    fun result now _ scanned => ?_
  obtain ⟨⟨segments, again, answer⟩, -⟩ := scanned
  obtain rfl := segmentsOf_unique log.listed again (path_of_names log.named)
  have answer := answer.resolve_left fun empty => absurd empty.1 (by simp)
  unfold Scanned at answer
  simp only [log.unread fits fitsLast] at answer
  exact answer

theorem FullLog.start_refuses {config : WalConfig}
    (log : FullLog crc32c machine config.layout.walDir closed final recordsOf last)
    (fits : ∀ segment ∈ closed ++ [final], ∀ record ∈ recordsOf segment,
      Fits config.maxRecordBytes record) (fitsLast : Fits config.maxRecordBytes last) :
    Program.Ensures Machine.Succeeds (fun _ => True) (fun started _ => started.1 ≠ .none)
      (WalWriter.start crc32c config) machine := by
  unfold WalWriter.start
  split
  · refine ⟨trivial, ?_⟩
    change PersistenceError.configInvalid ≠ .none
    decide
  refine ((prepareDirectory_untouched machine).restrict fun _ _ _ _ => .inl).bind
    fun error now _ untouched => ?_
  split
  · rename_i failed
    exact ⟨trivial, failed⟩
  refine ((log.untouched untouched).scan_refuses fits fitsLast _).bind
    fun scan later _ refused => ?_
  rw [if_pos refused]
  exact ⟨trivial, refused⟩

end Full

section Limit

variable {crc32c : ByteString → UInt32} {config : WalConfig} {log : LogThread}
  {actions : List LogAction}

open LogThread

/-- The LSNs are a chain as long as no record is admitted for which none is left, and no log
with the last LSN is accepted again. -/
theorem lsns_successor_chain {writer : WalWriter} {machine : Machine}
    (valid : writer.nextLsnValue.valid)
    (run : GuardedRun (Step crc32c config) LsnLeft (started writer machine) actions log) :
    SuccessorChain writer.nextLsnValue log.given ∧
      ∀ disk closed final recordsOf last,
        FullLog crc32c disk config.layout.walDir closed final recordsOf last →
        (∀ segment ∈ closed ++ [final], ∀ record ∈ recordsOf segment,
          Fits config.maxRecordBytes record) →
        Fits config.maxRecordBytes last → LogRefused crc32c config disk := by
  constructor
  · have keeps : ∀ before action after, LsnLeft before action →
        Step crc32c config before action after →
        FaultInv before ∧ LsnInv writer.nextLsnValue before →
        FaultInv after ∧ LsnInv writer.nextLsnValue after := fun _ _ _ left step inv =>
      ⟨faultInv_step step inv.1, lsnInv_step step left inv.1 inv.2⟩
    have inv := run.invariant ⟨faultInv_started writer machine, lsnInv_started valid machine⟩ keeps
    exact inv.2.chain
  · intro disk closed final recordsOf last full fits fitsLast
    refine ⟨fun policy firstExpected result now scanned => ?_, fun error writer now begun => ?_⟩
    · exact ((full.scan_refuses fits fitsLast firstExpected).sound scanned).2 _ rfl
    · exact ((full.start_refuses fits fitsLast).sound begun).2 _ rfl

instance (log : LogThread) (action : LogAction) : Decidable (LsnLeft log action) :=
  match action with
  | .enqueue _ => inferInstanceAs (Decidable (_ < _))
  | .check _ | .refuse _ | .stop | .begin | .take | .close | .turnAway | .write | .sync | .answer
  | .reject | .raise | .drain | .exit => isTrue trivial

def limitActions : List LogAction :=
  [.check pairRecord, .check pairRecord, .enqueue pairRecord, .enqueue pairRecord, .begin, .take,
    .take, .close, .write, .write, .sync, .answer]

def limitMachine : Machine := .holding [pairConfig.layout.walDir] []

def limitRun (next : Lsn) : Option LogThread :=
  runLabels (serve castagnoli pairConfig)
    (.started { started := true, nextLsnValue := next } limitMachine) limitActions

theorem limitRun_last : (limitRun 18446744073709551615).map LogThread.given =
    some [(0, 18446744073709551615), (1, 18446744073709551615)] := by
  decide +kernel

/-- Two records are admitted for the last LSN, and both are written under it. -/
theorem last_lsn_written_twice :
    ¬ ∀ (crc32c : ByteString → UInt32) (config : WalConfig) (writer : WalWriter)
      (machine : Machine) (actions : List LogAction) (log : LogThread),
      writer.nextLsnValue.valid →
      AnyRun (Step crc32c config) (started writer machine) actions log →
      SuccessorChain writer.nextLsnValue log.given := by
  intro claimed
  obtain ⟨log, computed, given⟩ := Option.map_eq_some_iff.mp limitRun_last
  have chain := claimed castagnoli pairConfig _ _ _ log (by decide) (serve_run computed)
  have second := chain 1 (1, 18446744073709551615) (by rw [given]; rfl)
  exact absurd second.2 (by decide)

def lastRecord : ScannedRecord := ⟨18446744073709551615, .externalCommand, 1, [7]⟩

def lastSegment : SegmentEntry where
  path := pairConfig.layout.walDir.file
    (segmentFileName 18446744073709551615 ++ activeSegmentSuffix)
  firstLsn := 18446744073709551615
  active := true

def fullMachine : Machine :=
  .holding [pairConfig.layout.walDir]
    [(lastSegment.path, writtenSegment castagnoli 18446744073709551615 [lastRecord])]

theorem last_full : FullLog castagnoli fullMachine pairConfig.layout.walDir [] lastSegment
    (fun _ => []) lastRecord where
  listed := by
    unfold SegmentsOf
    decide +kernel
  named segment member := by
    obtain rfl := List.mem_singleton.mp member
    decide +kernel
  contents segment member := absurd member (by simp)
  ends := by decide +kernel
  continues := by simp
  consecutive := rfl
  full := rfl

theorem limitRun_before : ((runLabels (fun log action =>
      if decide (LsnLeft log action) then serve castagnoli pairConfig log action else none)
    (.started { started := true, nextLsnValue := 18446744073709551614 } limitMachine)
    limitActions).map LogThread.given) =
      some [(0, 18446744073709551614), (1, 18446744073709551615)] := by
  decide +kernel

/-- Two records get the last two LSNs, and the log they fill is refused. -/
theorem lsns_successor_chain_limit : ∃ log : LogThread,
    log.given = [(0, 18446744073709551614), (1, 18446744073709551615)] ∧
      SuccessorChain 18446744073709551614 log.given ∧
      LogRefused castagnoli pairConfig fullMachine := by
  obtain ⟨log, computed, given⟩ := Option.map_eq_some_iff.mp limitRun_before
  have run := (GuardedRun.of_checked (fun _ _ => of_decide_eq_true) computed).extend
    fun _ _ _ => serve_step
  obtain ⟨chain, refused⟩ := lsns_successor_chain (by decide) run
  have fits : Fits pairConfig.maxRecordBytes lastRecord := ⟨by decide, by decide⟩
  exact ⟨log, given, chain, refused _ _ _ _ _ last_full (by simp) fits⟩

end Limit

end GeoWorld.Persistence
