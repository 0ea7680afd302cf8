import Mathlib
import GeoWorld.Persistence.RecordLimit

/-!
Whether a plan that is made is complete. The planner compares what the checkpoint includes
with the first segment and with the last record; a log without records has no last one, and
without a checkpoint the first segment is not looked at.
-/

namespace GeoWorld.Persistence

open WorldModel Library

section Log

variable (formats : Formats) (loader : CheckpointLoader) (policy : TailPolicy) (machine : Machine)

/-- The segments of the log of a branch, in the order of a scan. -/
def logSegments : List SegmentEntry :=
  ((machine.filesIn loader.layout.walDir).filterMap segmentEntry).insertionSort
    fun left right => left.before right

/-- Where the first segment begins. -/
def logFirst : Lsn :=
  ((logSegments loader machine).head?.map SegmentEntry.firstLsn).getD 0

/-- The LSN the planner has the log begin with. -/
def logStart (checkpoint : Option LoadedCheckpoint) : Lsn :=
  if checkpoint.isSome then logFirst loader machine else firstLsn

/-- The records of the log and the LSN behind them, if it is in order. -/
def logRead (checkpoint : Option LoadedCheckpoint) : Option (List ScannedRecord × Lsn) :=
  readLog formats.crc32c defaultMaxRecordBytes policy machine.disk.contents
    (logSegments loader machine) (logStart loader machine checkpoint)

end Log

/-- What a checkpoint includes; nothing without one. -/
def includedLsn (checkpoint : Option LoadedCheckpoint) : Lsn :=
  (checkpoint.map fun loaded => loaded.info.anchor.includedLsn).getD 0

/-- The replay is made of the records behind what is included, one LSN after the other up to
the last one there is. -/
structure CompleteReplay (records : List ScannedRecord) (plan : RecoveryPlan) : Prop where
  exact : ∀ record, record ∈ plan.replayRecords ↔
    record ∈ records ∧ includedLsn plan.checkpoint < record.lsn
  inTurn : InTurn ((includedLsn plan.checkpoint).toNat + 1) plan.replayRecords
  last : ∀ record ∈ plan.replayRecords.getLast?, record.lsn = plan.lastLsn

/-- There are segments, but the first one begins too late or the last one ends too early. -/
def MissesRecords (segments : List SegmentEntry) (included ended : Lsn) : Prop :=
  (∃ lead ∈ segments.head?, included.toNat + 1 < lead.firstLsn.toNat) ∨
    segments ≠ [] ∧ ended.toNat ≤ included.toNat

section Plan

variable {formats : Formats} {loader : CheckpointLoader} {policy : TailPolicy} {machine : Machine}

/-- Every plan that is made replays the log completely, and none is made where records are
missing. -/
def PlansComplete (formats : Formats) (loader : CheckpointLoader) (policy : TailPolicy)
    (machine : Machine) : Prop :=
  ∀ plan, recovery formats loader policy machine = .ok plan →
    ∃ records ended, logRead formats loader policy machine plan.checkpoint = some (records, ended) ∧
      CompleteReplay records plan ∧
      ¬ MissesRecords (logSegments loader machine) (includedLsn plan.checkpoint) ended

/-- A log that is in order and has segments has a record, or it begins behind what the
checkpoint includes, or that is all there can be; without a checkpoint its first segment is the
first of all. -/
def LogAnswers (formats : Formats) (loader : CheckpointLoader) (policy : TailPolicy)
    (machine : Machine) (checkpoint : Option LoadedCheckpoint) : Prop :=
  ∀ records ended, logRead formats loader policy machine checkpoint = some (records, ended) →
    ∀ lead ∈ (logSegments loader machine).head?,
      if checkpoint.isSome then
        records ≠ [] ∨ includedLsn checkpoint < lead.firstLsn ∨
          (includedLsn checkpoint).toNat = lastLsnValue
      else lead.firstLsn = firstLsn

theorem logSegments_listed (loader : CheckpointLoader) (machine : Machine) :
    SegmentsOf machine loader.layout.walDir (logSegments loader machine) := by
  have : Std.Total fun left right : SegmentEntry => left.before right = true := ⟨before_total⟩
  have : IsTrans SegmentEntry fun left right => left.before right = true :=
    ⟨fun _ _ _ => before_trans⟩
  exact ⟨List.perm_insertionSort _ _, List.pairwise_insertionSort _ _⟩

theorem logSegments_valid {segment : SegmentEntry} (member : segment ∈ logSegments loader machine) :
    segment.firstLsn.valid :=
  segmentEntry_valid ((logSegments_listed loader machine).mem_iff.mp member).1

/-- What the planner gets from its scan. -/
structure ScannedLog (first start : Lsn) (records : List ScannedRecord) (ended : Lsn)
    (scan : WalScanResult) : Prop where
  error : scan.error = .none
  records : scan.records = records
  first : scan.firstLsn = first
  last : scan.lastLsn = if ended.valid ∧ start < ended then ended - 1 else 0

theorem logStart_eq (checkpoint : Option LoadedCheckpoint) :
    (if (if checkpoint.isSome then (0 : Lsn) else firstLsn).valid then
        (if checkpoint.isSome then (0 : Lsn) else firstLsn)
      else logFirst loader machine) = logStart loader machine checkpoint := by
  cases checkpoint with
  | none => rfl
  | some loaded => rfl

/-- A replay is planned from the records of the log, or from a scan that failed. -/
theorem replayFrom_scanned (checkpoint : Option LoadedCheckpoint) :
    ∃ scan, replayFrom formats loader policy machine checkpoint = planReplay checkpoint scan ∧
      (logRead formats loader policy machine checkpoint = none → scan.error ≠ .none) ∧
      ∀ records ended, logRead formats loader policy machine checkpoint = some (records, ended) →
        ScannedLog (logFirst loader machine) (logStart loader machine checkpoint) records ended
          scan := by
  have listed := logSegments_listed loader machine
  unfold replayFrom
  rw [planReplay_scan]
  refine ⟨_, rfl, ?_⟩
  have scanned := run_ensures (@scanSegments_ensures formats.crc32c defaultMaxRecordBytes policy
    machine (logSegments loader machine) { firstLsn := logFirst loader machine }
    (logStart loader machine checkpoint) (fun segment member => (listed.present segment member).2)
    listed.distinct)
  obtain ⟨-, read, -⟩ := scanned
  have program : scanFiles formats.crc32c (4 * 1024 * 1024) policy
      (if checkpoint.isSome then 0 else firstLsn) (machine.filesIn loader.layout.walDir) =
        if logSegments loader machine = [] ∧ ¬ (logStart loader machine checkpoint).valid then
          pure {}
        else scanSegments formats.crc32c defaultMaxRecordBytes policy (logSegments loader machine)
            { firstLsn := logFirst loader machine } (logStart loader machine checkpoint) >>=
          fun outcome => pure (finished (logStart loader machine checkpoint) outcome) := by
    rw [← logStart_eq]
    unfold scanFiles
    refine if_congr Iff.rfl rfl (congrArg _ (funext fun outcome => ?_))
    obtain ⟨result, ended, complete⟩ := outcome
    cases complete
    · rfl
    · rfl
  rw [program]
  split
  · rename_i nothing
    have empty : logRead formats loader policy machine checkpoint =
        some ([], logStart loader machine checkpoint) := by
      rw [logRead, nothing.1]
      rfl
    refine ⟨fun failed => absurd (empty.symm.trans failed) (by simp), fun records ended found => ?_⟩
    obtain ⟨rfl, rfl⟩ := Prod.mk.inj (Option.some.inj (empty.symm.trans found))
    refine ⟨rfl, rfl, ?_, ?_⟩
    · rw [logFirst, nothing.1]
      rfl
    · rw [if_neg fun inside => nothing.2 inside.1]
      rfl
  rw [Program.run_bind]
  generalize (Program.run Machine.perform (scanSegments _ _ _ _ _ _) machine).1 = outcome at read
  obtain ⟨result, ended, complete⟩ := outcome
  rw [Program.run_pure]
  constructor
  · intro failed
    rw [show readLog formats.crc32c defaultMaxRecordBytes policy machine.disk.contents
      (logSegments loader machine) (logStart loader machine checkpoint) = none from failed] at read
    obtain ⟨stopped, error⟩ := read
    simp only at stopped
    subst stopped
    exact error
  · intro records last found
    rw [show readLog formats.crc32c defaultMaxRecordBytes policy machine.disk.contents
      (logSegments loader machine) (logStart loader machine checkpoint) = some (records, last)
      from found] at read
    obtain ⟨done, rfl, all, error, first⟩ := read
    simp only at done all error first
    subst done
    exact ⟨error, all, first, rfl⟩

/-- The first segment of the scan begins too late for the checkpoint. -/
def BeginsLate (checkpoint : Option LoadedCheckpoint) (first : Lsn) : Prop :=
  checkpoint.isSome ∧ first.valid ∧ ((includedLsn checkpoint).toNat + 1 < first.toNat ∨
    (includedLsn checkpoint).toNat = lastLsnValue)

/-- The gap the planner looks for, in numbers. -/
theorem gap_iff (included first : Lsn) (required : Option Lsn)
    (needed : required = if included = 0 then some firstLsn else nextLsn included) :
    (required = none ∨ ∃ lsn, required = some lsn ∧ lsn < first) ↔
      included.toNat + 1 < first.toNat ∨ included.toNat = lastLsnValue := by
  subst needed
  by_cases zero : included = 0
  · subst zero
    have one : firstLsn.toNat = 1 := rfl
    have none : (0 : Lsn).toNat = 0 := rfl
    simp [UInt64.lt_iff_toNat_lt, one, lastLsnValue]
  rw [if_neg zero]
  cases follows : nextLsn included with
  | none => simp [nextLsn_eq_none zero follows]
  | some next =>
    have step := nextLsn_toNat follows
    have bound := next.toNat_lt
    simp only [reduceCtorEq, Option.some.injEq, exists_eq_left', false_or,
      UInt64.lt_iff_toNat_lt, step, lastLsnValue]
    omega

/-- When a plan is made, and which. -/
theorem planReplay_eq_ok_iff {checkpoint : Option LoadedCheckpoint} {scan : WalScanResult}
    {plan : RecoveryPlan} :
    planReplay checkpoint scan = .ok plan ↔
      scan.error = .none ∧ ¬ BeginsLate checkpoint scan.firstLsn ∧
        ¬ (scan.lastLsn.valid ∧ scan.lastLsn < includedLsn checkpoint) ∧
        plan = {
          checkpoint := checkpoint
          replayRecords := scan.records.filter fun record => includedLsn checkpoint < record.lsn
          lastLsn := scan.lastLsn } := by
  have chosen : ∀ {late last : Prop} [Decidable late] [Decidable last] {answer : RecoveryPlan},
      (if scan.error ≠ .none then .error scan.error
        else if late then .error .lsnDiscontinuity
        else if last then .error .lsnDiscontinuity
        else (.ok answer : Except PersistenceError RecoveryPlan)) = .ok plan ↔
          scan.error = .none ∧ ¬ late ∧ ¬ last ∧ plan = answer := by
    intro late last _ _ answer
    split_ifs <;> simp_all [eq_comm]
  unfold planReplay
  rw [chosen]
  refine and_congr_right fun _ => and_congr (not_congr ?_) ?_
  · cases checkpoint with
    | none => simp [BeginsLate]
    | some loaded =>
      have needed := gap_iff loaded.info.anchor.includedLsn scan.firstLsn _ rfl
      simp only [BeginsLate, includedLsn, Option.isSome_some, Bool.true_and, Option.map_some,
        Option.getD_some, true_and, Bool.and_eq_true, decide_eq_true_eq, ← needed]
      refine and_congr_right fun _ => ?_
      generalize (if loaded.info.anchor.includedLsn = 0 then some firstLsn
        else nextLsn loaded.info.anchor.includedLsn) = required
      cases required with
      | none => simp
      | some lsn => simp
  · cases checkpoint with
    | none => rfl
    | some loaded => rfl

theorem Consecutive.inTurn {first last : Lsn} {records : List ScannedRecord}
    (consecutive : Consecutive first records last) : InTurn first.toNat records := by
  induction records generalizing first with
  | nil => trivial
  | cons record rest ih =>
    obtain ⟨same, next, follows, later⟩ := consecutive
    have behind := ih later
    rw [nextLsn_toNat follows] at behind
    exact ⟨by rw [same], behind⟩

/-- The records behind what is included are the last ones, and they begin right behind it. -/
theorem Consecutive.behind {first last included : Lsn} {records : List ScannedRecord}
    (consecutive : Consecutive first records last) (early : first.toNat ≤ included.toNat + 1) :
    records.filter (fun record => included < record.lsn) <:+ records ∧
      InTurn (included.toNat + 1) (records.filter fun record => included < record.lsn) := by
  induction records generalizing first with
  | nil => exact ⟨List.suffix_refl _, trivial⟩
  | cons record rest ih =>
    obtain ⟨same, next, follows, later⟩ := consecutive
    have step := nextLsn_toNat follows
    by_cases above : included < first
    · have start : first.toNat = included.toNat + 1 := by
        have := UInt64.lt_iff_toNat_lt.mp above
        omega
      have all : (record :: rest).filter (fun record => included < record.lsn) = record :: rest := by
        refine List.filter_eq_self.mpr fun other member => decide_eq_true ?_
        rcases List.mem_cons.mp member with rfl | behind
        · rw [same]
          exact above
        · have from_next := ((later.mem_iff other.lsn).mp ⟨other, behind, rfl⟩).1
          rw [UInt64.lt_iff_toNat_lt]
          omega
      rw [all, ← start]
      exact ⟨List.suffix_refl _, Consecutive.inTurn ⟨same, next, follows, later⟩⟩
    · have dropped : (record :: rest).filter (fun record => included < record.lsn) =
          rest.filter fun record => included < record.lsn := by
        rw [List.filter_cons_of_neg]
        rw [same]
        exact fun holds => above (of_decide_eq_true holds)
      rw [UInt64.lt_iff_toNat_lt] at above
      obtain ⟨suffix, inTurn⟩ := ih later (by omega)
      rw [dropped]
      exact ⟨suffix.trans (List.suffix_cons _ _), inTurn⟩

/-- The last LSN a scan reports is that of the last record. -/
theorem scanned_last {first start ended : Lsn} {records : List ScannedRecord}
    {scan : WalScanResult} (scanned : ScannedLog first start records ended scan)
    (consecutive : Consecutive start records ended) {record : ScannedRecord}
    (last : record ∈ records.getLast?) : record.lsn = scan.lastLsn := by
  have follows := nextLsn_toNat (consecutive.last last)
  have length := consecutive.length
  have some : 0 < records.length := List.length_pos_of_mem (List.mem_of_getLast? last)
  have above : start < ended := by
    rw [UInt64.lt_iff_toNat_lt]
    omega
  have one : (1 : Lsn).toNat = 1 := rfl
  rw [scanned.last, if_pos ⟨valid_of_le (by omega), above⟩]
  refine UInt64.toNat_inj.mp ?_
  rw [UInt64.toNat_sub_of_le _ _ (UInt64.le_iff_toNat_le.mpr (by omega))]
  omega

theorem logStart_head {lead : SegmentEntry}
    (head : lead ∈ (logSegments loader machine).head?) : logFirst loader machine = lead.firstLsn := by
  rw [logFirst, head]
  rfl

variable {checkpoint : Option LoadedCheckpoint} {records : List ScannedRecord} {ended : Lsn}
  {scan : WalScanResult} {plan : RecoveryPlan}

/-- What the planner replays is complete, wherever the log is in order. -/
theorem completeReplay_of_planned
    (read : logRead formats loader policy machine checkpoint = some (records, ended))
    (scanned : ScannedLog (logFirst loader machine) (logStart loader machine checkpoint) records
      ended scan) (planned : planReplay checkpoint scan = .ok plan) :
    plan.checkpoint = checkpoint ∧ CompleteReplay records plan := by
  obtain ⟨-, onTime, -, rfl⟩ := planReplay_eq_ok_iff.mp planned
  have consecutive := readLog_consecutive read
  obtain ⟨suffix, inTurn⟩ : records.filter (fun record => includedLsn checkpoint < record.lsn) <:+
        records ∧ InTurn ((includedLsn checkpoint).toNat + 1)
          (records.filter fun record => includedLsn checkpoint < record.lsn) := by
    by_cases empty : logSegments loader machine = []
    · have none : records = [] := by
        rw [logRead, empty] at read
        exact (Prod.mk.inj (Option.some.inj read)).1.symm
      rw [none]
      exact ⟨List.suffix_refl _, trivial⟩
    refine consecutive.behind ?_
    cases checkpoint with
    | none => exact Nat.le_refl _
    | some loaded =>
      obtain ⟨lead, rest, shape⟩ := List.exists_cons_of_ne_nil empty
      have head : lead ∈ (logSegments loader machine).head? := by
        rw [shape]
        rfl
      have valid := logSegments_valid (show lead ∈ logSegments loader machine by simp [shape])
      by_contra late
      rw [not_le] at late
      refine onTime ⟨rfl, ?_, .inl ?_⟩
      · rw [scanned.first, logStart_head head]
        exact valid
      · rw [scanned.first]
        exact late
  refine ⟨rfl, fun record => ?_, ?_, fun record last => ?_⟩
  · simp only [scanned.records, List.mem_filter, decide_eq_true_eq]
  · simp only [scanned.records]
    exact inTurn
  · simp only [scanned.records] at last
    refine scanned_last scanned consecutive ?_
    obtain ⟨front, shape⟩ := suffix
    rw [← shape, List.getLast?_append, last]
    rfl

theorem logAnswers_iff
    (read : logRead formats loader policy machine checkpoint = some (records, ended)) :
    LogAnswers formats loader policy machine checkpoint ↔
      ∀ lead ∈ (logSegments loader machine).head?,
        if checkpoint.isSome then
          records ≠ [] ∨ includedLsn checkpoint < lead.firstLsn ∨
            (includedLsn checkpoint).toNat = lastLsnValue
        else lead.firstLsn = firstLsn := by
  constructor
  · exact fun answers => answers records ended read
  · intro holds others last again
    obtain ⟨rfl, rfl⟩ := Prod.mk.inj (Option.some.inj (read.symm.trans again))
    exact holds

theorem missesRecords_iff {segments : List SegmentEntry} {included : Lsn} :
    MissesRecords segments included ended ↔ ∃ lead ∈ segments.head?,
      included.toNat + 1 < lead.firstLsn.toNat ∨ ended.toNat ≤ included.toNat := by
  cases segments with
  | nil => simp [MissesRecords]
  | cons lead rest => simp [MissesRecords]

/-- A plan is made where records are missing only if the log does not answer for it. -/
theorem misses_iff_unanswered
    (read : logRead formats loader policy machine checkpoint = some (records, ended))
    (scanned : ScannedLog (logFirst loader machine) (logStart loader machine checkpoint) records
      ended scan) (planned : planReplay checkpoint scan = .ok plan) :
    ¬ MissesRecords (logSegments loader machine) (includedLsn checkpoint) ended ↔
      LogAnswers formats loader policy machine checkpoint := by
  obtain ⟨-, onTime, upToDate, -⟩ := planReplay_eq_ok_iff.mp planned
  have consecutive := readLog_consecutive read
  have length := consecutive.length
  rw [logAnswers_iff read, missesRecords_iff]
  simp only [not_exists, not_and]
  refine forall₂_congr fun lead head => ?_
  have positive := (logSegments_valid (List.mem_of_mem_head? head)).positive
  cases checkpoint with
  | none =>
    have one : (logStart loader machine none).toNat = 1 := rfl
    have none : (includedLsn none).toNat = 0 := rfl
    have first : firstLsn.toNat = 1 := rfl
    simp only [Option.isSome_none, Bool.false_eq_true, if_false, ← UInt64.toNat_inj]
    omega
  | some loaded =>
    have start : logStart loader machine (some loaded) = lead.firstLsn := logStart_head head
    have late : ¬ ((includedLsn (some loaded)).toNat + 1 < lead.firstLsn.toNat ∨
        (includedLsn (some loaded)).toNat = lastLsnValue) := fun late =>
      onTime ⟨rfl, scanned.first ▸ logStart_head head ▸
        logSegments_valid (List.mem_of_mem_head? head), by
          rw [scanned.first, logStart_head head]
          exact late⟩
    rw [start] at length
    simp only [Option.isSome_some, if_true, UInt64.lt_iff_toNat_lt]
    by_cases empty : records = []
    · rw [empty, List.length_nil] at length
      simp only [empty, ne_eq, not_true_eq_false, false_or]
      omega
    · have several := List.length_pos_of_ne_nil empty
      obtain ⟨record, last⟩ := Option.ne_none_iff_exists'.mp
        (fun none => empty (List.getLast?_eq_none_iff.mp none))
      have reported := scanned_last scanned consecutive last
      have follows := nextLsn_toNat (consecutive.last last)
      rw [← reported, UInt64.lt_iff_toNat_lt] at upToDate
      have valid : record.lsn.valid := valid_of_le (by omega)
      have above : ¬ record.lsn.toNat < (includedLsn (some loaded)).toNat :=
        fun below => upToDate ⟨valid, below⟩
      simp only [empty, ne_eq, not_false_eq_true, true_or, iff_true]
      omega

/-- Where no plan is made from a log in order, the log answers for it. -/
theorem answers_of_refused
    (read : logRead formats loader policy machine checkpoint = some (records, ended))
    (scanned : ScannedLog (logFirst loader machine) (logStart loader machine checkpoint) records
      ended scan) (refused : ∀ plan, planReplay checkpoint scan ≠ .ok plan) :
    LogAnswers formats loader policy machine checkpoint := by
  rw [logAnswers_iff read]
  intro lead head
  have refused : ¬ (¬ BeginsLate checkpoint scan.firstLsn ∧
      ¬ (scan.lastLsn.valid ∧ scan.lastLsn < includedLsn checkpoint)) := fun both =>
    refused _ (planReplay_eq_ok_iff.mpr ⟨scanned.error, both.1, both.2, rfl⟩)
  cases checkpoint with
  | none =>
    refine absurd ⟨fun late => ?_, fun before => ?_⟩ refused
    · exact absurd late.1 (by simp)
    · rw [UInt64.lt_iff_toNat_lt] at before
      exact absurd before.2 (Nat.not_lt_zero _)
  | some loaded =>
    simp only [Option.isSome_some, if_true]
    by_contra unanswered
    rw [not_or, not_or, not_not] at unanswered
    obtain ⟨empty, before, more⟩ := unanswered
    refine refused ⟨fun late => ?_, fun early => ?_⟩
    · rw [scanned.first, logStart_head head] at late
      rw [UInt64.lt_iff_toNat_lt] at before
      have := late.2.2.resolve_right more
      omega
    · have consecutive := readLog_consecutive read
      rw [empty] at consecutive
      have ends : logStart loader machine (some loaded) = ended := consecutive
      rw [scanned.last, ends, if_neg fun inside => absurd inside.2 (UInt64.lt_irrefl _)] at early
      exact early.1 rfl

/-- The plans are complete exactly when the log answers for the checkpoint that is chosen. -/
theorem plans_complete_iff :
    PlansComplete formats loader policy machine ↔
      ∀ checkpoint, baseOf formats loader machine = .ok checkpoint →
        LogAnswers formats loader policy machine checkpoint := by
  constructor
  · intro complete checkpoint base
    obtain ⟨scan, replay, -, scanned⟩ := @replayFrom_scanned formats loader policy machine checkpoint
    have built : recovery formats loader policy machine = planReplay checkpoint scan := by
      rw [recovery_eq, base, ← replay]
      rfl
    intro records ended read
    have scanned := scanned records ended read
    refine (?_ : LogAnswers formats loader policy machine checkpoint) records ended read
    cases planned : planReplay checkpoint scan with
    | error error =>
      exact answers_of_refused read scanned fun plan same => by
        rw [planned] at same
        cases same
    | ok plan =>
      obtain ⟨others, last, again, -, present⟩ := complete plan (built.trans planned)
      rw [(completeReplay_of_planned read scanned planned).1] at again present
      obtain ⟨rfl, rfl⟩ := Prod.mk.inj (Option.some.inj (read.symm.trans again))
      exact (misses_iff_unanswered read scanned planned).mp present
  · intro answers plan built
    rw [recovery_eq] at built
    cases base : baseOf formats loader machine with
    | error error =>
      rw [base] at built
      cases built
    | ok checkpoint =>
      obtain ⟨scan, replay, failed, scanned⟩ :=
        @replayFrom_scanned formats loader policy machine checkpoint
      have planned : planReplay checkpoint scan = .ok plan := by
        rw [← replay, ← built, base]
        rfl
      obtain ⟨⟨records, ended⟩, read⟩ := Option.ne_none_iff_exists'.mp
        (fun none => failed none (planReplay_eq_ok_iff.mp planned).1)
      have scanned := scanned records ended read
      obtain ⟨same, complete⟩ := completeReplay_of_planned read scanned planned
      refine ⟨records, ended, by rw [same]; exact read, complete, ?_⟩
      rw [same]
      exact (misses_iff_unanswered read scanned planned).mpr (answers checkpoint base)

/-- The checkpoint includes ten records, the log ends before the fifth, and a plan is made. -/
theorem lost_log_planned :
    ¬ ∀ (formats : Formats) (loader : CheckpointLoader) (policy : TailPolicy) (machine : Machine),
      PlansComplete formats loader policy machine := by
  intro claimed
  obtain ⟨plan, loaded, planned, held, included⟩ := lost_plan
  obtain ⟨records, ended, read, -, complete⟩ :=
    claimed plainFormats lostLoader .trimActiveTail lostMachine plan planned
  refine complete ?_
  have begins : logFirst lostLoader lostMachine = 5 := by decide +kernel
  have unread : readLog castagnoli defaultMaxRecordBytes .trimActiveTail
      lostMachine.disk.contents (logSegments lostLoader lostMachine) 5 = some ([], 5) := by
    decide +kernel
  have present : logSegments lostLoader lostMachine ≠ [] := by decide +kernel
  rw [logRead, logStart, held, if_pos (show (some loaded).isSome from rfl), begins] at read
  obtain ⟨-, rfl⟩ := Prod.mk.inj (Option.some.inj (unread.symm.trans read))
  rw [held]
  refine .inr ⟨present, ?_⟩
  simp only [includedLsn, Option.map_some, Option.getD_some, included]
  decide

end Plan

end GeoWorld.Persistence
