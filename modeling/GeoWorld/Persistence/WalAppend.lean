import Mathlib
import GeoWorld.Persistence.WalScan
import GeoWorld.Persistence.WalStart

/-!
The writer thread of the log: records wait in a queue, are taken from it in batches, get
their LSNs one after the other and go to the active segment, which is rotated when it is
full or old. An error ends in the read-only fault state.
-/

namespace GeoWorld.Persistence

open WorldModel Library

inductive Durability where
  | durable
  | relaxed
  deriving DecidableEq

structure WalRecord where
  kind : WalRecordKind := .externalCommand
  targetTick : UInt64 := 0
  payload : ByteString
  durability : Durability := .durable
  deriving DecidableEq

inductive AdmissionStatus where
  | none
  | durableAccepted
  | relaxedAccepted
  deriving DecidableEq

/-- What a ticket is fulfilled with. -/
structure AppendOutcome where
  error : PersistenceError := .none
  lsn : Lsn := 0
  status : AdmissionStatus := .none
  deriving DecidableEq

/-- A record that is taken from the queue; the clock says whether the active segment is
then too old. -/
structure PendingAppend where
  record : WalRecord
  ageExceeded : Bool

section Segments

variable (config : WalConfig)

def openNewSegment (writer : WalWriter) (first : Lsn) :
    FileProgram (PersistenceError × WalWriter) := do
  let path := config.layout.walDir.file (segmentFileName first ++ activeSegmentSuffix)
  let created ← ask (.createExclusive path)
  if created ≠ .none then
    return (created, writer)
  let header := encodeSegmentHeader first
  let error ← ask (.write path header)
  if error ≠ .none then
    return (error, { writer with activeSegment := none })
  return (.none, { writer with
    activeSegment := some ⟨path, first, header.length⟩
    unsyncedWrites := true })

/-- The order of closing: sync, rename, sync of the directory. -/
def rotateSegment (writer : WalWriter) (active : ActiveSegment) (nextFirst : Lsn) :
    FileProgram (PersistenceError × WalWriter) := do
  let error ← ask (.sync active.path)
  let error ← afterNone error (ask (.renameFile active.path
    (config.layout.walDir.file (segmentFileName active.firstLsn ++ segmentExtension))))
  let error ← afterNone error (ask (.syncDirectory config.layout.walDir))
  if error ≠ .none then
    return (error, writer)
  openNewSegment config { writer with activeSegment := none } nextFirst

def ensureSegmentFor (writer : WalWriter) (lsn : Lsn) (recordBytes : Nat) (ageExceeded : Bool) :
    FileProgram (PersistenceError × WalWriter) :=
  match writer.activeSegment with
  | none => openNewSegment config writer lsn
  | some active =>
    if segmentHeaderBytes < active.bytes ∧
        (config.segmentMaxBytes < active.bytes + recordBytes ∨ ageExceeded) then
      rotateSegment config writer active lsn
    else pure (.none, writer)

end Segments

/-- How writing the records of a batch ended, with the LSNs it gave out. -/
structure BatchWritten where
  error : PersistenceError
  writer : WalWriter
  assigned : List Lsn

structure BatchOutcome where
  writer : WalWriter
  assigned : List Lsn
  outcomes : List AppendOutcome

/-- The writer behind a record at its position. -/
def WalWriter.advanced (writer : WalWriter) (active : ActiveSegment) (written : Nat) :
    WalWriter :=
  let writer := { writer with
    activeSegment := some { active with bytes := active.bytes + written }
    unsyncedWrites := true }
  match nextLsn writer.nextLsnValue with
  | none => { writer with lsnExhausted := true }
  | some next => { writer with nextLsnValue := next }

def rejected (error : PersistenceError) (batch : List PendingAppend) : List AppendOutcome :=
  batch.map fun _ => { error := error }

def accepted (batch : List PendingAppend) (assigned : List Lsn) : List AppendOutcome :=
  batch.zipWith (fun pending lsn => {
    lsn := lsn
    status := if pending.record.durability = .relaxed then .relaxedAccepted
      else .durableAccepted }) assigned

section Batch

variable (crc32c : ByteString → UInt32) (config : WalConfig)

def PendingAppend.encoded (pending : PendingAppend) (lsn : Lsn) : ByteString :=
  encodeRecord crc32c ⟨lsn, pending.record.kind, pending.record.targetTick, pending.record.payload⟩

def writeRecords : List PendingAppend → WalWriter → FileProgram BatchWritten
  | [], writer => pure ⟨.none, writer, []⟩
  | pending :: rest, writer => do
    let lsn := writer.nextLsnValue
    let encoded := pending.encoded crc32c lsn
    let (error, writer) ←
      ensureSegmentFor config writer lsn encoded.length pending.ageExceeded
    match error, writer.activeSegment with
    | .none, some active => do
      let error ← ask (.write active.path encoded)
      if error ≠ .none then
        return ⟨error, writer, [lsn]⟩
      let later ← writeRecords rest (writer.advanced active encoded.length)
      return { later with assigned := lsn :: later.assigned }
    | error, _ => return ⟨error, writer, [lsn]⟩

/-- A batch that needs it is synced before it is answered. -/
def syncBatch (batch : List PendingAppend) (written : BatchWritten) : FileProgram BatchWritten :=
  match written.error, written.writer.activeSegment with
  | .none, some active =>
    if batch.any fun pending => pending.record.durability = .durable then do
      let error ← ask (.sync active.path)
      if error ≠ .none then
        return { written with error := error }
      return { written with writer := { written.writer with unsyncedWrites := false } }
    else pure written
  | _, _ => pure written

def processBatch (writer : WalWriter) (batch : List PendingAppend) : FileProgram BatchOutcome := do
  if batch = [] then
    return ⟨writer, [], []⟩
  if writer.fault then
    return ⟨writer, [], rejected .faultReadOnly batch⟩
  let written ← writeRecords crc32c config batch writer
  let written ← syncBatch batch written
  if written.error ≠ .none then
    return ⟨{ written.writer with fault := true, activeSegment := none }, written.assigned,
      rejected written.error batch⟩
  let durable := batch.any fun pending => pending.record.durability = .durable
  let lastDurable := if durable then written.assigned.getLastD 0 else written.writer.lastDurable
  return ⟨{ written.writer with lastDurable := lastDurable }, written.assigned,
    accepted batch written.assigned⟩

end Batch

section Queue

/-- The writer with the records that wait for it. -/
structure LogQueue where
  writer : WalWriter
  waiting : List WalRecord := []

def payloadBytes (records : List WalRecord) : Nat :=
  (records.map fun record => record.payload.length).sum

def LogQueue.append (config : WalConfig) (log : LogQueue) (record : WalRecord) :
    PersistenceError × LogQueue :=
  if config.maxRecordBytes < record.payload.length then (.recordInvalid, log)
  else if record.durability = .relaxed ∧ ¬ config.allowRelaxed then (.relaxedNotAllowed, log)
  else if log.writer.lsnExhausted then (.lsnOverflow, log)
  else if ¬ log.writer.started then (.shuttingDown, log)
  else if log.writer.fault then (.faultReadOnly, log)
  else if config.queueMaxRecords ≤ log.waiting.length ∨
      config.queueMaxBytes < payloadBytes log.waiting + record.payload.length then
    (.queueFull, log)
  else (.none, { log with waiting := log.waiting ++ [record] })

/-- A batch within the limits of a group commit; a single record always is. -/
def GroupCommit (config : WalConfig) (batch : List WalRecord) : Prop :=
  batch.length ≤ config.groupCommitMaxRecords ∧
    (batch.length = 1 ∨ payloadBytes batch ≤ config.groupCommitMaxBytes)

/-- What clients and the writer thread do, with the LSNs that are given out. The thread
takes as many records as it finds in time; an error drops the queue. -/
inductive Appending (crc32c : ByteString → UInt32) (config : WalConfig) :
    LogQueue → Machine → List Lsn → LogQueue → Machine → Prop where
  | nil (log : LogQueue) (machine : Machine) : Appending crc32c config log machine [] log machine
  | append {log last : LogQueue} {machine final : Machine} {assigned : List Lsn}
      (record : WalRecord)
      (later : Appending crc32c config (log.append config record).2 machine assigned last final) :
      Appending crc32c config log machine assigned last final
  | batch {writer : WalWriter} {waiting : List WalRecord} {last : LogQueue}
      {machine after final : Machine} {assigned : List Lsn} {outcome : BatchOutcome}
      (taken : List PendingAppend)
      (some : taken ≠ [])
      (limited : GroupCommit config (taken.map PendingAppend.record))
      (written : Program.Reaches Machine.Allowed (processBatch crc32c config writer taken) machine
        (.pure outcome) after)
      (later : Appending crc32c config
        ⟨outcome.writer, if outcome.writer.fault then [] else waiting⟩ after assigned last final) :
      Appending crc32c config ⟨writer, taken.map PendingAppend.record ++ waiting⟩ machine
        (outcome.assigned ++ assigned) last final

end Queue

section Positions

variable {crc32c : ByteString → UInt32} {config : WalConfig}
  {σ : Type} {environment : Program.Environment FileOp FileOp.Answer σ}

/-- Two writers that go on at the same LSN. -/
structure WalWriter.SamePosition (writer other : WalWriter) : Prop where
  next : other.nextLsnValue = writer.nextLsnValue
  fault : other.fault = writer.fault
  exhausted : other.lsnExhausted = writer.lsnExhausted

theorem WalWriter.SamePosition.refl (writer : WalWriter) : writer.SamePosition writer :=
  ⟨rfl, rfl, rfl⟩

theorem openNewSegment_ensures {machine : σ} (writer : WalWriter) (first : Lsn) :
    Program.Ensures environment (fun _ => True)
      (fun opened _ => writer.SamePosition opened.2 ∧
        (opened.1 = .none → opened.2.activeSegment.isSome))
      (openNewSegment config writer first) machine := by
  unfold openNewSegment
  refine Program.ensures_perform_bind.mpr ⟨trivial, fun created after _ => ?_⟩
  by_cases refused : created ≠ .none
  · rw [if_pos refused]
    exact ⟨trivial, .refl writer, fun none => absurd none refused⟩
  rw [if_neg refused]
  refine Program.ensures_perform_bind.mpr ⟨trivial, fun error now _ => ?_⟩
  by_cases failed : error ≠ .none
  · rw [if_pos failed]
    exact ⟨trivial, ⟨rfl, rfl, rfl⟩, fun none => absurd none failed⟩
  · rw [if_neg failed]
    exact ⟨trivial, ⟨rfl, rfl, rfl⟩, fun _ => rfl⟩

theorem ensures_true {α : Type} (program : FileProgram α) (machine : σ) :
    Program.Ensures environment (fun _ => True) (fun _ _ => True) program machine := by
  induction program generalizing machine with
  | pure value => exact ⟨trivial, trivial⟩
  | call operation next ih => exact ⟨trivial, fun answer after _ => ih answer after⟩

theorem rotateSegment_ensures {machine : σ} (writer : WalWriter) (active : ActiveSegment)
    (nextFirst : Lsn) :
    Program.Ensures environment (fun _ => True)
      (fun rotated _ => writer.SamePosition rotated.2 ∧
        (rotated.1 = .none → rotated.2.activeSegment.isSome))
      (rotateSegment config writer active nextFirst) machine := by
  unfold rotateSegment
  refine Program.ensures_perform_bind.mpr ⟨trivial, fun synced after _ => ?_⟩
  refine (ensures_true _ after).bind fun moved now _ _ => ?_
  refine (ensures_true _ now).bind fun error now _ _ => ?_
  by_cases failed : error ≠ .none
  · rw [if_pos failed]
    exact ⟨trivial, .refl writer, fun none => absurd none failed⟩
  rw [if_neg failed]
  refine (openNewSegment_ensures _ nextFirst).mono (fun _ holds => holds)
    fun opened _ _ kept => ?_
  exact ⟨⟨kept.1.next, kept.1.fault, kept.1.exhausted⟩, kept.2⟩

theorem ensureSegmentFor_ensures {machine : σ} (writer : WalWriter) (lsn : Lsn)
    (recordBytes : Nat) (ageExceeded : Bool) :
    Program.Ensures environment (fun _ => True)
      (fun ready _ => writer.SamePosition ready.2 ∧
        (ready.1 = .none → ready.2.activeSegment.isSome))
      (ensureSegmentFor config writer lsn recordBytes ageExceeded) machine := by
  unfold ensureSegmentFor
  split
  · exact openNewSegment_ensures writer lsn
  rename_i active opened
  split
  · exact rotateSegment_ensures writer active lsn
  · exact ⟨trivial, .refl writer, fun _ => Option.isSome_iff_exists.mpr ⟨active, opened⟩⟩

/-- The last LSN there is. -/
def lastLsnValue : Nat := 2 ^ 64 - 1

/-- LSNs in a row from a position on; only the last LSN there is may come again. -/
def InRow (position : Nat) (lsns : List Lsn) : Prop :=
  ∀ index (inside : index < lsns.length),
    (lsns.get ⟨index, inside⟩).toNat = min (position + index) lastLsnValue

theorem InRow.append {position : Nat} {front back : List Lsn} (left : InRow position front)
    (right : InRow (position + front.length) back) : InRow position (front ++ back) := by
  intro index inside
  rw [List.length_append] at inside
  by_cases early : index < front.length
  · simpa [List.getElem_append_left early] using left index early
  · have later := right (index - front.length) (by omega)
    have shift : position + front.length + (index - front.length) = position + index := by omega
    rw [shift] at later
    simpa [List.getElem_append_right (not_lt.mp early)] using later

theorem inRow_single {position : Nat} {lsn : Lsn} (here : lsn.toNat = min position lastLsnValue) :
    InRow position [lsn] := by
  intro index inside
  obtain rfl : index = 0 := by simpa using inside
  simpa using here

/-- The writer goes on at a position. -/
def WalWriter.At (writer : WalWriter) (position : Nat) : Prop :=
  1 ≤ position ∧ writer.nextLsnValue.toNat = min position lastLsnValue

theorem WalWriter.advanced_fault (writer : WalWriter) (active : ActiveSegment) (written : Nat) :
    (writer.advanced active written).fault = writer.fault := by
  unfold advanced
  cases follows : nextLsn writer.nextLsnValue <;> simp [follows]

theorem WalWriter.advanced_next (writer : WalWriter) (active : ActiveSegment) (written : Nat) :
    (writer.advanced active written).nextLsnValue =
      (nextLsn writer.nextLsnValue).getD writer.nextLsnValue := by
  unfold advanced
  cases follows : nextLsn writer.nextLsnValue <;> simp [follows]

theorem WalWriter.At.advanced {writer : WalWriter} {position : Nat} (here : writer.At position)
    (active : ActiveSegment) (written : Nat) :
    (writer.advanced active written).At (position + 1) := by
  obtain ⟨positive, value⟩ := here
  refine ⟨by omega, ?_⟩
  have bound := writer.nextLsnValue.toNat_lt
  rw [WalWriter.advanced_next]
  cases follows : nextLsn writer.nextLsnValue with
  | some next =>
    have step := nextLsn_toNat follows
    have small := next.toNat_lt
    simp only [Option.getD_some, lastLsnValue] at value ⊢
    omega
  | none =>
    unfold nextLsn at follows
    split at follows
    · rename_i ended
      rcases ended with invalid | last
      · have zero : writer.nextLsnValue = 0 := not_not.mp invalid
        rw [zero] at value
        simp only [lastLsnValue, UInt64.toNat_zero] at value
        omega
      · rw [last] at value
        rw [Option.getD_none, last]
        simp only [lastLsnValue] at value ⊢
        change 18446744073709551615 = _ at value
        change 18446744073709551615 = _
        omega
    · cases follows

theorem writeRecords_ensures {batch : List PendingAppend} {writer : WalWriter} {position : Nat}
    {machine : σ} (here : writer.At position) :
    Program.Ensures environment (fun _ => True)
      (fun written _ => InRow position written.assigned ∧
        written.writer.fault = writer.fault ∧ (batch ≠ [] → written.assigned ≠ []) ∧
        (written.error = .none → written.writer.At (position + written.assigned.length)))
      (writeRecords crc32c config batch writer) machine := by
  induction batch generalizing writer position machine with
  | nil =>
    exact ⟨trivial, fun _ inside => absurd inside (by simp), rfl, fun some => absurd rfl some,
      fun _ => by simpa using here⟩
  | cons pending rest ih =>
    unfold writeRecords
    refine (ensureSegmentFor_ensures writer _ _ _).bind fun ready now _ ensured => ?_
    obtain ⟨error, current⟩ := ready
    obtain ⟨kept, segment⟩ := ensured
    have single := inRow_single here.2
    have still : current.At position := ⟨here.1, by rw [kept.next]; exact here.2⟩
    have stops : ∀ {error : PersistenceError} {now : σ}, error ≠ .none →
        Program.Ensures environment (fun _ => True)
          (fun written _ => InRow position written.assigned ∧
            written.writer.fault = writer.fault ∧
            (pending :: rest ≠ [] → written.assigned ≠ []) ∧
            (written.error = .none → written.writer.At (position + written.assigned.length)))
          (pure ⟨error, current, [writer.nextLsnValue]⟩ : FileProgram BatchWritten) now :=
      fun failed => ⟨trivial, single, kept.fault, fun _ => by simp, fun none => absurd none failed⟩
    by_cases failed : error = .none
    swap
    · cases error with
      | none => exact absurd rfl failed
      | _ => exact stops failed
    subst failed
    obtain ⟨active, opened⟩ := Option.isSome_iff_exists.mp (segment rfl)
    simp only at opened
    simp only [opened]
    refine Program.ensures_perform_bind.mpr ⟨trivial, fun error later _ => ?_⟩
    by_cases failed : error ≠ .none
    · rw [if_pos failed]
      exact stops failed
    rw [if_neg failed]
    refine (ih (still.advanced active _)).bind fun written final _ rest => ?_
    obtain ⟨row, fault, -, goesOn⟩ := rest
    refine ⟨trivial, single.append row, ?_, fun _ => by simp, fun none => ?_⟩
    · rw [fault, WalWriter.advanced_fault]
      exact kept.fault
    · simpa [add_comm, add_left_comm, add_assoc] using goesOn none

theorem syncBatch_ensures {batch : List PendingAppend} {written : BatchWritten}
    {machine : σ} :
    Program.Ensures environment (fun _ => True)
      (fun synced _ => synced.assigned = written.assigned ∧
        synced.writer.fault = written.writer.fault ∧
        (synced.error = .none → written.error = .none ∧
          synced.writer.nextLsnValue = written.writer.nextLsnValue))
      (syncBatch batch written) machine := by
  unfold syncBatch
  split
  · rename_i active none opened
    split
    · refine Program.ensures_perform_bind.mpr ⟨trivial, fun error after _ => ?_⟩
      by_cases failed : error ≠ .none
      · rw [if_pos failed]
        exact ⟨trivial, rfl, rfl, fun none => absurd none failed⟩
      · rw [if_neg failed]
        exact ⟨trivial, rfl, rfl, fun _ => ⟨none, rfl⟩⟩
    · exact ⟨trivial, rfl, rfl, fun _ => ⟨none, rfl⟩⟩
  · exact ⟨trivial, rfl, rfl, fun none => ⟨none, rfl⟩⟩

/-- A batch gives out the LSNs behind the position of the writer; a writer that is not at
fault goes on behind them. -/
theorem processBatch_ensures {batch : List PendingAppend} {writer : WalWriter} {position : Nat}
    {machine : σ} (here : writer.fault ∨ writer.At position) :
    Program.Ensures environment (fun _ => True)
      (fun outcome _ => InRow position outcome.assigned ∧
        (writer.fault = false → batch ≠ [] → outcome.assigned ≠ []) ∧
        (outcome.writer.fault ∨ outcome.writer.At (position + outcome.assigned.length)))
      (processBatch crc32c config writer batch) machine := by
  have nothing : InRow position [] := fun _ inside => absurd inside (by simp)
  unfold processBatch
  split
  · rename_i empty
    exact ⟨trivial, nothing, fun _ some => absurd empty some, here⟩
  split
  · rename_i fault
    exact ⟨trivial, nothing, fun healthy => absurd fault (by simp [healthy]), .inl fault⟩
  rename_i healthy
  have here := here.resolve_left healthy
  refine (writeRecords_ensures here).bind fun written now _ wrote => ?_
  obtain ⟨row, fault, given, goesOn⟩ := wrote
  refine syncBatch_ensures.bind fun synced now _ kept => ?_
  obtain ⟨same, still, next⟩ := kept
  split
  · exact ⟨trivial, same ▸ row, fun _ => same ▸ given, .inl rfl⟩
  · rename_i none
    obtain ⟨none, next⟩ := next (not_not.mp none)
    obtain ⟨positive, value⟩ := goesOn none
    refine ⟨trivial, same ▸ row, fun _ => same ▸ given, .inr ⟨?_, ?_⟩⟩
    · rw [same]
      exact positive
    · rw [same]
      exact (congrArg UInt64.toNat next).trans value

/-- Over a whole run the LSNs come in a row. -/
theorem Appending.inRow {log last : LogQueue} {machine final : Machine} {assigned : List Lsn}
    {position : Nat} (run : Appending crc32c config log machine assigned last final)
    (here : log.writer.fault ∨ log.writer.At position) : InRow position assigned := by
  induction run generalizing position with
  | nil => exact fun _ inside => absurd inside (by simp)
  | @append log last machine final assigned record later ih =>
    refine ih ?_
    have same : (log.append config record).2.writer = log.writer := by
      unfold LogQueue.append
      split_ifs <;> rfl
    rw [same]
    exact here
  | batch taken some limited written later ih =>
    obtain ⟨row, -, goesOn⟩ := ((processBatch_ensures here).sound written).2 _ rfl
    exact row.append (ih goesOn)

/-- A writer without an LSN left accepts nothing. -/
theorem Appending.exhausted {log last : LogQueue} {machine final : Machine}
    {assigned : List Lsn} (run : Appending crc32c config log machine assigned last final)
    (exhausted : log.writer.lsnExhausted) (empty : log.waiting = []) : assigned = [] := by
  induction run with
  | nil => rfl
  | @append log last machine final assigned record later ih =>
    have refused : (log.append config record).2 = log := by
      unfold LogQueue.append
      split_ifs <;> rfl
    rw [refused] at ih
    exact ih exhausted empty
  | batch taken some limited written later ih =>
    exact absurd empty (by simp [some])

end Positions

end GeoWorld.Persistence
