import Mathlib
import GeoWorld.Library.Runs
import GeoWorld.Persistence.WalAppend

/-!
The writer thread of the log against the threads that append to it. Appends come at any
moment the mutex is free, and what they check before they take it may be out of date by
then; the thread forms a batch, writes its records one by one, syncs it and answers its
tickets, and an error takes every ticket that is left into the read-only fault state.
-/

namespace GeoWorld.Persistence

open WorldModel Library

/-- A ticket is the place of its record among the admitted ones. -/
abbrev Ticket := Nat

structure TicketedAppend where
  record : WalRecord
  ticket : Ticket

/-- Where the writer thread is. While it forms a batch it holds the mutex, except that it
waits for more when it has emptied the queue. -/
inductive ThreadPhase where
  | waiting
  | forming (batch : List TicketedAppend) (waited : Bool)
  | refusing (batch : List TicketedAppend)
  | writing (written : List (TicketedAppend × Lsn)) (rest : List TicketedAppend)
  | answering (written : List (TicketedAppend × Lsn))
  | failed (error : PersistenceError) (batch : List TicketedAppend)
  | raising
  | draining
  | exited

/-- What the thread has taken from the queue and not answered. -/
def ThreadPhase.held : ThreadPhase → List TicketedAppend
  | .forming batch _ => batch
  | .refusing batch => batch
  | .writing written rest => written.map Prod.fst ++ rest
  | .answering written => written.map Prod.fst
  | .failed _ batch => batch
  | _ => []

def ThreadPhase.mutexFree (phase : ThreadPhase) : Prop :=
  ∀ batch, phase ≠ .forming batch false

/-- A machine and the calls on it that succeeded. -/
structure Storage where
  machine : Machine
  done : List FileOp := []

def FileOp.succeeded : (operation : FileOp) → operation.Answer → Bool
  | .openAppend _, answer => answer.isOk
  | .readFile _, answer => answer.isOk
  | .listFiles _, answer => answer.isOk
  | .listDirectories _, answer => answer.isOk
  | .nextTempCounter, _ => true
  | .createExclusive _, error => error = .none
  | .write _ _, error => error = .none
  | .sync _, error => error = .none
  | .renameFile _ _, error => error = .none
  | .syncDirectory _, error => error = .none
  | .truncateFile _ _, error => error = .none
  | .removeFile _, error => error = .none
  | .createDirectories _, error => error = .none

/-- Any call may succeed or fail; the ones that succeed are kept. -/
def Storage.Allowed : Program.Environment FileOp FileOp.Answer Storage :=
  fun before operation answer after =>
    Machine.Allowed before.machine operation answer after.machine ∧
      after.done = before.done ++ if operation.succeeded answer then [operation] else []

structure LogThread where
  writer : WalWriter
  storage : Storage
  stopping : Bool := false
  /-- Records behind the checks that are made without the mutex. -/
  checked : List WalRecord := []
  admitted : List WalRecord := []
  queue : List TicketedAppend := []
  phase : ThreadPhase := .waiting
  verdicts : List (Ticket × AppendOutcome) := []
  /-- The LSNs of the records that were handed to the disk. -/
  given : List (Ticket × Lsn) := []

section Programs

variable (crc32c : ByteString → UInt32) (config : WalConfig)

def WalRecord.encoded (record : WalRecord) (lsn : Lsn) : ByteString :=
  encodeRecord crc32c ⟨lsn, record.kind, record.targetTick, record.payload⟩

/-- One round of the loop of `process_batch`. -/
def writeRecord (writer : WalWriter) (record : WalRecord) (ageExceeded : Bool) :
    FileProgram (PersistenceError × WalWriter) := do
  let encoded := record.encoded crc32c writer.nextLsnValue
  let (error, writer) ←
    ensureSegmentFor config writer writer.nextLsnValue encoded.length ageExceeded
  match error, writer.activeSegment with
  | .none, some active => do
    let error ← ask (.write active.path encoded)
    if error ≠ .none then
      return (error, writer)
    return (.none, writer.advanced active encoded.length)
  | error, _ => return (error, writer)

/-- A batch that asks for it is synced, and so is what a shutdown finds unsynced. -/
def syncActive (writer : WalWriter) (needed : Bool) : FileProgram PersistenceError :=
  match writer.activeSegment with
  | some active => if needed then ask (.sync active.path) else pure .none
  | none => pure .none

end Programs

def anyDurable (written : List (TicketedAppend × Lsn)) : Bool :=
  written.any fun entry => decide (entry.1.record.durability = .durable)

def acceptedVerdicts (written : List (TicketedAppend × Lsn)) : List (Ticket × AppendOutcome) :=
  written.map fun entry => (entry.1.ticket, {
    lsn := entry.2
    status := if entry.1.record.durability = .relaxed then .relaxedAccepted
      else .durableAccepted })

def rejectedVerdicts (error : PersistenceError) (batch : List TicketedAppend) :
    List (Ticket × AppendOutcome) :=
  batch.map fun pending => (pending.ticket, { error := error })

def batchBytes (batch : List TicketedAppend) : Nat :=
  payloadBytes (batch.map TicketedAppend.record)

inductive LogAction where
  | check (record : WalRecord)
  | enqueue (record : WalRecord)
  | refuse (record : WalRecord)
  | stop
  | begin
  | take
  | close
  | turnAway
  | write
  | sync
  | answer
  | reject
  | raise
  | drain
  | exit

namespace LogThread

/-- The checks of `append` before it takes the mutex. -/
def Passes (config : WalConfig) (log : LogThread) (record : WalRecord) : Prop :=
  record.payload.length ≤ config.maxRecordBytes ∧
    (record.durability = .relaxed → config.allowRelaxed) ∧ log.writer.lsnExhausted = false

/-- The checks of `append` under the mutex. -/
def Admits (config : WalConfig) (log : LogThread) (record : WalRecord) : Prop :=
  log.writer.started ∧ log.stopping = false ∧ log.writer.fault = false ∧
    log.queue.length < config.queueMaxRecords ∧
      batchBytes log.queue + record.payload.length ≤ config.queueMaxBytes

/-- Another record is taken into a batch. -/
def Takes (config : WalConfig) (log : LogThread) (batch : List TicketedAppend) (waited : Bool)
    (pending : TicketedAppend) : Prop :=
  batch = [] ∨ batch.length < config.groupCommitMaxRecords ∧
    batchBytes batch + pending.record.payload.length ≤ config.groupCommitMaxBytes ∧
      (waited ∨ log.stopping = false)

/-- A batch is closed: it is full, the next record is too large for it, the log stops, or
waiting took too long. -/
def Closes (config : WalConfig) (log : LogThread) (batch : List TicketedAppend) (waited : Bool) :
    Prop :=
  batch ≠ [] ∧ (waited ∨ log.stopping ∨ config.groupCommitMaxRecords ≤ batch.length ∨
    ∃ pending ∈ log.queue.head?,
      config.groupCommitMaxBytes < batchBytes batch + pending.record.payload.length)

section Step

variable (crc32c : ByteString → UInt32) (config : WalConfig)

inductive Step : LogThread → LogAction → LogThread → Prop where
  | check {log : LogThread} {record : WalRecord} (passes : log.Passes config record) :
      Step log (.check record) { log with checked := log.checked ++ [record] }
  | enqueue {log : LogThread} {record : WalRecord} {front back : List WalRecord}
      (found : log.checked = front ++ record :: back) (free : log.phase.mutexFree)
      (admits : log.Admits config record) :
      Step log (.enqueue record) { log with
        checked := front ++ back
        admitted := log.admitted ++ [record]
        queue := log.queue ++ [⟨record, log.admitted.length⟩] }
  | refuse {log : LogThread} {record : WalRecord} {front back : List WalRecord}
      (found : log.checked = front ++ record :: back) (free : log.phase.mutexFree)
      (refuses : ¬ log.Admits config record) :
      Step log (.refuse record) { log with checked := front ++ back }
  | stop {log : LogThread} (free : log.phase.mutexFree) :
      Step log .stop { log with
        stopping := true
        writer := { log.writer with started := false } }
  | begin {log : LogThread} (phase : log.phase = .waiting) (some : log.queue ≠ []) :
      Step log .begin { log with phase := .forming [] false }
  | take {log : LogThread} {batch rest : List TicketedAppend} {waited : Bool}
      {pending : TicketedAppend} (phase : log.phase = .forming batch waited)
      (next : log.queue = pending :: rest) (takes : log.Takes config batch waited pending) :
      Step log .take { log with
        queue := rest
        phase := .forming (batch ++ [pending]) rest.isEmpty }
  | close {log : LogThread} {batch : List TicketedAppend} {waited : Bool}
      (phase : log.phase = .forming batch waited) (closes : log.Closes config batch waited) :
      Step log .close { log with
        phase := if log.writer.fault then .refusing batch else .writing [] batch }
  | turnAway {log : LogThread} {batch : List TicketedAppend} (phase : log.phase = .refusing batch) :
      Step log .turnAway { log with
        phase := .waiting
        verdicts := log.verdicts ++ rejectedVerdicts .faultReadOnly batch }
  | write {log : LogThread} {written : List (TicketedAppend × Lsn)} {rest : List TicketedAppend}
      {pending : TicketedAppend} {ageExceeded : Bool} {error : PersistenceError}
      {writer : WalWriter} {storage : Storage}
      (phase : log.phase = .writing written (pending :: rest))
      (reached : Program.Reaches Storage.Allowed
        (writeRecord crc32c config log.writer pending.record ageExceeded) log.storage
        (.pure (error, writer)) storage) :
      Step log .write { log with
        writer := writer
        storage := storage
        given := log.given ++ [(pending.ticket, log.writer.nextLsnValue)]
        phase :=
          if error = .none then .writing (written ++ [(pending, log.writer.nextLsnValue)]) rest
          else .failed error (written.map Prod.fst ++ pending :: rest) }
  | sync {log : LogThread} {written : List (TicketedAppend × Lsn)} {error : PersistenceError}
      {storage : Storage} (phase : log.phase = .writing written [])
      (reached : Program.Reaches Storage.Allowed (syncActive log.writer (anyDurable written))
        log.storage (.pure error) storage) :
      Step log .sync { log with
        storage := storage
        writer :=
          if error = .none ∧ anyDurable written then { log.writer with unsyncedWrites := false }
          else log.writer
        phase := if error = .none then .answering written
          else .failed error (written.map Prod.fst) }
  | answer {log : LogThread} {written : List (TicketedAppend × Lsn)}
      (phase : log.phase = .answering written) :
      Step log .answer { log with
        writer :=
          if anyDurable written then
            { log.writer with lastDurable := (written.map Prod.snd).getLastD 0 }
          else log.writer
        phase := .waiting
        verdicts := log.verdicts ++ acceptedVerdicts written }
  | reject {log : LogThread} {error : PersistenceError} {batch : List TicketedAppend}
      (phase : log.phase = .failed error batch) :
      Step log .reject { log with
        phase := .raising
        verdicts := log.verdicts ++ rejectedVerdicts error batch }
  | raise {log : LogThread} (phase : log.phase = .raising) :
      Step log .raise { log with
        phase := .draining
        writer := { log.writer with fault := true } }
  | drain {log : LogThread} (phase : log.phase = .draining) :
      Step log .drain { log with
        phase := .waiting
        queue := []
        writer := { log.writer with activeSegment := none }
        verdicts := log.verdicts ++ rejectedVerdicts .faultReadOnly log.queue }
  | exit {log : LogThread} {error : PersistenceError} {storage : Storage}
      (phase : log.phase = .waiting) (empty : log.queue = []) (stopping : log.stopping)
      (reached : Program.Reaches Storage.Allowed
        (syncActive log.writer (log.writer.unsyncedWrites && !log.writer.fault)) log.storage
        (.pure error) storage) :
      Step log .exit { log with
        phase := .exited
        storage := storage
        writer := { log.writer with activeSegment := none } }

end Step

/-- A writer that has just been started. -/
def started (writer : WalWriter) (machine : Machine) : LogThread where
  writer := writer
  storage := { machine := machine }

end LogThread

section Calls

variable {crc32c : ByteString → UInt32} {config : WalConfig}

theorem allowed_done {before after : Storage} {operation : FileOp} {answer : operation.Answer}
    (allowed : Storage.Allowed before operation answer after) : before.done <+: after.done := by
  rw [allowed.2]
  exact List.prefix_append _ _

/-- What has been done stays done. -/
theorem done_grows {α : Type} (program : FileProgram α) {first storage : Storage}
    (grown : first.done <+: storage.done) :
    Program.Ensures Storage.Allowed (fun now => first.done <+: now.done) (fun _ _ => True) program
      storage := by
  induction program generalizing storage with
  | pure value => exact ⟨grown, trivial⟩
  | call operation next ih =>
    exact ⟨grown, fun answer after allowed => ih answer (grown.trans (allowed_done allowed))⟩

theorem reaches_done {α : Type} {program : FileProgram α} {storage after : Storage}
    {value : α} (reached : Program.Reaches Storage.Allowed program storage (.pure value) after) :
    storage.done <+: after.done :=
  ((done_grows program (List.prefix_refl _)).sound reached).1

/-- The calls behind those that were done before. -/
def DoneSince (before after : Storage) (operation : FileOp) : Prop :=
  ∃ front back, after.done = before.done ++ (front ++ operation :: back)

theorem DoneSince.later {before after last : Storage} {operation : FileOp}
    (since : DoneSince before after operation) (grown : after.done <+: last.done) :
    DoneSince before last operation := by
  obtain ⟨front, back, done⟩ := since
  obtain ⟨more, later⟩ := grown
  exact ⟨front, back ++ more, by rw [← later, done]; simp⟩

theorem DoneSince.earlier {first before after : Storage} {operation : FileOp}
    (since : DoneSince before after operation) (grown : first.done <+: before.done) :
    DoneSince first after operation := by
  obtain ⟨front, back, done⟩ := since
  obtain ⟨more, later⟩ := grown
  exact ⟨more ++ front, back, by rw [done, ← later]; simp⟩

theorem doneSince_of_allowed {before after : Storage} {operation : FileOp}
    {answer : operation.Answer} (allowed : Storage.Allowed before operation answer after)
    (succeeded : operation.succeeded answer = true) : DoneSince before after operation :=
  ⟨[], [], by rw [allowed.2, if_pos succeeded]; rfl⟩

/-- A rotation that succeeds has synced the segment it closes. -/
theorem rotateSegment_synced {storage : Storage} (writer : WalWriter) (active : ActiveSegment)
    (nextFirst : Lsn) :
    Program.Ensures Storage.Allowed (fun _ => True)
      (fun rotated after => rotated.1 = .none → DoneSince storage after (.sync active.path))
      (rotateSegment config writer active nextFirst) storage := by
  unfold rotateSegment
  refine Program.ensures_perform_bind.mpr ⟨trivial, fun synced after allowed => ?_⟩
  by_cases failed : synced = .none
  swap
  · simp only [afterNone, if_neg failed, Program.pure_bind]
    rw [if_pos failed]
    exact ⟨trivial, fun none => absurd none failed⟩
  have since : DoneSince storage after (.sync active.path) :=
    doneSince_of_allowed allowed (by simpa [FileOp.succeeded] using failed)
  refine ((done_grows _ (List.prefix_refl after.done)).mono (fun _ _ => trivial)
    fun rotated now grown _ _ => since.later grown)

/-- The segment for a record is the one before, or that one was synced. -/
theorem ensureSegmentFor_synced {storage : Storage} (writer : WalWriter) (lsn : Lsn)
    (recordBytes : Nat) (ageExceeded : Bool) :
    Program.Ensures Storage.Allowed (fun _ => True)
      (fun ready after => ready.1 = .none → ∀ active, writer.activeSegment = some active →
        ready.2.activeSegment = some active ∨ DoneSince storage after (.sync active.path))
      (ensureSegmentFor config writer lsn recordBytes ageExceeded) storage := by
  unfold ensureSegmentFor
  split
  · rename_i none
    refine (ensures_true _ storage).mono (fun _ _ => trivial) fun ready after _ _ _ active opened => ?_
    rw [none] at opened
    cases opened
  rename_i current opened
  split
  · refine (rotateSegment_synced writer current lsn).mono (fun _ _ => trivial)
      fun ready after _ synced succeeded active same => ?_
    obtain rfl := Option.some.inj (opened.symm.trans same)
    exact .inr (synced succeeded)
  · exact ⟨trivial, fun _ active same => .inl same⟩

/-- What one round of the loop does: the record is written to the active segment, and the
segment that was active before is the same one or has been synced. -/
structure RecordWritten (crc32c : ByteString → UInt32) (before : WalWriter) (record : WalRecord)
    (storage : Storage) (writer : WalWriter) (after : Storage) : Prop where
  advanced : ∃ ready : WalWriter, ∃ active length, before.SamePosition ready ∧
    writer = ready.advanced active length
  written : ∃ active, writer.activeSegment = some active ∧
    DoneSince storage after (.write active.path (record.encoded crc32c before.nextLsnValue))
  closed : ∀ active, before.activeSegment = some active →
    (∃ current, writer.activeSegment = some current ∧ current.path = active.path) ∨
      DoneSince storage after (.sync active.path)

theorem WalWriter.advanced_active (writer : WalWriter) (active : ActiveSegment) (written : Nat) :
    (writer.advanced active written).activeSegment =
      some { active with bytes := active.bytes + written } := by
  unfold advanced
  cases follows : nextLsn writer.nextLsnValue <;> simp [follows]

theorem writeRecord_ensures (writer : WalWriter) (record : WalRecord) (ageExceeded : Bool)
    (storage : Storage) :
    Program.Ensures Storage.Allowed (fun _ => True)
      (fun outcome after =>
        (outcome.1 = .none → RecordWritten crc32c writer record storage outcome.2 after) ∧
          (outcome.1 ≠ .none → writer.SamePosition outcome.2))
      (writeRecord crc32c config writer record ageExceeded) storage := by
  unfold writeRecord
  have segments := (ensureSegmentFor_ensures writer writer.nextLsnValue
    (record.encoded crc32c writer.nextLsnValue).length ageExceeded).and
      (@ensureSegmentFor_synced config storage writer writer.nextLsnValue
        (record.encoded crc32c writer.nextLsnValue).length ageExceeded)
  have grows := done_grows (ensureSegmentFor config writer writer.nextLsnValue
    (record.encoded crc32c writer.nextLsnValue).length ageExceeded) (List.prefix_refl storage.done)
  refine (segments.and (grows.mono (fun _ _ => trivial) fun _ now grown _ => grown)).bind
    fun ready now _ ensured => ?_
  obtain ⟨error, current⟩ := ready
  obtain ⟨⟨⟨kept, segment⟩, synced⟩, grown⟩ := ensured
  simp only at kept segment synced grown
  have stops : ∀ {error : PersistenceError} {now : Storage}, error ≠ .none →
      Program.Ensures Storage.Allowed (fun _ => True)
        (fun outcome after =>
          (outcome.1 = .none → RecordWritten crc32c writer record storage outcome.2 after) ∧
            (outcome.1 ≠ .none → writer.SamePosition outcome.2))
        (pure (error, current) : FileProgram (PersistenceError × WalWriter)) now :=
    fun failed => ⟨trivial, fun none => absurd none failed, fun _ => kept⟩
  by_cases failed : error = .none
  swap
  · cases error with
    | none => exact absurd rfl failed
    | _ => exact stops failed
  subst failed
  obtain ⟨active, opened⟩ := Option.isSome_iff_exists.mp (segment rfl)
  simp only [opened]
  refine Program.ensures_perform_bind.mpr ⟨trivial, fun error after allowed => ?_⟩
  by_cases failed : error ≠ .none
  · rw [if_pos failed]
    exact stops failed
  rw [if_neg failed]
  have put : DoneSince now after (.write active.path
      (record.encoded crc32c writer.nextLsnValue)) :=
    doneSince_of_allowed allowed (by simpa [FileOp.succeeded] using failed)
  refine ⟨trivial, fun _ => ⟨⟨current, active, _, kept, rfl⟩, ?_, fun before same => ?_⟩,
    fun some => absurd rfl some⟩
  · exact ⟨_, WalWriter.advanced_active _ _ _, put.earlier grown⟩
  · rcases synced rfl before same with still | closed
    · obtain rfl := Option.some.inj (opened.symm.trans still)
      exact .inl ⟨_, WalWriter.advanced_active _ _ _, rfl⟩
    · exact .inr (closed.later (allowed_done allowed))

theorem syncActive_ensures (writer : WalWriter) (needed : Bool) (storage : Storage) :
    Program.Ensures Storage.Allowed (fun _ => True)
      (fun error after => error = .none → needed → ∀ active,
        writer.activeSegment = some active → DoneSince storage after (.sync active.path))
      (syncActive writer needed) storage := by
  unfold syncActive
  split
  · rename_i active opened
    split
    · refine ⟨trivial, fun error after allowed => ⟨trivial, fun none _ other same => ?_⟩⟩
      obtain rfl := Option.some.inj (opened.symm.trans same)
      exact doneSince_of_allowed allowed (by simpa [FileOp.succeeded] using none)
    · rename_i unneeded
      exact ⟨trivial, fun _ needed => absurd needed unneeded⟩
  · rename_i none
    exact ⟨trivial, fun _ _ active same => absurd (none.symm.trans same) (by simp)⟩

end Calls

/-- A disk that does what it is asked. -/
def Storage.perform (operation : FileOp) (storage : Storage) : operation.Answer × Storage :=
  let (answer, machine) := Machine.perform operation storage.machine
  (answer, {
    machine := machine
    done := storage.done ++ if operation.succeeded answer then [operation] else [] })

theorem storage_run {α : Type} (program : FileProgram α) (storage : Storage) :
    Program.Reaches Storage.Allowed program storage
      (.pure (program.run Storage.perform storage).1) (program.run Storage.perform storage).2 :=
  Program.run_reaches (fun _ _ => ⟨.inl (.inl rfl), rfl⟩) program storage

namespace LogThread

section Serving

variable (crc32c : ByteString → UInt32) (config : WalConfig)

instance (log : LogThread) (record : WalRecord) : Decidable (log.Passes config record) :=
  inferInstanceAs (Decidable (_ ∧ _))

instance (log : LogThread) : Decidable (log.Admits config record) :=
  inferInstanceAs (Decidable (_ ∧ _))

instance (log : LogThread) (batch : List TicketedAppend) (waited : Bool)
    (pending : TicketedAppend) : Decidable (log.Takes config batch waited pending) :=
  inferInstanceAs (Decidable (_ ∨ _))

/-- The steps of the thread on a disk that does what it is asked. -/
def serve (log : LogThread) : LogAction → Option LogThread
  | .check record =>
    if log.Passes config record then some { log with checked := log.checked ++ [record] } else none
  | .enqueue record =>
    match log.checked, log.phase with
    | first :: later, .waiting =>
      if first = record ∧ log.Admits config record then
        some { log with
          checked := later
          admitted := log.admitted ++ [record]
          queue := log.queue ++ [⟨record, log.admitted.length⟩] }
      else none
    | _, _ => none
  | .stop =>
    match log.phase with
    | .waiting => some { log with
        stopping := true
        writer := { log.writer with started := false } }
    | _ => none
  | .begin =>
    match log.phase, log.queue with
    | .waiting, _ :: _ => some { log with phase := .forming [] false }
    | _, _ => none
  | .take =>
    match log.phase, log.queue with
    | .forming batch waited, pending :: rest =>
      if log.Takes config batch waited pending then
        some { log with
          queue := rest
          phase := .forming (batch ++ [pending]) rest.isEmpty }
      else none
    | _, _ => none
  | .close =>
    match log.phase with
    | .forming (first :: more) true => some { log with
        phase := if log.writer.fault then .refusing (first :: more)
          else .writing [] (first :: more) }
    | _ => none
  | .write =>
    match log.phase with
    | .writing written (pending :: rest) =>
      let ((error, writer), storage) :=
        (writeRecord crc32c config log.writer pending.record false).run Storage.perform log.storage
      some { log with
        writer := writer
        storage := storage
        given := log.given ++ [(pending.ticket, log.writer.nextLsnValue)]
        phase :=
          if error = .none then .writing (written ++ [(pending, log.writer.nextLsnValue)]) rest
          else .failed error (written.map Prod.fst ++ pending :: rest) }
    | _ => none
  | .sync =>
    match log.phase with
    | .writing written [] =>
      let (error, storage) :=
        (syncActive log.writer (anyDurable written)).run Storage.perform log.storage
      some { log with
        storage := storage
        writer :=
          if error = .none ∧ anyDurable written then { log.writer with unsyncedWrites := false }
          else log.writer
        phase := if error = .none then .answering written
          else .failed error (written.map Prod.fst) }
    | _ => none
  | .answer =>
    match log.phase with
    | .answering written => some { log with
        writer :=
          if anyDurable written then
            { log.writer with lastDurable := (written.map Prod.snd).getLastD 0 }
          else log.writer
        phase := .waiting
        verdicts := log.verdicts ++ acceptedVerdicts written }
    | _ => none
  | .exit =>
    match log.phase, log.queue with
    | .waiting, [] =>
      if log.stopping then
        some { log with
          phase := .exited
          storage := ((syncActive log.writer
            (log.writer.unsyncedWrites && !log.writer.fault)).run Storage.perform log.storage).2
          writer := { log.writer with activeSegment := none } }
      else none
    | _, _ => none
  | _ => none

end Serving

theorem waiting_free {log : LogThread} (phase : log.phase = .waiting) : log.phase.mutexFree := by
  intro batch forming
  cases phase.symm.trans forming

theorem serve_step {crc32c : ByteString → UInt32} {config : WalConfig} {log after : LogThread}
    {action : LogAction} (served : log.serve crc32c config action = some after) :
    Step crc32c config log action after := by
  cases action with
  | check record =>
    simp only [serve] at served
    split at served
    · rename_i passes
      cases served
      exact .check passes
    · cases served
  | enqueue record =>
    simp only [serve] at served
    split at served
    · rename_i first later checked phase
      split at served
      · rename_i allowed
        obtain ⟨rfl, admits⟩ := allowed
        cases served
        exact @Step.enqueue _ _ log first [] later checked (waiting_free phase) admits
      · cases served
    · cases served
  | stop =>
    simp only [serve] at served
    split at served
    · rename_i phase
      cases served
      exact .stop (waiting_free phase)
    · cases served
  | begin =>
    simp only [serve] at served
    split at served
    · rename_i phase queue
      cases served
      exact .begin phase (by simp [queue])
    · cases served
  | take =>
    simp only [serve] at served
    split at served
    · rename_i phase queue
      split at served
      · rename_i takes
        cases served
        exact .take phase queue takes
      · cases served
    · cases served
  | close =>
    simp only [serve] at served
    split at served
    · rename_i phase
      cases served
      exact .close phase ⟨by simp, .inl rfl⟩
    · cases served
  | write =>
    simp only [serve] at served
    split at served
    · rename_i phase
      cases served
      exact .write phase (storage_run _ _)
    · cases served
  | sync =>
    simp only [serve] at served
    split at served
    · rename_i phase
      cases served
      exact .sync phase (storage_run _ _)
    · cases served
  | answer =>
    simp only [serve] at served
    split at served
    · rename_i phase
      cases served
      exact .answer phase
    · cases served
  | exit =>
    simp only [serve] at served
    split at served
    · rename_i phase queue
      split at served
      · rename_i stopping
        cases served
        exact .exit phase queue stopping (storage_run _ _)
      · cases served
    · cases served
  | _ => cases served

/-- A run of the thread that serves. -/
theorem serve_run {crc32c : ByteString → UInt32} {config : WalConfig} {log last : LogThread}
    {actions : List LogAction}
    (computed : runLabels (serve crc32c config) log actions = some last) :
    AnyRun (Step crc32c config) log actions last := by
  have run := GuardedRun.of_runLabels computed fun _ _ => trivial
  exact run.extend fun _ _ _ => serve_step

end LogThread

end GeoWorld.Persistence
