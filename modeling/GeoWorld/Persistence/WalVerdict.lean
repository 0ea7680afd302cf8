import Mathlib
import GeoWorld.Library.Runs
import GeoWorld.Persistence.TableCode
import GeoWorld.Persistence.WalThread

/-!
Every append that is accepted is answered once. The tickets are the answered ones, then
those the thread holds, then the queue, in the order in which they were handed out; each
step moves tickets along this line only.
-/

namespace GeoWorld.Persistence

open WorldModel Library

section Verdicts

variable {crc32c : ByteString → UInt32} {config : WalConfig}

/-- The record was written, and its file was synced afterwards. -/
def SyncedIn (done : List FileOp) (bytes : ByteString) : Prop :=
  ∃ path front middle back,
    done = front ++ FileOp.write path bytes :: (middle ++ FileOp.sync path :: back)

def WrittenIn (done : List FileOp) (path : DiskPath) (bytes : ByteString) : Prop :=
  ∃ front back, done = front ++ FileOp.write path bytes :: back

theorem SyncedIn.mono {done later : List FileOp} {bytes : ByteString} (synced : SyncedIn done bytes)
    (grown : done <+: later) : SyncedIn later bytes := by
  obtain ⟨path, front, middle, back, rfl⟩ := synced
  obtain ⟨more, rfl⟩ := grown
  exact ⟨path, front, middle, back ++ more, by simp⟩

theorem WrittenIn.mono {done later : List FileOp} {path : DiskPath} {bytes : ByteString}
    (written : WrittenIn done path bytes) (grown : done <+: later) :
    WrittenIn later path bytes := by
  obtain ⟨front, back, rfl⟩ := written
  obtain ⟨more, rfl⟩ := grown
  exact ⟨front, back ++ more, by simp⟩

theorem WrittenIn.synced {before after : Storage} {path : DiskPath} {bytes : ByteString}
    (written : WrittenIn before.done path bytes) (since : DoneSince before after (.sync path)) :
    SyncedIn after.done bytes := by
  obtain ⟨front, back, done⟩ := written
  obtain ⟨middle, rest, later⟩ := since
  exact ⟨path, front, back ++ middle, rest, by rw [later, done]; simp⟩

theorem DoneSince.written {before after : Storage} {path : DiskPath} {bytes : ByteString}
    (since : DoneSince before after (.write path bytes)) : WrittenIn after.done path bytes := by
  obtain ⟨front, back, later⟩ := since
  exact ⟨before.done ++ front, back, by rw [later]; simp⟩

/-- A written record is synced, or lies in the active segment. -/
def Secured (crc32c : ByteString → UInt32) (log : LogThread) (entry : TicketedAppend × Lsn) :
    Prop :=
  SyncedIn log.storage.done (entry.1.record.encoded crc32c entry.2) ∨
    ∃ active, log.writer.activeSegment = some active ∧
      WrittenIn log.storage.done active.path (entry.1.record.encoded crc32c entry.2)

/-- What a ticket that was answered with success may rely on. -/
def DurablyAccepted (crc32c : ByteString → UInt32) (log : LogThread) (ticket : Ticket)
    (outcome : AppendOutcome) : Prop :=
  ∃ record, log.admitted[ticket]? = some record ∧ record.durability = .durable ∧
    SyncedIn log.storage.done (record.encoded crc32c outcome.lsn)

/-- The invariant of the log: tickets are answered in the order in which they were handed
out, written records are secured, and answers of success are backed by a sync. -/
structure LogInv (crc32c : ByteString → UInt32) (log : LogThread) : Prop where
  tickets : log.verdicts.map Prod.fst ++
    (log.phase.held ++ log.queue).map TicketedAppend.ticket = List.range log.admitted.length
  records : ∀ pending ∈ log.phase.held ++ log.queue,
    log.admitted[pending.ticket]? = some pending.record
  written : ∀ written rest, log.phase = .writing written rest →
    ∀ entry ∈ written, Secured crc32c log entry
  answering : ∀ written, log.phase = .answering written →
    ∀ entry ∈ written, entry.1.record.durability = .durable →
      SyncedIn log.storage.done (entry.1.record.encoded crc32c entry.2)
  durable : ∀ verdict ∈ log.verdicts, verdict.2.status = .durableAccepted →
    verdict.2.error = .none ∧ DurablyAccepted crc32c log verdict.1 verdict.2

end Verdicts

section Steps

variable {crc32c : ByteString → UInt32} {config : WalConfig} {log after : LogThread}
  {action : LogAction}

open LogThread

theorem LogThread.Step.grows (step : Step crc32c config log action after) :
    log.admitted <+: after.admitted ∧ log.storage.done <+: after.storage.done := by
  cases step with
  | enqueue => exact ⟨List.prefix_append _ _, List.prefix_refl _⟩
  | write _ reached => exact ⟨List.prefix_refl _, reaches_done reached⟩
  | sync _ reached => exact ⟨List.prefix_refl _, reaches_done reached⟩
  | exit _ _ _ reached => exact ⟨List.prefix_refl _, reaches_done reached⟩
  | _ => exact ⟨List.prefix_refl _, List.prefix_refl _⟩

theorem admitted_later {ticket : Ticket} {record : WalRecord} {admitted more : List WalRecord}
    (found : admitted[ticket]? = some record) (grown : admitted <+: more) :
    more[ticket]? = some record := by
  obtain ⟨rest, rfl⟩ := grown
  have inside := (List.getElem?_eq_some_iff.mp found).1
  rw [List.getElem?_append_left inside]
  exact found

theorem DurablyAccepted.later {ticket : Ticket} {outcome : AppendOutcome}
    (accepted : DurablyAccepted crc32c log ticket outcome)
    (grown : log.admitted <+: after.admitted ∧ log.storage.done <+: after.storage.done) :
    DurablyAccepted crc32c after ticket outcome := by
  obtain ⟨record, found, durable, synced⟩ := accepted
  exact ⟨record, admitted_later found grown.1, durable, synced.mono grown.2⟩

/-- A round of the loop keeps what is secured. -/
theorem Secured.later {entry : TicketedAppend × Lsn} {record : WalRecord}
    (secured : Secured crc32c log entry)
    (round : RecordWritten crc32c log.writer record log.storage after.writer after.storage)
    (grown : log.storage.done <+: after.storage.done) : Secured crc32c after entry := by
  rcases secured with synced | ⟨active, opened, written⟩
  · exact .inl (synced.mono grown)
  rcases round.closed active opened with ⟨current, still, same⟩ | closed
  · exact .inr ⟨current, still, same ▸ written.mono grown⟩
  · exact .inl (written.synced closed)

theorem tickets_step (step : Step crc32c config log action after) (inv : LogInv crc32c log) :
    after.verdicts.map Prod.fst ++
      (after.phase.held ++ after.queue).map TicketedAppend.ticket =
        List.range after.admitted.length := by
  have tickets := inv.tickets
  cases step with
  | check => exact tickets
  | enqueue =>
    rw [List.length_append, List.length_singleton, List.range_succ, ← tickets]
    simp
  | refuse => exact tickets
  | stop => exact tickets
  | begin phase => simpa [phase, ThreadPhase.held] using tickets
  | take phase next => simpa [phase, next, ThreadPhase.held] using tickets
  | close phase =>
    rw [phase] at tickets
    by_cases fault : log.writer.fault = true
    · simpa [fault, ThreadPhase.held] using tickets
    · simpa [fault, ThreadPhase.held] using tickets
  | turnAway phase =>
    simpa [phase, ThreadPhase.held, rejectedVerdicts, Function.comp_def] using tickets
  | @write written rest pending _ error _ _ phase reached =>
    rw [phase] at tickets
    by_cases failed : error = .none
    · simpa [failed, ThreadPhase.held] using tickets
    · simpa [failed, ThreadPhase.held] using tickets
  | @sync written error _ phase reached =>
    rw [phase] at tickets
    by_cases failed : error = .none
    · simpa [failed, ThreadPhase.held] using tickets
    · simpa [failed, ThreadPhase.held] using tickets
  | answer phase =>
    simpa [phase, ThreadPhase.held, acceptedVerdicts, Function.comp_def] using tickets
  | reject phase =>
    simpa [phase, ThreadPhase.held, rejectedVerdicts, Function.comp_def] using tickets
  | raise phase => simpa [phase, ThreadPhase.held] using tickets
  | drain phase =>
    simpa [phase, ThreadPhase.held, rejectedVerdicts, Function.comp_def] using tickets
  | exit phase => simpa [phase, ThreadPhase.held] using tickets

/-- Besides what is appended, nothing new waits for an answer. -/
theorem LogThread.Step.unanswered (step : Step crc32c config log action after) (pending : TicketedAppend)
    (waits : pending ∈ after.phase.held ++ after.queue) :
    pending ∈ log.phase.held ++ log.queue ∨
      after.admitted[pending.ticket]? = some pending.record := by
  cases step with
  | enqueue =>
    rw [← List.append_assoc] at waits
    rcases List.mem_append.mp waits with old | new
    · exact .inl old
    · obtain rfl := List.mem_singleton.mp new
      exact .inr (by simp)
  | begin phase => exact .inl (by simpa [phase, ThreadPhase.held] using waits)
  | take phase next => exact .inl (by simpa [phase, next, ThreadPhase.held] using waits)
  | close phase =>
    refine .inl ?_
    rw [phase]
    by_cases fault : log.writer.fault = true
    · simpa [fault, ThreadPhase.held] using waits
    · simpa [fault, ThreadPhase.held] using waits
  | @write _ _ _ _ error _ _ phase =>
    refine .inl ?_
    rw [phase]
    by_cases failed : error = .none
    · simpa [failed, ThreadPhase.held, or_assoc] using waits
    · simpa [failed, ThreadPhase.held, or_assoc] using waits
  | @sync _ error _ phase =>
    refine .inl ?_
    rw [phase]
    by_cases failed : error = .none
    · simpa [failed, ThreadPhase.held] using waits
    · simpa [failed, ThreadPhase.held] using waits
  | drain => simp [ThreadPhase.held] at waits
  | exit => exact .inl (List.mem_append_right _ (by simpa [ThreadPhase.held] using waits))
  | turnAway => exact .inl (List.mem_append_right _ (by simpa [ThreadPhase.held] using waits))
  | answer => exact .inl (List.mem_append_right _ (by simpa [ThreadPhase.held] using waits))
  | reject => exact .inl (List.mem_append_right _ (by simpa [ThreadPhase.held] using waits))
  | raise => exact .inl (List.mem_append_right _ (by simpa [ThreadPhase.held] using waits))
  | check => exact .inl waits
  | refuse => exact .inl waits
  | stop => exact .inl waits

theorem records_step (step : Step crc32c config log action after) (inv : LogInv crc32c log)
    (pending : TicketedAppend) (waits : pending ∈ after.phase.held ++ after.queue) :
    after.admitted[pending.ticket]? = some pending.record := by
  rcases step.unanswered pending waits with old | new
  · exact admitted_later (inv.records pending old) step.grows.1
  · exact new

/-- Records are in a batch that is being written only after a round of the loop. -/
theorem written_step (step : Step crc32c config log action after) (inv : LogInv crc32c log)
    (written : List (TicketedAppend × Lsn)) (rest : List TicketedAppend)
    (writing : after.phase = .writing written rest) (entry : TicketedAppend × Lsn)
    (member : entry ∈ written) : Secured crc32c after entry := by
  cases step with
  | check => exact inv.written written rest writing entry member
  | enqueue => exact inv.written written rest writing entry member
  | refuse => exact inv.written written rest writing entry member
  | stop => exact inv.written written rest writing entry member
  | close =>
    simp only at writing
    split at writing
    · cases writing
    · cases writing
      simp at member
  | @write before _ pending _ error writer storage phase reached =>
    by_cases failed : error = .none
    swap
    · simp [failed] at writing
    have round := (((writeRecord_ensures _ _ _ _).sound reached).2 _ rfl).1 failed
    simp only [if_pos failed] at writing
    cases writing
    rcases List.mem_append.mp member with old | new
    · exact (inv.written before _ phase entry old).later round (reaches_done reached)
    · obtain rfl := List.mem_singleton.mp new
      obtain ⟨active, opened, put⟩ := round.written
      exact .inr ⟨active, opened, put.written⟩
  | sync =>
    simp only at writing
    split at writing
    · cases writing
    · cases writing
  | _ => cases writing

/-- A batch is answered behind the sync that covers it. -/
theorem answering_step (step : Step crc32c config log action after) (inv : LogInv crc32c log)
    (written : List (TicketedAppend × Lsn)) (answering : after.phase = .answering written)
    (entry : TicketedAppend × Lsn) (member : entry ∈ written)
    (durable : entry.1.record.durability = .durable) :
    SyncedIn after.storage.done (entry.1.record.encoded crc32c entry.2) := by
  cases step with
  | check => exact inv.answering written answering entry member durable
  | enqueue => exact inv.answering written answering entry member durable
  | refuse => exact inv.answering written answering entry member durable
  | stop => exact inv.answering written answering entry member durable
  | close =>
    simp only at answering
    split at answering
    · cases answering
    · cases answering
  | write =>
    simp only at answering
    split at answering
    · cases answering
    · cases answering
  | @sync batch error storage phase reached =>
    by_cases failed : error = .none
    swap
    · simp [failed] at answering
    simp only [if_pos failed] at answering
    cases answering
    have needed : anyDurable written = true :=
      List.any_eq_true.mpr ⟨entry, member, decide_eq_true durable⟩
    have synced := ((syncActive_ensures _ _ _).sound reached).2 _ rfl failed needed
    rcases inv.written written [] phase entry member with before | ⟨active, opened, put⟩
    · exact before.mono (reaches_done reached)
    · exact put.synced (synced active opened)
  | _ => cases answering

theorem rejected_verdict {error : PersistenceError} {batch : List TicketedAppend}
    {verdict : Ticket × AppendOutcome} (member : verdict ∈ rejectedVerdicts error batch) :
    verdict.2.error = error ∧ verdict.2.status = .none := by
  obtain ⟨pending, -, rfl⟩ := List.mem_map.mp member
  exact ⟨rfl, rfl⟩

theorem LogThread.Step.verdicts (step : Step crc32c config log action after) :
    after.verdicts = log.verdicts ∨
      (∃ written, log.phase = .answering written ∧
        after.verdicts = log.verdicts ++ acceptedVerdicts written) ∨
      ∃ error batch, (error = .faultReadOnly ∨ log.phase = .failed error batch) ∧
        after.verdicts = log.verdicts ++ rejectedVerdicts error batch := by
  cases step with
  | answer phase => exact .inr (.inl ⟨_, phase, rfl⟩)
  | turnAway => exact .inr (.inr ⟨_, _, .inl rfl, rfl⟩)
  | reject phase => exact .inr (.inr ⟨_, _, .inr phase, rfl⟩)
  | drain => exact .inr (.inr ⟨_, _, .inl rfl, rfl⟩)
  | _ => exact .inl rfl

/-- A success that was promised is backed by the calls before it. -/
theorem durable_step (step : Step crc32c config log action after) (inv : LogInv crc32c log)
    (verdict : Ticket × AppendOutcome) (given : verdict ∈ after.verdicts)
    (accepted : verdict.2.status = .durableAccepted) :
    verdict.2.error = .none ∧ DurablyAccepted crc32c after verdict.1 verdict.2 := by
  have old : verdict ∈ log.verdicts →
      verdict.2.error = .none ∧ DurablyAccepted crc32c after verdict.1 verdict.2 := by
    intro before
    obtain ⟨none, promised⟩ := inv.durable verdict before accepted
    exact ⟨none, promised.later step.grows⟩
  rcases step.verdicts with same | ⟨written, phase, more⟩ | ⟨error, batch, -, more⟩
  · exact old (same ▸ given)
  · rw [more] at given
    rcases List.mem_append.mp given with before | new
    · exact old before
    obtain ⟨entry, member, rfl⟩ := List.mem_map.mp new
    have durable : entry.1.record.durability = .durable := by
      cases kind : entry.1.record.durability with
      | durable => rfl
      | relaxed => simp [kind] at accepted
    have found := inv.records entry.1
      (by simpa [phase, ThreadPhase.held] using .inl ⟨entry.2, member⟩)
    have synced := inv.answering written phase entry member durable
    have promised : DurablyAccepted crc32c log entry.1.ticket
        { lsn := entry.2, status := .durableAccepted } :=
      ⟨entry.1.record, found, durable, synced⟩
    exact ⟨rfl, promised.later step.grows⟩
  · rw [more] at given
    rcases List.mem_append.mp given with before | new
    · exact old before
    · rw [(rejected_verdict new).2] at accepted
      cases accepted

theorem logInv_step (step : Step crc32c config log action after) (inv : LogInv crc32c log) :
    LogInv crc32c after where
  tickets := tickets_step step inv
  records := records_step step inv
  written := written_step step inv
  answering := answering_step step inv
  durable := durable_step step inv

theorem logInv_started (writer : WalWriter) (machine : Machine) :
    LogInv crc32c (LogThread.started writer machine) where
  tickets := rfl
  records := by simp [LogThread.started, ThreadPhase.held]
  written := by simp [LogThread.started]
  answering := by simp [LogThread.started]
  durable := by simp [LogThread.started]

end Steps

section Faults

variable {crc32c : ByteString → UInt32} {config : WalConfig} {log after : LogThread}
  {action : LogAction}

open LogThread

/-- From the first error on. -/
def LogThread.Faulted (log : LogThread) : Prop :=
  log.writer.fault = true ∨ (∃ error batch, log.phase = .failed error batch) ∨
    log.phase = .raising

/-- A batch is not worked on in the fault state, and the thread ends behind an empty queue. -/
structure FaultInv (log : LogThread) : Prop where
  writing : log.writer.fault = true → ∀ written rest, log.phase ≠ .writing written rest
  answering : log.writer.fault = true → ∀ written, log.phase ≠ .answering written
  failing : ∀ error batch, log.phase = .failed error batch → error ≠ .none
  draining : log.phase = .draining → log.writer.fault = true
  exited : log.phase = .exited → log.queue = [] ∧ log.stopping = true

theorem writeRecord_fault {writer ready : WalWriter} {record : WalRecord} {ageExceeded : Bool}
    {error : PersistenceError} {storage now : Storage}
    (reached : Program.Reaches Storage.Allowed
      (writeRecord crc32c config writer record ageExceeded) storage (.pure (error, ready)) now) :
    ready.fault = writer.fault := by
  obtain ⟨round, failed⟩ := ((writeRecord_ensures _ _ _ _).sound reached).2 _ rfl
  by_cases none : error = .none
  · obtain ⟨current, active, length, kept, rfl⟩ := (round none).advanced
    rw [WalWriter.advanced_fault, kept.fault]
  · exact (failed none).fault

theorem LogThread.Step.fault (step : Step crc32c config log action after) :
    after.writer.fault = log.writer.fault ∨
      after.writer.fault = true ∧ after.phase = .draining := by
  cases step with
  | write _ reached => exact .inl (writeRecord_fault reached)
  | sync =>
    left
    simp only
    split <;> rfl
  | answer =>
    left
    simp only
    split <;> rfl
  | raise => exact .inr ⟨rfl, rfl⟩
  | _ => exact .inl rfl

theorem LogThread.Step.fault_before (step : Step crc32c config log action after)
    (fault : after.writer.fault = true) (working : after.phase ≠ .draining) :
    log.writer.fault = true := by
  rcases step.fault with same | ⟨-, draining⟩
  · rw [← same]
    exact fault
  · exact absurd draining working

theorem fault_writing_step (step : Step crc32c config log action after) (inv : FaultInv log) :
    after.writer.fault = true → ∀ written rest, after.phase ≠ .writing written rest := by
  intro fault written rest writing
  have before := step.fault_before fault (by simp [writing])
  cases step with
  | check => exact inv.writing before _ _ writing
  | enqueue => exact inv.writing before _ _ writing
  | refuse => exact inv.writing before _ _ writing
  | stop => exact inv.writing before _ _ writing
  | close => simp [before] at writing
  | write phase => exact inv.writing before _ _ phase
  | sync phase => exact inv.writing before _ _ phase
  | _ => cases writing

theorem fault_answering_step (step : Step crc32c config log action after) (inv : FaultInv log) :
    after.writer.fault = true → ∀ written, after.phase ≠ .answering written := by
  intro fault written answering
  have before := step.fault_before fault (by simp [answering])
  cases step with
  | check => exact inv.answering before _ answering
  | enqueue => exact inv.answering before _ answering
  | refuse => exact inv.answering before _ answering
  | stop => exact inv.answering before _ answering
  | close => simp [before] at answering
  | write phase => exact inv.writing before _ _ phase
  | sync phase => exact inv.writing before _ _ phase
  | _ => cases answering

theorem failing_step (step : Step crc32c config log action after) (inv : FaultInv log) :
    ∀ error batch, after.phase = .failed error batch → error ≠ .none := by
  intro error batch failed
  cases step with
  | check => exact inv.failing error batch failed
  | enqueue => exact inv.failing error batch failed
  | refuse => exact inv.failing error batch failed
  | stop => exact inv.failing error batch failed
  | close =>
    simp only at failed
    split at failed
    · cases failed
    · cases failed
  | write =>
    simp only at failed
    split at failed
    · cases failed
    · rename_i some
      cases failed
      exact some
  | sync =>
    simp only at failed
    split at failed
    · cases failed
    · rename_i some
      cases failed
      exact some
  | _ => cases failed

theorem draining_step (step : Step crc32c config log action after) (inv : FaultInv log) :
    after.phase = .draining → after.writer.fault = true := by
  intro draining
  cases step with
  | check => exact inv.draining draining
  | enqueue => exact inv.draining draining
  | refuse => exact inv.draining draining
  | stop => exact inv.draining draining
  | close =>
    simp only at draining
    split at draining
    · cases draining
    · cases draining
  | write =>
    simp only at draining
    split at draining
    · cases draining
    · cases draining
  | sync =>
    simp only at draining
    split at draining
    · cases draining
    · cases draining
  | raise => rfl
  | _ => cases draining

theorem exited_step (step : Step crc32c config log action after) (inv : FaultInv log) :
    after.phase = .exited → after.queue = [] ∧ after.stopping = true := by
  intro exited
  cases step with
  | check => exact inv.exited exited
  | enqueue _ _ admits =>
    have stopping := (inv.exited exited).2
    rw [admits.2.1] at stopping
    cases stopping
  | refuse => exact inv.exited exited
  | stop => exact ⟨(inv.exited exited).1, rfl⟩
  | close =>
    simp only at exited
    split at exited
    · cases exited
    · cases exited
  | write =>
    simp only at exited
    split at exited
    · cases exited
    · cases exited
  | sync =>
    simp only at exited
    split at exited
    · cases exited
    · cases exited
  | exit _ empty stopping => exact ⟨empty, stopping⟩
  | _ => cases exited

theorem faultInv_step (step : Step crc32c config log action after) (inv : FaultInv log) :
    FaultInv after where
  writing := fault_writing_step step inv
  answering := fault_answering_step step inv
  failing := failing_step step inv
  draining := draining_step step inv
  exited := exited_step step inv

theorem faultInv_started (writer : WalWriter) (machine : Machine) :
    FaultInv (LogThread.started writer machine) where
  writing := by simp [LogThread.started]
  answering := by simp [LogThread.started]
  failing := by simp [LogThread.started]
  draining := by simp [LogThread.started]
  exited := by simp [LogThread.started]

theorem faulted_step (step : Step crc32c config log action after) (faulted : log.Faulted) :
    after.Faulted := by
  rcases faulted with fault | ⟨error, batch, failed⟩ | raising
  · rcases step.fault with same | raised
    · exact .inl (same.trans fault)
    · exact .inl raised.1
  · cases step with
    | check => exact .inr (.inl ⟨error, batch, failed⟩)
    | enqueue => exact .inr (.inl ⟨error, batch, failed⟩)
    | refuse => exact .inr (.inl ⟨error, batch, failed⟩)
    | stop => exact .inr (.inl ⟨error, batch, failed⟩)
    | reject => exact .inr (.inr rfl)
    | _ => simp_all
  · cases step with
    | check => exact .inr (.inr raising)
    | enqueue => exact .inr (.inr raising)
    | refuse => exact .inr (.inr raising)
    | stop => exact .inr (.inr raising)
    | raise => exact .inl rfl
    | _ => simp_all

/-- Once there was an error, every ticket is answered with one. -/
theorem faulted_verdicts (step : Step crc32c config log action after) (inv : FaultInv log)
    (faulted : log.Faulted) :
    ∃ more, after.verdicts = log.verdicts ++ more ∧ ∀ verdict ∈ more, verdict.2.error ≠ .none := by
  rcases step.verdicts with same | ⟨written, phase, -⟩ | ⟨error, batch, cause, more⟩
  · exact ⟨[], by simpa using same, by simp⟩
  · rcases faulted with fault | ⟨error, batch, failed⟩ | raising
    · exact absurd phase (inv.answering fault written)
    · cases failed.symm.trans phase
    · cases raising.symm.trans phase
  · refine ⟨_, more, fun verdict member => ?_⟩
    rw [(rejected_verdict member).1]
    rcases cause with rfl | failed
    · decide
    · exact inv.failing error batch failed

end Faults

section Runs

variable {crc32c : ByteString → UInt32} {config : WalConfig} {log last : LogThread}
  {actions : List LogAction}

open LogThread

theorem faulted_run (inv : FaultInv log) (faulted : log.Faulted)
    (run : AnyRun (Step crc32c config) log actions last) :
    ∃ more, last.verdicts = log.verdicts ++ more ∧ ∀ verdict ∈ more, verdict.2.error ≠ .none := by
  induction run with
  | nil => exact ⟨[], by simp, by simp⟩
  | cons _ step _ ih =>
    obtain ⟨first, now, failed⟩ := faulted_verdicts step inv faulted
    obtain ⟨more, later, rejected⟩ := ih (faultInv_step step inv) (faulted_step step faulted)
    refine ⟨first ++ more, by rw [later, now, List.append_assoc], fun verdict member => ?_⟩
    rcases List.mem_append.mp member with early | late
    · exact failed verdict early
    · exact rejected verdict late

/-- Every append that is accepted gets one verdict, in the order of the appends, by the time
the writer thread has ended; a durable one is backed by a sync behind the write of its
record; and behind the first error there are only errors. -/
theorem accepted_append_verdict {writer : WalWriter} {machine : Machine}
    (run : AnyRun (Step crc32c config) (LogThread.started writer machine) actions log) :
    log.verdicts.map Prod.fst <+: List.range log.admitted.length ∧
    (log.phase = .exited → log.verdicts.map Prod.fst = List.range log.admitted.length) ∧
    (∀ verdict ∈ log.verdicts, verdict.2.status = .durableAccepted →
      verdict.2.error = .none ∧ DurablyAccepted crc32c log verdict.1 verdict.2) ∧
    (log.Faulted → ∀ later last, AnyRun (Step crc32c config) log later last →
      ∃ more, last.verdicts = log.verdicts ++ more ∧
        ∀ verdict ∈ more, verdict.2.error ≠ .none) := by
  have inv : LogInv crc32c log :=
    run.invariant (logInv_started writer machine) fun _ _ _ _ step inv => logInv_step step inv
  have faults : FaultInv log :=
    run.invariant (faultInv_started writer machine) fun _ _ _ _ step inv => faultInv_step step inv
  refine ⟨⟨_, inv.tickets⟩, fun exited => ?_, inv.durable, fun faulted later last more => ?_⟩
  · have tickets := inv.tickets
    rw [exited, (faults.exited exited).1] at tickets
    simpa [ThreadPhase.held] using tickets
  · exact faulted_run faults faulted more

def pairConfig : WalConfig where
  durableRoot := [['d']]
  world := 7
  branch := Vector.replicate 16 1

def pairRecord : WalRecord := { payload := [1, 2] }

/-- Two appends are answered in one batch, and the log is shut down. -/
def pairRun : Option LogThread :=
  runLabels (serve castagnoli pairConfig)
    (.started { started := true } (.holding [pairConfig.layout.walDir] []))
    [.check pairRecord, .check pairRecord, .enqueue pairRecord, .enqueue pairRecord, .begin, .take,
      .take, .close, .write, .write, .sync, .answer, .stop, .exit]

theorem pairRun_verdicts : pairRun.map LogThread.verdicts =
    some [(0, { lsn := 1, status := .durableAccepted }),
      (1, { lsn := 2, status := .durableAccepted })] := by
  decide +kernel

theorem accepted_append_verdict_pair : ∃ log : LogThread, pairRun = some log ∧
    ∀ verdict ∈ log.verdicts, DurablyAccepted castagnoli log verdict.1 verdict.2 := by
  obtain ⟨log, computed, verdicts⟩ := Option.map_eq_some_iff.mp pairRun_verdicts
  have promises := (accepted_append_verdict (serve_run computed)).2.2.1
  refine ⟨log, computed, fun verdict member => (promises verdict member ?_).2⟩
  rw [verdicts] at member
  rcases List.mem_cons.mp member with rfl | last
  · rfl
  · rw [List.mem_singleton.mp last]

end Runs

end GeoWorld.Persistence
