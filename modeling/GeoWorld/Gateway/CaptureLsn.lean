import Mathlib
import GeoWorld.Gateway.IngressOrder

/-!
What the LSN of a capture says about the command buffer. The buffer remembers the largest
LSN it was handed, in whatever order a poll goes through its submissions. A poll that
passes over a submission whose ticket is not resolved yet, and then hands over a later one,
leaves that LSN above a record that is still waiting.
-/

namespace GeoWorld.Gateway

open WorldModel Library Simulation

variable {σ : Type}

theorem DurableAdmissionLog.append_taken {log later : DurableAdmissionLog} {accepts : Bool}
    {record : DurableRecord} {ticket : DurableTicket}
    (taken : log.append accepts record = (some ticket, later)) :
    ticket = log.appended.length ∧
      later = { log with appended := log.appended ++ [record] } := by
  unfold append at taken
  split at taken
  · obtain ⟨given, rfl⟩ := Prod.mk.inj taken
    exact ⟨(Option.some.inj given).symm, rfl⟩
  · cases taken

namespace AdmissionSystem

/-- The log of `after` holds the records of `before` and outcomes of commands. -/
structure LogsOutcomes (before after : AdmissionSystem σ) : Prop where
  outcomes : after.log.outcomes = before.log.outcomes
  appended : ∃ records, after.log.appended = before.log.appended ++ records ∧
    ∀ record ∈ records, record.kind = .commandOutcome

theorem LogsOutcomes.of_log {before after : AdmissionSystem σ} (same : after.log = before.log) :
    LogsOutcomes before after :=
  ⟨by rw [same], [], by rw [same, List.append_nil], by simp⟩

theorem LogsOutcomes.trans {before middle after : AdmissionSystem σ}
    (first : LogsOutcomes before middle) (second : LogsOutcomes middle after) :
    LogsOutcomes before after := by
  obtain ⟨records, more, kinds⟩ := first.appended
  obtain ⟨later, more', kinds'⟩ := second.appended
  refine ⟨second.outcomes.trans first.outcomes, records ++ later, ?_, ?_⟩
  · rw [more', more, List.append_assoc]
  · intro record member
    obtain early | late := List.mem_append.mp member
    · exact kinds record early
    · exact kinds' record late

/-- A submission whose record was appended just now waits for its ticket. -/
structure Registers (before after : AdmissionSystem σ) (pending : PendingDurable)
    (record : DurableRecord) : Prop where
  ticket : pending.ticket = before.log.appended.length
  later : before.gateway.ingressSequence < pending.ingressSequence
  outcomes : after.log.outcomes = before.log.outcomes
  appended : after.log.appended = before.log.appended ++ [record]
  waiting : after.gateway.pendingDurable =
    before.gateway.pendingDurable.insertIfNew pending.ingressSequence pending

theorem commandApplied_logs (accepts : CommandOutcome → Bool) (system : AdmissionSystem σ)
    (outcome : CommandOutcome) : LogsOutcomes system (commandApplied accepts system outcome) := by
  unfold commandApplied
  split
  · exact .of_log rfl
  · dsimp only
    split
    · exact .of_log rfl
    · split
      · exact .of_log rfl
      · split
        · exact .of_log rfl
        · rename_i ticket log taken
          obtain ⟨-, rfl⟩ := DurableAdmissionLog.append_taken taken
          exact ⟨rfl, _, rfl, by simp⟩

theorem onCommandsApplied_logs (system : AdmissionSystem σ) (report : ApplyReport)
    (accepts : CommandOutcome → Bool) :
    LogsOutcomes system (system.onCommandsApplied report accepts) := by
  unfold onCommandsApplied
  induction report.outcomes generalizing system with
  | nil => exact .of_log rfl
  | cons outcome rest ih =>
    exact (commandApplied_logs accepts system outcome).trans (ih _)

theorem log_submitCommand (system : AdmissionSystem σ) (id : SessionId)
    (command : ExternalCommand) (currentTick : UInt64) (budget : Bool) :
    (system.submitCommand id command currentTick budget).2.log = system.log := by
  unfold submitCommand
  split
  · rfl
  · split
    · rfl
    · split
      · rfl
      · split
        · rfl
        · split
          · rfl
          · split
            · rfl
            · dsimp only
              split
              · rw [log_handOver]
                rfl
              · simp [storeReceipt, addPendingCommand, setIngress]

theorem submitDurableCommand_registers (system : AdmissionSystem σ) (id : SessionId)
    (command : ExternalCommand) (currentTick : UInt64) (budget accepts : Bool) :
    let after := system.submitDurableCommand id command currentTick budget accepts
    (after.log = system.log ∧ after.gateway.pendingDurable = system.gateway.pendingDurable) ∨
      ∃ pending record, Registers system after pending record := by
  unfold submitDurableCommand
  dsimp only
  split
  · exact .inl ⟨rfl, rfl⟩
  · split
    · exact .inl ⟨rfl, rfl⟩
    · exact .inl ⟨rfl, rfl⟩
    · split
      · exact .inl ⟨rfl, rfl⟩
      · split
        · exact .inl ⟨rfl, rfl⟩
        · split
          · exact .inl ⟨rfl, rfl⟩
          · rename_i room
            split
            · exact .inl ⟨rfl, rfl⟩
            · rename_i ticket log taken
              obtain ⟨rfl, rfl⟩ := DurableAdmissionLog.append_taken taken
              exact .inr ⟨_, _, rfl, next_ingress room, rfl, rfl, rfl⟩

/-- What the main thread does to the log and to the waiting submissions, outside of a poll. -/
theorem stepMain_waiting {before after : AdmissionSystem σ} {event : AdmissionEvent}
    (stepped : before.stepMain event = some after) :
    (LogsOutcomes before after ∧
      after.gateway.pendingDurable = before.gateway.pendingDurable) ∨
      ∃ pending record, Registers before after pending record := by
  cases event with
  | openSession principal =>
    obtain rfl := Option.some.inj stepped
    exact .inl ⟨.of_log rfl, rfl⟩
  | closeSession id =>
    obtain rfl := Option.some.inj stepped
    unfold GatewayAdmission.closeSession
    split
    · exact .inl ⟨.of_log rfl, rfl⟩
    · exact .inl ⟨.of_log rfl, rfl⟩
  | acquireOwnership id target keys leaseUntilTick currentTick =>
    obtain rfl := Option.some.inj stepped
    obtain ⟨ownership, shape⟩ := acquireOwnership_frame before.gateway id target keys
      leaseUntilTick currentTick
    rw [shape]
    exact .inl ⟨.of_log rfl, rfl⟩
  | releaseOwnership id target keys =>
    obtain rfl := Option.some.inj stepped
    unfold GatewayAdmission.releaseOwnership
    split
    · exact .inl ⟨.of_log rfl, rfl⟩
    · exact .inl ⟨.of_log rfl, rfl⟩
  | submitCommand id command currentTick budget =>
    obtain rfl := Option.some.inj stepped
    exact .inl ⟨.of_log (log_submitCommand before id command currentTick budget),
      (submitCommand_effect before id command currentTick budget).2.1⟩
  | submitDurableCommand id command currentTick budget accepts =>
    obtain rfl := Option.some.inj stepped
    exact (submitDurableCommand_registers before id command currentTick budget accepts).imp_left
      fun same => ⟨.of_log same.1, same.2⟩
  | pollBegin order =>
    simp only [stepMain] at stepped
    split at stepped
    · obtain rfl := Option.some.inj stepped
      exact .inl ⟨.of_log rfl, rfl⟩
    · cases stepped
  | onCommandsApplied report accepts =>
    obtain rfl := Option.some.inj stepped
    exact .inl ⟨onCommandsApplied_logs before report accepts,
      (onCommandsApplied_effect before report accepts).2.1⟩
  | fulfill ticket outcome => cases stepped
  | pollNext => cases stepped

/-- What a turn of the poll leaves of the submission it visits. -/
theorem unresolved_of_pollEntry {system : AdmissionSystem σ} {ingress : UInt64}
    {pending : PendingDurable}
    (still : (system.pollEntry ingress).gateway.pendingDurable[ingress]? = some pending) :
    system.gateway.pendingDurable[ingress]? = some pending ∧
      system.log.tryOutcome pending.ticket = none := by
  unfold pollEntry at still
  split at still
  · rename_i absent
    rw [absent] at still
    cases still
  · rename_i found
    split at still
    · rename_i unresolved
      rw [found] at still
      obtain rfl := Option.some.inj still
      exact ⟨found, unresolved⟩
    · dsimp only at still
      split at still
      · rw [(admitPending_frame _ _ _).1] at still
        simp [extractPending] at still
      · simp [failPending, complete, setIndex, extractPending] at still

/-- A durable submission that is visited is handed over. -/
theorem handed_pollEntry {system : AdmissionSystem σ} {ingress : UInt64}
    {pending : PendingDurable} {lsn : UInt64} {submit : CommandSubmitter σ}
    (given : system.submitter = some submit)
    (found : system.gateway.pendingDurable[ingress]? = some pending)
    (durable : system.log.tryOutcome pending.ticket = some ⟨lsn, true⟩) :
    ∃ call ∈ (system.pollEntry ingress).handed, call.meta.durableLsn = lsn := by
  have calls (before : AdmissionSystem σ) (same : before.submitter = some submit) :
      ∃ call ∈ (before.admitPending pending lsn).handed, call.meta.durableLsn = lsn := by
    refine ⟨⟨some pending.key, pending.targetTick, pending.payload, durableMeta pending lsn⟩,
      ?_, rfl⟩
    unfold admitPending
    dsimp only
    split <;> simp [complete, storeReceipt, addPendingCommand, setIndex, handOver, same, durableMeta]
  simp only [pollEntry, found, durable, if_true]
  exact calls _ given

end AdmissionSystem

/-- An external command that is durable in the log. -/
structure Logged (system : AdmissionSystem σ) (ticket : DurableTicket) (lsn : UInt64) : Prop where
  record : ∃ record, system.log.appended[ticket]? = some record ∧ record.kind = .externalCommand
  durable : system.log.tryOutcome ticket = some ⟨lsn, true⟩

/-- A submission whose record is durable waits to be handed over. -/
def WaitsDurable (system : AdmissionSystem σ) (ingress lsn : UInt64) : Prop :=
  ∃ pending : PendingDurable, system.gateway.pendingDurable[ingress]? = some pending ∧
    system.log.tryOutcome pending.ticket = some ⟨lsn, true⟩

/-- The command was handed over under this LSN: it entered the buffer, or was rejected. -/
def HandedOver (handed : List HandOver) (lsn : UInt64) : Prop :=
  ∃ call ∈ handed, call.meta.durableLsn = lsn

/-- Every capture has all durable commands up to the LSN it records. -/
def CapturesComplete (loop : GatewayLoop) : Prop :=
  ∀ capture ∈ loop.captures, ∀ ticket lsn, Logged loop.admission ticket lsn →
    lsn ≤ capture.includedLsn → HandedOver capture.handed lsn

/-- A turn that hands a command over has every other durable record up to its LSN, if it still
waits, ahead of it. -/
def LeavesNoneBehind (loop : GatewayLoop) : LoopEvent → Prop
  | .admission .pollNext => ∀ (ingress : UInt64) (rest : List UInt64) (lsn : UInt64),
      loop.admission.polling = some (ingress :: rest) →
      WaitsDurable loop.admission ingress lsn →
      ∀ other earlier, other ≠ ingress → WaitsDurable loop.admission other earlier →
        earlier ≤ lsn → other ∈ rest
  | _ => True

/-- The records of the log up to `last`, each waiting or handed over, and none waiting below
the LSN of the buffer that the poll has passed. -/
structure Tracked (system : AdmissionSystem CommandBuffer) (last : UInt64) : Prop where
  tickets : ∀ ticket outcome, system.log.tryOutcome ticket = some outcome →
    ticket < system.log.appended.length
  assigned : ∀ ticket lsn, system.log.tryOutcome ticket = some ⟨lsn, true⟩ → lsn ≤ last
  included : system.target.includedDurableLsn ≤ last
  ahead : ∀ ingress lsn, WaitsDurable system ingress lsn →
    lsn ≤ system.target.includedDurableLsn → ∃ rest, system.polling = some rest ∧ ingress ∈ rest
  settled : ∀ ticket record, system.log.appended[ticket]? = some record →
    record.kind = .externalCommand →
      (∃ (ingress : UInt64) (pending : PendingDurable),
        system.gateway.pendingDurable[ingress]? = some pending ∧ pending.ticket = ticket) ∨
      ∃ outcome, system.log.tryOutcome ticket = some outcome ∧
        (outcome.ok = true → HandedOver system.handed outcome.lsn)

theorem DurableAdmissionLog.fulfill_shape {log later : DurableAdmissionLog}
    {ticket : DurableTicket} {outcome : DurableAppendOutcome}
    (fulfilled : log.fulfill ticket outcome = some later) :
    ticket < log.appended.length ∧ log.tryOutcome ticket = none ∧
      later.appended = log.appended ∧ later.tryOutcome ticket = some outcome ∧
      ∀ other, other ≠ ticket → later.tryOutcome other = log.tryOutcome other := by
  unfold fulfill at fulfilled
  split at fulfilled
  · rename_i free
    obtain rfl := Option.some.inj fulfilled
    refine ⟨free.1, free.2, rfl, ?_, fun other different => lookup_insert_ne _ different _⟩
    exact Std.ExtTreeMap.getElem?_insert_self
  · cases fulfilled

section Keep

variable {before after : AdmissionSystem CommandBuffer} {last : UInt64}

/-- The writer thread makes a record durable under a larger LSN, or fails it. -/
theorem Tracked.fulfill (tracked : Tracked before last) {ticket : DurableTicket}
    {outcome : DurableAppendOutcome} {log : DurableAdmissionLog} {next : UInt64}
    (fulfilled : before.log.fulfill ticket outcome = some log) (advanced : last ≤ next)
    (assigned : outcome.ok = true → last < outcome.lsn ∧ next = outcome.lsn) :
    Tracked { before with log := log } next := by
  obtain ⟨present, open_ticket, appended, own, others⟩ :=
    DurableAdmissionLog.fulfill_shape fulfilled
  refine ⟨?_, ?_, UInt64.le_trans tracked.included advanced, ?_, ?_⟩
  · intro other result resolved
    change other < log.appended.length
    rw [appended]
    by_cases same : other = ticket
    · rw [same]
      exact present
    · exact tracked.tickets other result ((others other same).symm.trans resolved)
  · intro other lsn durable
    by_cases same : other = ticket
    · subst same
      obtain rfl := Option.some.inj (own.symm.trans durable)
      rw [(assigned rfl).2]
      exact UInt64.le_refl _
    · exact UInt64.le_trans (tracked.assigned other lsn ((others other same).symm.trans durable))
        advanced
  · rintro ingress lsn ⟨pending, found, durable⟩ below
    by_cases same : pending.ticket = ticket
    · obtain rfl := Option.some.inj (own.symm.trans (same ▸ durable))
      have past := UInt64.lt_of_lt_of_le (assigned rfl).1 (UInt64.le_trans below tracked.included)
      exact absurd past (UInt64.lt_irrefl _)
    · exact tracked.ahead ingress lsn ⟨pending, found, (others _ same).symm.trans durable⟩ below
  · intro other record listed external
    change log.appended[other]? = some record at listed
    rw [appended] at listed
    refine (tracked.settled other record listed external).imp_right ?_
    rintro ⟨result, resolved, handed⟩
    have different : other ≠ ticket := by
      rintro rfl
      rw [open_ticket] at resolved
      cases resolved
    exact ⟨result, (others other different).trans resolved, handed⟩

/-- A step that starts outside of a poll, resolves no ticket and keeps the LSN of the buffer. -/
structure Outside (before after : AdmissionSystem CommandBuffer) : Prop where
  idle : before.polling = none
  handed : before.handed ⊆ after.handed
  target : after.target.includedDurableLsn = before.target.includedDurableLsn
  outcomes : after.log.outcomes = before.log.outcomes

theorem Outside.tryOutcome (outside : Outside before after) (ticket : DurableTicket) :
    after.log.tryOutcome ticket = before.log.tryOutcome ticket := by
  rw [DurableAdmissionLog.tryOutcome, DurableAdmissionLog.tryOutcome, outside.outcomes]

theorem Outside.settled (outside : Outside before after) {ticket : DurableTicket}
    (settled : ∃ outcome, before.log.tryOutcome ticket = some outcome ∧
      (outcome.ok = true → HandedOver before.handed outcome.lsn)) :
    ∃ outcome, after.log.tryOutcome ticket = some outcome ∧
      (outcome.ok = true → HandedOver after.handed outcome.lsn) := by
  obtain ⟨outcome, resolved, handed⟩ := settled
  refine ⟨outcome, (outside.tryOutcome ticket).trans resolved, fun ok => ?_⟩
  obtain ⟨call, member, number⟩ := handed ok
  exact ⟨call, outside.handed member, number⟩

/-- Between two polls nothing waits below the LSN of the buffer. -/
theorem Tracked.above (tracked : Tracked before last) (idle : before.polling = none)
    {ingress lsn : UInt64} (waits : WaitsDurable before ingress lsn) :
    ¬ lsn ≤ before.target.includedDurableLsn := by
  intro below
  obtain ⟨rest, polling, -⟩ := tracked.ahead ingress lsn waits below
  rw [idle] at polling
  cases polling

theorem Tracked.logsOutcomes (tracked : Tracked before last) (outside : Outside before after)
    (logs : AdmissionSystem.LogsOutcomes before after)
    (waiting : after.gateway.pendingDurable = before.gateway.pendingDurable) :
    Tracked after last := by
  obtain ⟨records, more, kinds⟩ := logs.appended
  refine ⟨?_, ?_, outside.target ▸ tracked.included, ?_, ?_⟩
  · intro ticket outcome resolved
    rw [outside.tryOutcome] at resolved
    rw [more, List.length_append]
    exact Nat.lt_add_right _ (tracked.tickets ticket outcome resolved)
  · intro ticket lsn durable
    rw [outside.tryOutcome] at durable
    exact tracked.assigned ticket lsn durable
  · rintro ingress lsn ⟨pending, found, durable⟩ below
    rw [waiting] at found
    rw [outside.tryOutcome] at durable
    rw [outside.target] at below
    exact absurd below (tracked.above outside.idle ⟨pending, found, durable⟩)
  · intro ticket record listed external
    rw [more] at listed
    rw [waiting]
    have old : before.log.appended[ticket]? = some record := by
      obtain short | long := Nat.lt_or_ge ticket before.log.appended.length
      · rwa [List.getElem?_append_left short] at listed
      · rw [List.getElem?_append_right long] at listed
        rw [kinds _ (List.mem_of_getElem? listed)] at external
        cases external
    exact (tracked.settled ticket record old external).imp_right outside.settled

theorem Tracked.registers (tracked : Tracked before last) (outside : Outside before after)
    (filed : before.PendingFiled) {pending : PendingDurable} {record : DurableRecord}
    (registers : AdmissionSystem.Registers before after pending record) : Tracked after last := by
  have unused : before.gateway.pendingDurable[pending.ingressSequence]? = none := by
    by_contra used
    obtain ⟨other, found⟩ := Option.ne_none_iff_exists'.mp used
    exact UInt64.not_le.mpr registers.later (filed.filed _ _ found).2
  have lookup := lookup_insertIfNew before.gateway.pendingDurable unused
  have fresh : before.log.tryOutcome pending.ticket = none := by
    by_contra resolved
    obtain ⟨outcome, known⟩ := Option.ne_none_iff_exists'.mp resolved
    have inside := tracked.tickets _ _ known
    rw [registers.ticket] at inside
    exact absurd inside (Nat.lt_irrefl _)
  refine ⟨?_, ?_, outside.target ▸ tracked.included, ?_, ?_⟩
  · intro ticket outcome resolved
    rw [outside.tryOutcome] at resolved
    rw [registers.appended, List.length_append]
    exact Nat.lt_add_right _ (tracked.tickets ticket outcome resolved)
  · intro ticket lsn durable
    rw [outside.tryOutcome] at durable
    exact tracked.assigned ticket lsn durable
  · rintro ingress lsn ⟨waiting, found, durable⟩ below
    rw [registers.waiting, lookup] at found
    rw [outside.tryOutcome] at durable
    rw [outside.target] at below
    split at found
    · obtain rfl := Option.some.inj found
      rw [fresh] at durable
      cases durable
    · exact absurd below (tracked.above outside.idle ⟨waiting, found, durable⟩)
  · intro ticket listed_record listed external
    rw [registers.appended] at listed
    rw [registers.waiting]
    obtain short | long := Nat.lt_or_ge ticket before.log.appended.length
    · rw [List.getElem?_append_left short] at listed
      refine (tracked.settled ticket listed_record listed external).imp ?_ outside.settled
      rintro ⟨ingress, waiting, found, own⟩
      have different : ingress ≠ pending.ingressSequence := by
        rintro rfl
        rw [unused] at found
        cases found
      exact ⟨ingress, waiting, by rw [lookup, if_neg different, found], own⟩
    · have inside := (List.getElem?_eq_some_iff.mp listed).1
      rw [List.length_append, List.length_singleton] at inside
      have own : pending.ticket = ticket :=
        registers.ticket.trans (Nat.le_antisymm long (Nat.lt_succ_iff.mp inside))
      exact .inl ⟨pending.ingressSequence, pending, by rw [lookup, if_pos rfl], own⟩

/-- A command that is handed over without an LSN leaves the LSN of the buffer. -/
theorem included_enqueue (buffer : CommandBuffer) (targetTick : UInt64)
    (payload : CommandPayload) («meta» : CommandMeta) :
    (buffer.enqueue targetTick payload «meta»).2.includedDurableLsn = buffer.includedDurableLsn ∨
      ((buffer.enqueue targetTick payload «meta»).2.includedDurableLsn = «meta».durableLsn ∧
        buffer.includedDurableLsn ≤ «meta».durableLsn) := by
  obtain ⟨-, same⟩ | ⟨-, more⟩ := buffer.enqueue_cases targetTick payload «meta»
  · rw [same]
    exact .inl rfl
  · rw [more]
    change (if buffer.includedDurableLsn ≤ «meta».durableLsn then _ else _) = _ ∨
      ((if buffer.includedDurableLsn ≤ «meta».durableLsn then _ else _) = _ ∧ _)
    split
    · rename_i below
      exact .inr ⟨rfl, below⟩
    · exact .inl rfl

theorem included_unlogged (buffer : CommandBuffer) (targetTick : UInt64)
    (payload : CommandPayload) {«meta» : CommandMeta} (unlogged : «meta».durableLsn = 0) :
    (buffer.enqueue targetTick payload «meta»).2.includedDurableLsn =
      buffer.includedDurableLsn := by
  obtain same | ⟨last, below⟩ := included_enqueue buffer targetTick payload «meta»
  · exact same
  · rw [unlogged] at last below
    rw [last]
    exact (UInt64.le_zero_iff.mp below).symm

/-- A turn of the poll that leaves nothing behind. -/
theorem Tracked.pollEntry (tracked : Tracked before last) {ingress : UInt64} {rest : List UInt64}
    (submitter : before.submitter = some CommandBuffer.enqueue)
    (polling : before.polling = some (ingress :: rest))
    (behind : ∀ lsn, WaitsDurable before ingress lsn → ∀ other earlier, other ≠ ingress →
      WaitsDurable before other earlier → earlier ≤ lsn → other ∈ rest) :
    Tracked { before.pollEntry ingress with polling := some rest } last := by
  have log : (before.pollEntry ingress).log = before.log := AdmissionSystem.log_pollEntry
  have calls := AdmissionSystem.pollEntry_calls before ingress
  have handed : before.handed ⊆ (before.pollEntry ingress).handed := by
    obtain quiet | ⟨_, _, _, _, _, calls⟩ := calls
    · rw [quiet.handed]
      exact List.Subset.refl _
    · rw [calls.recorded]
      exact List.subset_append_left _ _
  have included : (before.pollEntry ingress).target.includedDurableLsn =
        before.target.includedDurableLsn ∨ ∃ lsn, WaitsDurable before ingress lsn ∧
        (before.pollEntry ingress).target.includedDurableLsn = lsn := by
    obtain quiet | ⟨pending, outcome, found, resolved, ok, ⟨submit, given, target⟩, -⟩ := calls
    · exact .inl (by rw [quiet.target])
    · obtain rfl := Option.some.inj (given.symm.trans submitter)
      have durable : before.log.tryOutcome pending.ticket = some ⟨outcome.lsn, true⟩ := by
        rw [resolved, ← ok]
      rw [target]
      refine (included_enqueue _ _ _ _).imp_right fun last => ?_
      exact ⟨outcome.lsn, ⟨pending, found, durable⟩, last.1⟩
  have earlier {other lsn : UInt64}
      (waits : WaitsDurable { before.pollEntry ingress with polling := some rest } other lsn) :
      other ≠ ingress ∧ WaitsDurable before other lsn := by
    obtain ⟨pending, found, durable⟩ := waits
    change (before.pollEntry ingress).gateway.pendingDurable[other]? = some pending at found
    change (before.pollEntry ingress).log.tryOutcome _ = _ at durable
    rw [log] at durable
    by_cases same : other = ingress
    · subst same
      rw [(AdmissionSystem.unresolved_of_pollEntry found).2] at durable
      cases durable
    · rw [AdmissionSystem.pendingDurable_pollEntry same] at found
      exact ⟨same, pending, found, durable⟩
  refine ⟨?_, ?_, ?_, ?_, ?_⟩
  · simpa only [log] using tracked.tickets
  · simpa only [log] using tracked.assigned
  · change (before.pollEntry ingress).target.includedDurableLsn ≤ last
    obtain same | ⟨lsn, ⟨pending, -, durable⟩, own⟩ := included
    · rw [same]
      exact tracked.included
    · rw [own]
      exact tracked.assigned _ lsn durable
  · intro other lsn waits below
    obtain ⟨different, waited⟩ := earlier waits
    refine ⟨rest, rfl, ?_⟩
    change lsn ≤ (before.pollEntry ingress).target.includedDurableLsn at below
    obtain same | ⟨top, visited, own⟩ := included
    · rw [same] at below
      obtain ⟨left, polling', member⟩ := tracked.ahead other lsn waited below
      obtain rfl := Option.some.inj (polling.symm.trans polling')
      exact (List.mem_cons.mp member).resolve_left different
    · exact behind top visited other lsn different waited (own ▸ below)
  · intro ticket record listed external
    simp only [log] at listed ⊢
    obtain ⟨other, pending, found, own⟩ | ⟨outcome, resolved, given⟩ :=
      tracked.settled ticket record listed external
    · by_cases same : other = ingress
      · subst same
        cases resolved : before.log.tryOutcome pending.ticket with
        | none =>
          have idle : before.pollEntry other = before := by
            simp [AdmissionSystem.pollEntry, found, resolved]
          exact .inl ⟨other, pending, by rw [idle, found], own⟩
        | some outcome =>
          refine .inr ⟨outcome, own ▸ resolved, fun ok => ?_⟩
          have durable : before.log.tryOutcome pending.ticket = some ⟨outcome.lsn, true⟩ := by
            rw [resolved, ← ok]
          exact AdmissionSystem.handed_pollEntry submitter found durable
      · exact .inl ⟨other, pending, by
          rw [AdmissionSystem.pendingDurable_pollEntry same, found], own⟩
    · refine .inr ⟨outcome, resolved, fun ok => ?_⟩
      obtain ⟨call, member, number⟩ := given ok
      exact ⟨call, handed member, number⟩

theorem Tracked.pollEnd (tracked : Tracked before last) (polling : before.polling = some []) :
    Tracked { before with polling := none } last := by
  refine ⟨tracked.tickets, tracked.assigned, tracked.included, ?_, tracked.settled⟩
  intro ingress lsn waits below
  obtain ⟨rest, polling', member⟩ := tracked.ahead ingress lsn waits below
  obtain rfl := Option.some.inj (polling.symm.trans polling')
  cases member

/-- A record that was durable before, or has a larger LSN than any before it. -/
theorem Tracked.logged_outside (tracked : Tracked before last)
    (outcomes : after.log.outcomes = before.log.outcomes)
    (grows : before.log.appended <+: after.log.appended) {ticket : DurableTicket} {lsn : UInt64}
    (logged : Logged after ticket lsn) : Logged before ticket lsn := by
  have durable : before.log.tryOutcome ticket = some ⟨lsn, true⟩ := by
    rw [DurableAdmissionLog.tryOutcome, ← outcomes]
    exact logged.durable
  obtain ⟨record, listed, external⟩ := logged.record
  obtain ⟨later, more⟩ := grows
  rw [← more, List.getElem?_append_left (tracked.tickets _ _ durable)] at listed
  exact ⟨⟨record, listed, external⟩, durable⟩

/-- Between two polls every durable command up to the LSN of the buffer was handed over. -/
theorem Tracked.handedOver (tracked : Tracked before last) (idle : before.polling = none)
    {ticket : DurableTicket} {lsn : UInt64} (logged : Logged before ticket lsn)
    (below : lsn ≤ before.target.includedDurableLsn) : HandedOver before.handed lsn := by
  obtain ⟨record, listed, external⟩ := logged.record
  obtain ⟨ingress, pending, found, own⟩ | ⟨outcome, resolved, handed⟩ :=
    tracked.settled ticket record listed external
  · exact absurd below (tracked.above idle ⟨pending, found, own ▸ logged.durable⟩)
  · obtain rfl := Option.some.inj (resolved.symm.trans logged.durable)
    exact handed rfl

end Keep

theorem included_internal (buffer : CommandBuffer) (commands : List (UInt64 × CommandPayload)) :
    (commands.foldl GatewayLoop.enqueueInternal buffer).includedDurableLsn =
      buffer.includedDurableLsn := by
  induction commands generalizing buffer with
  | nil => rfl
  | cons command rest ih => exact (ih _).trans (included_unlogged buffer _ _ rfl)

structure LoopTracked (loop : GatewayLoop) : Prop where
  admissible : loop.admission.Admissible
  submitter : loop.admission.submitter = some CommandBuffer.enqueue
  tracked : Tracked loop.admission loop.wal.lastLsn
  captured : ∀ capture ∈ loop.captures, capture.includedLsn ≤ loop.wal.lastLsn
  complete : CapturesComplete loop

namespace LoopTracked

variable {before after : GatewayLoop}

/-- A step that only adds to the log leaves the captures complete. -/
theorem complete_outside (held : LoopTracked before)
    (captures : after.captures = before.captures)
    (outcomes : after.admission.log.outcomes = before.admission.log.outcomes)
    (grows : before.admission.log.appended <+: after.admission.log.appended) :
    CapturesComplete after := by
  intro capture member ticket lsn logged below
  rw [captures] at member
  exact held.complete capture member ticket lsn
    (held.tracked.logged_outside outcomes grows logged) below

theorem admission {event : AdmissionEvent} {admission : AdmissionSystem CommandBuffer}
    (held : LoopTracked before) (own : ∀ ticket outcome, event ≠ .fulfill ticket outcome)
    (behind : LeavesNoneBehind before (.admission event))
    (moved : before.admission.step event = some admission)
    (admissible : admission.Admissible) :
    LoopTracked { before with admission := admission } := by
  obtain ⟨kept, calls⟩ := AdmissionSystem.step_calls moved
  have submitter := kept.trans held.submitter
  obtain ⟨ticket, outcome, _, rfl, -, -⟩ | ⟨ingress, rest, rfl, polling, rfl⟩ |
    ⟨rfl, polling, rfl⟩ | ⟨idle, main⟩ := AdmissionSystem.step_cases moved
  · exact absurd rfl (own ticket outcome)
  · have log : (before.admission.pollEntry ingress).log = before.admission.log :=
      AdmissionSystem.log_pollEntry
    refine ⟨admissible, submitter, held.tracked.pollEntry held.submitter polling
      (behind ingress rest · polling), held.captured, held.complete_outside rfl ?_ ?_⟩
    · exact congrArg DurableAdmissionLog.outcomes log
    · exact (congrArg DurableAdmissionLog.appended log).symm ▸ List.prefix_refl _
  · exact ⟨admissible, submitter, held.tracked.pollEnd polling, held.captured,
      held.complete_outside rfl rfl (List.prefix_refl _)⟩
  · have waiting := AdmissionSystem.stepMain_waiting main
    have outcomes : admission.log.outcomes = before.admission.log.outcomes := by
      obtain ⟨logs, -⟩ | ⟨_, _, registers⟩ := waiting
      · exact logs.outcomes
      · exact registers.outcomes
    have outside : Outside before.admission admission := by
      obtain quiet | ⟨call, ⟨⟨submit, given, target⟩, recorded⟩, now⟩ |
        ⟨_, _, _, _, polled, -⟩ := calls
      · exact ⟨idle, quiet.handed ▸ List.Subset.refl _, by rw [quiet.target], outcomes⟩
      · obtain rfl := Option.some.inj (given.symm.trans held.submitter)
        refine ⟨idle, recorded ▸ List.subset_append_left _ _, ?_, outcomes⟩
        rw [target]
        exact included_unlogged _ _ _ now.unlogged
      · obtain ⟨rest, polling⟩ := polled.visiting
        rw [idle] at polling
        cases polling
    obtain ⟨logs, same⟩ | ⟨pending, record, registers⟩ := waiting
    · obtain ⟨records, more, -⟩ := logs.appended
      exact ⟨admissible, submitter, held.tracked.logsOutcomes outside logs same, held.captured,
        held.complete_outside rfl outcomes ⟨records, more.symm⟩⟩
    · exact ⟨admissible, submitter,
        held.tracked.registers outside held.admissible.filed registers, held.captured,
        held.complete_outside rfl outcomes ⟨[record], registers.appended.symm⟩⟩

theorem fulfillNext {outcome : DurableAppendOutcome} {wal : WalProgress}
    (held : LoopTracked before) (advances : GatewayLoop.Advances before.wal outcome wal)
    (fulfilled : before.fulfillNext outcome wal = some after) (admissible : after.admission.Admissible) :
    LoopTracked after := by
  obtain ⟨log, resolved, rfl⟩ := GatewayLoop.fulfillNext_cases fulfilled
  obtain ⟨-, -, appended, own, others⟩ := DurableAdmissionLog.fulfill_shape resolved
  refine ⟨admissible, held.submitter,
    held.tracked.fulfill resolved advances.last advances.assigned, fun capture member =>
      UInt64.le_trans (held.captured capture member) advances.last, ?_⟩
  rintro capture member ticket lsn ⟨record, durable⟩ below
  change log.tryOutcome ticket = _ at durable
  change ∃ found, log.appended[ticket]? = some found ∧ _ at record
  rw [appended] at record
  by_cases same : ticket = before.wal.fulfilled
  · obtain rfl := Option.some.inj (own.symm.trans (same ▸ durable))
    have past := UInt64.lt_of_lt_of_le (advances.assigned rfl).1
      (UInt64.le_trans below (held.captured capture member))
    exact absurd past (UInt64.lt_irrefl _)
  · exact held.complete capture member ticket lsn
      ⟨record, (others ticket same).symm.trans durable⟩ below

theorem step {event : LoopEvent} (held : LoopTracked before)
    (behind : LeavesNoneBehind before event) (stepped : before.step event = some after) :
    LoopTracked after := by
  have admissible := GatewayLoop.step_admissible held.admissible stepped
  obtain ⟨inner, admission, rfl, moved, rfl⟩ | ⟨outcome, wal, advances, fulfilled⟩ |
    ⟨targetTick, payload, idle, rfl⟩ | ⟨world, internal, accepts, idle, rfl⟩ | ⟨idle, rfl⟩ :=
    GatewayLoop.step_cases stepped
  · refine held.admission ?_ behind moved admissible
    rintro ticket outcome rfl
    cases stepped
  · exact held.fulfillNext advances fulfilled admissible
  · have outside : Outside before.admission (before.setBuffer
        (GatewayLoop.enqueueInternal before.buffer (targetTick, payload))).admission :=
      ⟨idle, List.Subset.refl _, included_unlogged before.buffer _ _ rfl, rfl⟩
    exact ⟨admissible, held.submitter, held.tracked.logsOutcomes outside (.of_log rfl) rfl,
      held.captured, held.complete_outside rfl rfl (List.prefix_refl _)⟩
  · let report := (before.buffer.apply before.world before.clock).1
    let ran := (before.setBuffer (internal.foldl GatewayLoop.enqueueInternal
      (before.buffer.apply before.world before.clock).2.1)).admission
    obtain ⟨quiet, kept⟩ := ran.onCommandsApplied_quiet report accepts
    have same_log : AdmissionSystem.LogsOutcomes before.admission ran := .of_log rfl
    have logs := same_log.trans (ran.onCommandsApplied_logs report accepts)
    have outside : Outside before.admission (ran.onCommandsApplied report accepts) := by
      refine ⟨idle, quiet.handed ▸ List.Subset.refl _, ?_, logs.outcomes⟩
      rw [quiet.target]
      refine (included_internal _ internal).trans ?_
      rw [CommandBuffer.apply_buffer]
      rfl
    have waiting := (ran.onCommandsApplied_effect report accepts).2.1
    obtain ⟨records, more, -⟩ := logs.appended
    exact ⟨admissible, kept.trans held.submitter, held.tracked.logsOutcomes outside logs waiting,
      held.captured, held.complete_outside rfl logs.outcomes ⟨records, more.symm⟩⟩
  · refine ⟨admissible, held.submitter, held.tracked, ?_, ?_⟩
    · intro capture member
      obtain old | new := List.mem_append.mp member
      · exact held.captured capture old
      · rw [List.mem_singleton.mp new]
        exact held.tracked.included
    · intro capture member ticket lsn logged below
      obtain old | new := List.mem_append.mp member
      · exact held.complete capture old ticket lsn logged below
      · rw [List.mem_singleton.mp new] at below ⊢
        exact held.tracked.handedOver idle logged below

end LoopTracked

theorem start_tracked (config : GatewayConfig) (authorization : AuthorizationPolicy)
    (index : DurableIdempotencyIndex) (durableLog : Bool) (world : World) (clock : UInt64) :
    LoopTracked (GatewayLoop.start config authorization index durableLog world clock) := by
  refine ⟨AdmissionSystem.start_admissible _ _ _ _ _ _, rfl, ⟨?_, ?_, UInt64.le_refl _, ?_, ?_⟩,
    ?_, ?_⟩
  · intro ticket outcome resolved
    simp [GatewayLoop.start, AdmissionSystem.start, DurableAdmissionLog.tryOutcome] at resolved
  · intro ticket lsn durable
    simp [GatewayLoop.start, AdmissionSystem.start, DurableAdmissionLog.tryOutcome] at durable
  · rintro ingress lsn ⟨pending, found, -⟩
    simp [GatewayLoop.start, AdmissionSystem.start] at found
  · intro ticket record listed
    simp [GatewayLoop.start, AdmissionSystem.start] at listed
  · exact fun capture member => by cases member
  · exact fun capture member => by cases member

/-- In every run in which no poll leaves a smaller LSN behind, every capture has all durable
commands up to the LSN it records. -/
theorem captures_complete (config : GatewayConfig) (authorization : AuthorizationPolicy)
    (index : DurableIdempotencyIndex) (durableLog : Bool) (world : World) (clock : UInt64)
    {events : List LoopEvent} {loop : GatewayLoop}
    (run : GuardedRun GatewayLoop.Step LeavesNoneBehind
      (GatewayLoop.start config authorization index durableLog world clock) events loop) :
    CapturesComplete loop :=
  (run.invariant (start_tracked config authorization index durableLog world clock)
    fun _ _ _ behind stepped held => held.step behind stepped).complete

/-- The LSN under which the submission waits, when its record is durable. -/
def waitingLsn (system : AdmissionSystem σ) (ingress : UInt64) : Option UInt64 :=
  (system.gateway.pendingDurable[ingress]?).bind fun pending =>
    (system.log.tryOutcome pending.ticket).bind fun outcome =>
      if outcome.ok then some outcome.lsn else none

theorem waitingLsn_of_waits {system : AdmissionSystem σ} {ingress lsn : UInt64}
    (waits : WaitsDurable system ingress lsn) : waitingLsn system ingress = some lsn := by
  obtain ⟨pending, found, durable⟩ := waits
  simp [waitingLsn, found, durable]

def leavesNoneBehindCheck (loop : GatewayLoop) : LoopEvent → Bool
  | .admission .pollNext =>
    match loop.admission.polling with
    | some (ingress :: rest) =>
      (waitingLsn loop.admission ingress).all fun lsn =>
        loop.admission.gateway.pendingDurable.keys.all fun other =>
          other == ingress || rest.contains other ||
            (waitingLsn loop.admission other).all fun earlier => decide (lsn < earlier)
    | _ => true
  | _ => true

theorem leavesNoneBehindCheck_sound (loop : GatewayLoop) (event : LoopEvent)
    (passed : leavesNoneBehindCheck loop event = true) : LeavesNoneBehind loop event := by
  unfold LeavesNoneBehind
  split
  · intro ingress rest lsn polling waits other earlier different waits_other before
    have listed : other ∈ loop.admission.gateway.pendingDurable.keys := by
      obtain ⟨pending, found, -⟩ := waits_other
      rw [Std.ExtTreeMap.mem_keys, Std.ExtTreeMap.mem_iff_isSome_getElem?, found]
      rfl
    simp only [leavesNoneBehindCheck, polling, waitingLsn_of_waits waits, Option.all_some,
      List.all_eq_true] at passed
    have checked := passed other listed
    simp only [waitingLsn_of_waits waits_other, Option.all_some, Bool.or_eq_true, beq_iff_eq,
      List.contains_iff_mem, decide_eq_true_eq] at checked
    obtain (same | later) | above := checked
    · exact absurd same different
    · exact later
    · exact absurd above (UInt64.not_lt.mpr before)
  · trivial

/-- The LSNs that captures record, with the LSNs handed over before them. -/
def capturedLsns (loop : GatewayLoop) : List (UInt64 × List UInt64) :=
  loop.captures.map fun capture =>
    (capture.includedLsn, capture.handed.map fun call => call.meta.durableLsn)

/-- A poll that visits the second submission first, and a capture. -/
theorem captures_complete_reordered :
    ∃ loop, runLabels GatewayLoop.step startedLoop
        (twoDurableEvents ++ pollEvents [2, 1] ++ [.capture]) = some loop ∧
      capturedLsns loop = [(2, [2, 1])] ∧ CapturesComplete loop := by
  have computed : (runLabels (fun loop event =>
      if leavesNoneBehindCheck loop event then loop.step event else none) startedLoop
        (twoDurableEvents ++ pollEvents [2, 1] ++ [.capture])).map capturedLsns =
          some [(2, [2, 1])] := by
    decide +kernel
  obtain ⟨loop, reached, shape⟩ := Option.map_eq_some_iff.mp computed
  have run := GuardedRun.of_checked leavesNoneBehindCheck_sound reached
  exact ⟨loop, run.computed, shape, captures_complete {} openPolicy {} true {} 0 run⟩

/-- Two submissions, of which the first is passed over before both become durable. -/
def passedOverEvents : List LoopEvent :=
  [.admission (.openSession ⟨[97], true⟩), emptyTick,
    .admission (.submitDurableCommand 1 (destroyCommand 1 5 (some firstRequest)) 1 true true),
    .admission (.submitDurableCommand 1 (destroyCommand 2 6 (some secondRequest)) 1 true true),
    .admission (.pollBegin [1, 2]), .admission .pollNext, .commit 1, .commit 2,
    .admission .pollNext, .admission .pollNext, .capture]

theorem captures_complete_fails :
    ¬ ∀ (config : GatewayConfig) (authorization : AuthorizationPolicy)
      (index : DurableIdempotencyIndex) (durableLog : Bool) (world : World) (clock : UInt64)
      (events : List LoopEvent) (loop : GatewayLoop),
      AnyRun GatewayLoop.Step
        (GatewayLoop.start config authorization index durableLog world clock) events loop →
      CapturesComplete loop := by
  intro claim
  have computed : (runLabels GatewayLoop.step startedLoop passedOverEvents).map (fun loop =>
      (capturedLsns loop, loop.admission.log.appended[0]?.map DurableRecord.kind,
        loop.admission.log.tryOutcome 0)) =
      some ([(2, [2])], some .externalCommand, some ⟨1, true⟩) := by
    decide +kernel
  obtain ⟨loop, reached, shape⟩ := Option.map_eq_some_iff.mp computed
  simp only [Prod.mk.injEq] at shape
  obtain ⟨captured, kind, durable⟩ := shape
  have run : AnyRun GatewayLoop.Step startedLoop passedOverEvents loop :=
    GuardedRun.of_runLabels reached fun _ _ => trivial
  have complete := claim {} openPolicy {} true {} 0 _ loop run
  obtain ⟨record, listed, external⟩ := Option.map_eq_some_iff.mp kind
  obtain ⟨capture, only, recorded⟩ := List.map_eq_singleton_iff.mp captured
  obtain ⟨included, handed⟩ := Prod.mk.inj recorded
  obtain ⟨call, member, number⟩ := complete capture (by rw [only]; exact List.mem_singleton_self _)
    0 1 ⟨⟨record, listed, external⟩, durable⟩ (by rw [included]; decide)
  have among : 1 ∈ capture.handed.map fun call => call.meta.durableLsn :=
    List.mem_map.mpr ⟨call, member, number⟩
  rw [handed] at among
  exact absurd among (by decide)

end GeoWorld.Gateway
