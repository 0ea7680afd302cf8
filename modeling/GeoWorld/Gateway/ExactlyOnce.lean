import Mathlib
import GeoWorld.Gateway.DurableOnce

/-!
Exactly-once durable admission within one process: what the ledger gives for callbacks
and hand-overs, that a finished poll has answered every submission whose ticket was
resolved before it, and that a conflicting submission changes nothing.
-/

namespace GeoWorld.Gateway

open WorldModel Library Simulation

variable {σ : Type}

namespace AdmissionSystem

section PollEntry

variable {system : AdmissionSystem σ} {ingress : UInt64}

@[simp] theorem log_pollEntry : (system.pollEntry ingress).log = system.log := by
  unfold pollEntry
  split
  · rfl
  · split
    · rfl
    · dsimp only
      split
      · unfold admitPending
        dsimp only
        split <;> simp [complete, storeReceipt, addPendingCommand, setIndex, extractPending]
      · rfl

theorem answered_pollEntry {callback : Nat} (answered : callback ∈ system.ledger.answered)
    (filed : system.PendingFiled) : callback ∈ (system.pollEntry ingress).ledger.answered := by
  have kept {before after : OnceLedger DurableKey} (step : OnceLedger.Step before after)
      (member : callback ∈ before.answered) : callback ∈ after.answered := by
    cases step <;> simp [member]
  exact kept (pollEntry_effect system filed ingress).1 answered

/-- A turn of the loop answers the entry it visits when its ticket is resolved. -/
theorem answered_by_pollEntry {pending : PendingDurable} {outcome : DurableAppendOutcome}
    (found : system.gateway.pendingDurable[ingress]? = some pending)
    (resolved : system.log.tryOutcome pending.ticket = some outcome) :
    pending.completion ∈ (system.pollEntry ingress).ledger.answered := by
  simp only [pollEntry, found, resolved]
  split
  · rcases admitPending_ledger (system.extractPending ingress) pending outcome.lsn with
      shape | shape
    · simp [shape]
    · simp [shape]
  · simp [failPending]

/-- The entries a turn does not visit stay. -/
theorem pendingDurable_pollEntry {other : UInt64} (different : other ≠ ingress) :
    (system.pollEntry ingress).gateway.pendingDurable[other]? =
      system.gateway.pendingDurable[other]? := by
  unfold pollEntry
  split
  · rfl
  · split
    · rfl
    · dsimp only
      split
      · rw [(admitPending_frame _ _ _).1]
        exact lookup_erase_ne _ different
      · exact lookup_erase_ne _ different

end PollEntry

/-- During a poll only its own turns and the writer thread act. -/
def PollEvent : AdmissionEvent → Prop
  | .pollNext => True
  | .fulfill _ _ => True
  | _ => False

abbrev Step (before : AdmissionSystem σ) (event : AdmissionEvent)
    (after : AdmissionSystem σ) : Prop :=
  before.step event = some after

/-- An entry whose ticket is resolved is answered, or the loop has yet to visit it. -/
structure Due (ingress : UInt64) (pending : PendingDurable) (outcome : DurableAppendOutcome)
    (system : AdmissionSystem σ) : Prop where
  filed : system.PendingFiled
  resolved : system.log.tryOutcome pending.ticket = some outcome
  turn : pending.completion ∈ system.ledger.answered ∨
    (system.gateway.pendingDurable[ingress]? = some pending ∧
      ∃ rest, system.polling = some rest ∧ ingress ∈ rest)

theorem Due.step {ingress : UInt64} {pending : PendingDurable} {outcome : DurableAppendOutcome}
    {before after : AdmissionSystem σ} {event : AdmissionEvent}
    (due : Due ingress pending outcome before) (polls : PollEvent event)
    (stepped : before.step event = some after) : Due ingress pending outcome after := by
  rcases step_cases stepped with ⟨ticket, result, log, _, fulfilled, rfl⟩ |
    ⟨visited, rest, _, polling, rfl⟩ | ⟨_, polling, rfl⟩ | ⟨_, main⟩
  · refine ⟨due.filed.same rfl (UInt64.le_refl _), ?_, due.turn⟩
    unfold DurableAdmissionLog.fulfill at fulfilled
    split at fulfilled
    · rename_i free
      obtain rfl := Option.some.inj fulfilled
      have different : pending.ticket ≠ ticket := by
        rintro rfl
        have resolved := due.resolved
        rw [DurableAdmissionLog.tryOutcome, free.2] at resolved
        cases resolved
      exact (lookup_insert_ne _ different _).trans due.resolved
    · cases fulfilled
  · refine ⟨(pollEntry_effect before due.filed visited).2.same rfl (UInt64.le_refl _), ?_, ?_⟩
    · simpa using due.resolved
    · rcases due.turn with answered | ⟨found, left, polling', member⟩
      · exact .inl (answered_pollEntry answered due.filed)
      · rw [polling] at polling'
        obtain rfl := Option.some.inj polling'
        by_cases same : ingress = visited
        · subst same
          exact .inl (answered_by_pollEntry found due.resolved)
        · have later : ingress ∈ rest := (List.mem_cons.mp member).resolve_left same
          exact .inr ⟨(pendingDurable_pollEntry same).trans found, rest, rfl, later⟩
  · refine ⟨due.filed.same rfl (UInt64.le_refl _), due.resolved, ?_⟩
    rcases due.turn with answered | ⟨_, left, polling', member⟩
    · exact .inl answered
    · rw [polling] at polling'
      obtain rfl := Option.some.inj polling'
      cases member
  · cases event with
    | fulfill ticket result => cases main
    | pollNext => cases main
    | _ => exact polls.elim

/-- When a poll is over, every submission whose ticket was resolved when it began is
answered, in whatever order the loop went and whatever was fulfilled meanwhile. -/
theorem poll_answers {system begun after : AdmissionSystem σ} (filed : system.PendingFiled)
    {order : List UInt64} (begins : system.step (.pollBegin order) = some begun)
    {events : List AdmissionEvent}
    (run : GuardedRun Step (fun _ event => PollEvent event) begun events after)
    (ended : after.polling = none) {ingress : UInt64} {pending : PendingDurable}
    (found : system.gateway.pendingDurable[ingress]? = some pending)
    {outcome : DurableAppendOutcome}
    (resolved : system.log.tryOutcome pending.ticket = some outcome) :
    pending.completion ∈ after.completions.map Completion.callback := by
  have due : Due ingress pending outcome begun := by
    rcases step_cases begins with ⟨_, _, _, impossible, _, _⟩ | ⟨_, _, impossible, _, _⟩ |
      ⟨impossible, _, _⟩ | ⟨_, main⟩
    · cases impossible
    · cases impossible
    · cases impossible
    · simp only [stepMain] at main
      split at main
      · rename_i listed
        obtain rfl := Option.some.inj main
        refine ⟨filed.same rfl (UInt64.le_refl _), resolved, .inr ⟨found, order, rfl, ?_⟩⟩
        rw [(List.isPerm_iff.mp listed).mem_iff, Std.ExtTreeMap.mem_keys,
          Std.ExtTreeMap.mem_iff_isSome_getElem?, found]
        rfl
      · cases main
  have final : Due ingress pending outcome after :=
    run.invariant due fun _ _ _ polls stepped due => due.step polls stepped
  rcases final.turn with answered | ⟨_, rest, polling, _⟩
  · exact answered
  · rw [ended] at polling
    cases polling

/-- A poll is never stuck: one turn for each pending submission and one to leave. -/
theorem poll_finishes (system : AdmissionSystem σ) (idle : system.polling = none)
    {order : List UInt64} (listed : order.Perm system.gateway.pendingDurable.keys) :
    ∃ after, runLabels step system
        (.pollBegin order :: List.replicate (order.length + 1) .pollNext) = some after ∧
      after.polling = none := by
  have turns (rest : List UInt64) (current : AdmissionSystem σ)
      (polling : current.polling = some rest) :
      ∃ after, runLabels step current (List.replicate (rest.length + 1) .pollNext) =
        some after ∧ after.polling = none := by
    induction rest generalizing current with
    | nil => exact ⟨{ current with polling := none }, by simp [runLabels, step, polling], rfl⟩
    | cons ingress rest ih =>
      obtain ⟨after, reached, ended⟩ := ih { current.pollEntry ingress with polling := some rest }
        rfl
      refine ⟨after, ?_, ended⟩
      rw [List.length_cons, List.replicate_succ, runLabels]
      simpa [step, polling] using reached
  obtain ⟨after, reached, ended⟩ := turns order { system.sweepOutcomeTickets with
    polling := some order } rfl
  refine ⟨after, ?_, ended⟩
  simp only [runLabels, step, idle, stepMain, List.isPerm_iff.mpr listed, if_true,
    Option.bind_some]
  exact reached

/-- A submission under a key registered with other content. -/
theorem submitDurableCommand_conflict (system : AdmissionSystem σ) {id : SessionId}
    {command : ExternalCommand} (currentTick : UInt64) (budget accepts : Bool)
    {info : SessionInfo} {key : DurableKey} {slot : DurableSlot}
    (keyed : system.submissionKey id command = some (info, key))
    (registered : system.gateway.durableIndex.slots[key]? = some slot)
    (differs : slot.fingerprint ≠ makeCommandFingerprint command) :
    system.submitDurableCommand id command currentTick budget accepts =
      { system with callbacks := system.callbacks + 1 }.complete system.callbacks
        .idempotencyConflict (rejectedReceipt command .idempotencyConflict) := by
  have found : system.gateway.durableIndex.lookup key (makeCommandFingerprint command) =
      some (slot.entry, false) := by
    simp [DurableIdempotencyIndex.lookup, registered, differs]
  have keyed' : ({ system with callbacks := system.callbacks + 1 } :
      AdmissionSystem σ).submissionKey id command = some (info, key) := keyed
  simp only [submitDurableCommand, keyed', found]

end AdmissionSystem

/-- What a process owes its clients after any run: every callback is called at most once and
is called or still waits; a finished poll has called those whose tickets were resolved when
it began, and polls finish; a durable command is handed to the submitter at most once; a
submission that differs from the registered one is refused and changes no entry. -/
structure DurableExactlyOnce (system : AdmissionSystem σ) : Prop where
  called_once : (system.completions.map Completion.callback).Nodup
  called_or_waiting : ∀ callback < system.callbacks,
    callback ∈ system.completions.map Completion.callback ∨
      ∃ (ingress : UInt64) (pending : PendingDurable),
        system.gateway.pendingDurable[ingress]? = some pending ∧ pending.completion = callback
  called_when_resolved : ∀ order begun events after,
    system.step (.pollBegin order) = some begun →
    GuardedRun AdmissionSystem.Step (fun _ event => AdmissionSystem.PollEvent event)
      begun events after →
    after.polling = none →
    ∀ (ingress : UInt64) (pending : PendingDurable) (outcome : DurableAppendOutcome),
      system.gateway.pendingDurable[ingress]? = some pending →
      system.log.tryOutcome pending.ticket = some outcome →
      pending.completion ∈ after.completions.map Completion.callback
  polls_finish : system.polling = none →
    ∀ order : List UInt64, order.Perm system.gateway.pendingDurable.keys →
    ∃ after, runLabels AdmissionSystem.step system
        (.pollBegin order :: List.replicate (order.length + 1) .pollNext) = some after ∧
      after.polling = none
  handed_once : (system.handed.filterMap HandOver.durableKey).Nodup
  conflicts_refused : ∀ id command currentTick budget accepts info key slot after,
    system.submissionKey id command = some (info, key) →
    system.gateway.durableIndex.slots[key]? = some slot →
    slot.fingerprint ≠ makeCommandFingerprint command →
    system.step (.submitDurableCommand id command currentTick budget accepts) = some after →
    after.completions = system.completions ++ [⟨system.callbacks, .idempotencyConflict,
      AdmissionSystem.rejectedReceipt command .idempotencyConflict⟩] ∧
    after.gateway = system.gateway

theorem durableExactlyOnce_of_admissible {system : AdmissionSystem σ}
    (admissible : system.Admissible) : DurableExactlyOnce system where
  called_once := admissible.sound.answered_once
  called_or_waiting := by
    intro callback below
    rcases admissible.sound.settled callback below with answered | ⟨key, waits⟩
    · exact .inl answered
    · obtain ⟨ingress, pending, found, same⟩ := waits
      exact .inr ⟨ingress, pending, found, (congrArg Prod.snd same).symm⟩
  called_when_resolved := by
    intro order begun events after begins run ended ingress pending outcome found resolved
    exact AdmissionSystem.poll_answers admissible.filed begins run ended found resolved
  polls_finish := by
    intro idle order listed
    exact system.poll_finishes idle listed
  handed_once := admissible.sound.delivered_once
  conflicts_refused := by
    intro id command currentTick budget accepts info key slot after keyed registered differs
      stepped
    rcases AdmissionSystem.step_cases stepped with ⟨_, _, _, impossible, _, _⟩ |
      ⟨_, _, impossible, _, _⟩ | ⟨impossible, _, _⟩ | ⟨_, main⟩
    · cases impossible
    · cases impossible
    · cases impossible
    · simp only [AdmissionSystem.stepMain, Option.some.injEq] at main
      rw [system.submitDurableCommand_conflict currentTick budget accepts keyed registered
        differs] at main
      subst main
      exact ⟨rfl, rfl⟩

/-- For every submitter, every restored index and every run of a process. -/
theorem durable_admission_exactly_once (config : GatewayConfig)
    (authorization : AuthorizationPolicy) (index : DurableIdempotencyIndex)
    (durableLog : Bool) (submitter : Option (CommandSubmitter σ)) (target : σ)
    {events : List (ProcessEvent σ)} {system : AdmissionSystem σ}
    (run : AnyRun AdmissionSystem.ProcessStep
      (AdmissionSystem.start config authorization index durableLog submitter target)
      events system) : DurableExactlyOnce system :=
  durableExactlyOnce_of_admissible (AdmissionSystem.admissible_of_run run)

def openPolicy : AuthorizationPolicy := ⟨fun _ _ _ => true, fun _ => true⟩

def firstRequest : DurableRequestId := Vector.replicate durableRequestIdBytes 1

def secondRequest : DurableRequestId := Vector.replicate durableRequestIdBytes 2

/-- Session 1 asks for an object to be destroyed as soon as possible. -/
def destroyCommand (clientSequence : UInt64) (target : WorldId)
    (requestId : Option DurableRequestId) : ExternalCommand :=
  { session := 1
    clientSequence := clientSequence
    targetWid := target
    params := .destroyObject
    requestId := requestId }

def startedGateway : AdmissionSystem CommandBuffer :=
  AdmissionSystem.start {} openPolicy {} true (some CommandBuffer.enqueue) {}

/-- A submission, its retry, a conflicting one, and the poll during which the ticket of the
first is fulfilled. -/
def retriedEvents : List AdmissionEvent :=
  [.openSession ⟨[97], true⟩,
    .submitDurableCommand 1 (destroyCommand 1 5 (some firstRequest)) 0 true true,
    .submitDurableCommand 1 (destroyCommand 1 5 (some firstRequest)) 0 true true,
    .submitDurableCommand 1 (destroyCommand 2 6 (some firstRequest)) 0 true true,
    .pollBegin [1], .fulfill 0 ⟨1, true⟩, .pollNext, .pollNext]

theorem durable_admission_exactly_once_retried :
    ∃ system, runLabels AdmissionSystem.processStep startedGateway
        (retriedEvents.map .gateway) = some system ∧
      system.completions.map Completion.callback = [1, 2, 0] ∧
      (system.handed.filterMap HandOver.durableKey).length = 1 ∧
      DurableExactlyOnce system := by
  have computed : (runLabels AdmissionSystem.processStep startedGateway
      (retriedEvents.map .gateway)).map (fun system =>
        (system.completions.map Completion.callback,
          (system.handed.filterMap HandOver.durableKey).length)) = some ([1, 2, 0], 1) := by
    decide +kernel
  obtain ⟨system, reached, shape⟩ := Option.map_eq_some_iff.mp computed
  simp only [Prod.mk.injEq] at shape
  have run : AnyRun AdmissionSystem.ProcessStep startedGateway (retriedEvents.map .gateway)
      system := GuardedRun.of_runLabels reached fun _ _ => trivial
  exact ⟨system, reached, shape.1, shape.2, durable_admission_exactly_once {} openPolicy {} true
    (some CommandBuffer.enqueue) {} run⟩

end GeoWorld.Gateway
