import Mathlib
import GeoWorld.Gateway.DurableOnce

/-!
Where commands enter the state behind the submitter: a step of the gateway either leaves
that state alone or makes exactly one call of the submitter, for a command admitted just
now or for a pending submission whose record is durable.
-/

namespace GeoWorld.Gateway

open WorldModel Library Simulation

variable {σ : Type}

namespace AdmissionSystem

/-- The metadata a durable command is handed over with. -/
def durableMeta (pending : PendingDurable) (lsn : UInt64) : CommandMeta :=
  { ingressSequence := pending.ingressSequence
    expectedObjectVersion := pending.expectedObjectVersion
    durableLsn := lsn }

/-- One call of the submitter between two states. -/
structure Calls (before after : AdmissionSystem σ) (call : HandOver) : Prop where
  called : ∃ submit, before.submitter = some submit ∧
    after.target = (submit before.target call.targetTick call.payload call.meta).2
  recorded : after.handed = before.handed ++ [call]

/-- No call of the submitter between two states. -/
structure Quiet (before after : AdmissionSystem σ) : Prop where
  target : after.target = before.target
  handed : after.handed = before.handed

theorem Quiet.refl (system : AdmissionSystem σ) : Quiet system system := ⟨rfl, rfl⟩

theorem handOver_calls (system : AdmissionSystem σ) (durableKey : Option DurableKey)
    (targetTick : UInt64) (payload : CommandPayload) («meta» : CommandMeta) :
    Quiet system (system.handOver durableKey targetTick payload «meta»).2 ∨
      Calls system (system.handOver durableKey targetTick payload «meta»).2
        ⟨durableKey, targetTick, payload, «meta»⟩ := by
  unfold handOver
  split
  · exact .inl ⟨rfl, rfl⟩
  · rename_i submit given
    exact .inr ⟨⟨submit, given, rfl⟩, rfl⟩

@[simp] theorem submitter_handOver (system : AdmissionSystem σ) (durableKey : Option DurableKey)
    (targetTick : UInt64) (payload : CommandPayload) («meta» : CommandMeta) :
    (system.handOver durableKey targetTick payload «meta»).2.submitter = system.submitter := by
  unfold handOver
  split <;> rfl

/-- A command of the in-process path, numbered by this step. -/
structure AdmittedNow (before after : AdmissionSystem σ) (call : HandOver) : Prop where
  plain : call.durableKey = none
  unlogged : call.meta.durableLsn = 0
  number : call.meta.ingressSequence = before.gateway.ingressSequence + 1
  room : before.gateway.ingressSequence < before.gateway.ingressSequence + 1
  counted : after.gateway.ingressSequence = before.gateway.ingressSequence + 1

theorem submitCommand_calls (system : AdmissionSystem σ) (id : SessionId)
    (command : ExternalCommand) (currentTick : UInt64) (budget : Bool) :
    Quiet system (system.submitCommand id command currentTick budget).2 ∨
      ∃ call, Calls system (system.submitCommand id command currentTick budget).2 call ∧
        AdmittedNow system (system.submitCommand id command currentTick budget).2 call := by
  unfold submitCommand
  split
  · exact .inl (.refl system)
  · split
    · exact .inl (.refl system)
    · split
      · exact .inl (.refl system)
      · split
        · exact .inl (.refl system)
        · rename_i decision _
          split
          · exact .inl (.refl system)
          · split
            · exact .inl (.refl system)
            · rename_i room
              have outcome := handOver_calls (system.setIngress
                (system.gateway.ingressSequence + 1)) none decision.targetTick decision.payload {
                  ingressSequence := system.gateway.ingressSequence + 1
                  expectedObjectVersion := command.expectedObjectVersion }
              dsimp only
              split
              · exact outcome.imp (fun quiet => ⟨quiet.target, quiet.handed⟩) fun calls =>
                  ⟨_, ⟨calls.called, calls.recorded⟩, rfl, rfl, rfl, next_ingress room, by
                    rw [gateway_handOver]
                    rfl⟩
              · exact outcome.imp (fun quiet => ⟨quiet.target, quiet.handed⟩) fun calls =>
                  ⟨_, ⟨calls.called, calls.recorded⟩, rfl, rfl, rfl, next_ingress room, by
                    simp [storeReceipt, addPendingCommand, setIngress]⟩

theorem admitPending_calls (system : AdmissionSystem σ) (pending : PendingDurable)
    (lsn : UInt64) :
    Quiet system (system.admitPending pending lsn) ∨
      Calls system (system.admitPending pending lsn)
        ⟨some pending.key, pending.targetTick, pending.payload, durableMeta pending lsn⟩ := by
  have outcome := handOver_calls (system.setIndex (system.gateway.durableIndex.markDurableAccepted
    pending.key lsn pending.ingressSequence)) (some pending.key) pending.targetTick
      pending.payload (durableMeta pending lsn)
  unfold admitPending
  dsimp only
  split
  · exact outcome.imp (fun quiet => ⟨quiet.target, quiet.handed⟩) fun calls =>
      ⟨calls.called, calls.recorded⟩
  · exact outcome.imp (fun quiet => ⟨quiet.target, quiet.handed⟩) fun calls =>
      ⟨calls.called, calls.recorded⟩

/-- A pending submission that the poll loop visits with its record durable. -/
structure AdmittedByPoll (before : AdmissionSystem σ) (ingress : UInt64)
    (pending : PendingDurable) (outcome : DurableAppendOutcome) : Prop where
  visiting : ∃ rest, before.polling = some (ingress :: rest)
  found : before.gateway.pendingDurable[ingress]? = some pending
  resolved : before.log.tryOutcome pending.ticket = some outcome
  ok : outcome.ok = true

theorem commandApplied_quiet (accepts : CommandOutcome → Bool) (system : AdmissionSystem σ)
    (outcome : CommandOutcome) : Quiet system (commandApplied accepts system outcome) ∧
      (commandApplied accepts system outcome).submitter = system.submitter := by
  unfold commandApplied
  split
  · exact ⟨.refl system, rfl⟩
  · dsimp only
    split
    · exact ⟨⟨rfl, rfl⟩, rfl⟩
    · split
      · exact ⟨⟨rfl, rfl⟩, rfl⟩
      · split
        · exact ⟨⟨rfl, rfl⟩, rfl⟩
        · exact ⟨⟨rfl, rfl⟩, rfl⟩

theorem onCommandsApplied_quiet (system : AdmissionSystem σ) (report : ApplyReport)
    (accepts : CommandOutcome → Bool) : Quiet system (system.onCommandsApplied report accepts) ∧
      (system.onCommandsApplied report accepts).submitter = system.submitter := by
  unfold onCommandsApplied
  induction report.outcomes generalizing system with
  | nil => exact ⟨.refl system, rfl⟩
  | cons outcome rest ih =>
    obtain ⟨first, kept⟩ := commandApplied_quiet accepts system outcome
    obtain ⟨later, kept'⟩ := ih (commandApplied accepts system outcome)
    exact ⟨⟨later.target.trans first.target, later.handed.trans first.handed⟩,
      kept'.trans kept⟩

theorem submitDurableCommand_quiet (system : AdmissionSystem σ) (id : SessionId)
    (command : ExternalCommand) (currentTick : UInt64) (budget accepts : Bool) :
    Quiet system (system.submitDurableCommand id command currentTick budget accepts) ∧
      (system.submitDurableCommand id command currentTick budget accepts).submitter =
        system.submitter := by
  unfold submitDurableCommand
  dsimp only
  split
  · exact ⟨⟨rfl, rfl⟩, rfl⟩
  · split
    · exact ⟨⟨rfl, rfl⟩, rfl⟩
    · exact ⟨⟨rfl, rfl⟩, rfl⟩
    · split
      · exact ⟨⟨rfl, rfl⟩, rfl⟩
      · split
        · exact ⟨⟨rfl, rfl⟩, rfl⟩
        · split
          · exact ⟨⟨rfl, rfl⟩, rfl⟩
          · split
            · exact ⟨⟨rfl, rfl⟩, rfl⟩
            · exact ⟨⟨rfl, rfl⟩, rfl⟩

theorem submitter_submitCommand (system : AdmissionSystem σ) (id : SessionId)
    (command : ExternalCommand) (currentTick : UInt64) (budget : Bool) :
    (system.submitCommand id command currentTick budget).2.submitter = system.submitter := by
  unfold submitCommand
  split
  · rfl
  · split
    · rfl
    · split
      · rfl
      · split
        · rfl
        · split
          · rfl
          · split
            · rfl
            · dsimp only
              split
              · rw [submitter_handOver]
                rfl
              · simp [storeReceipt, addPendingCommand, setIngress]

theorem submitter_pollEntry (system : AdmissionSystem σ) (ingress : UInt64) :
    (system.pollEntry ingress).submitter = system.submitter := by
  unfold pollEntry
  split
  · rfl
  · split
    · rfl
    · dsimp only
      split
      · unfold admitPending
        dsimp only
        split <;>
          simp [complete, storeReceipt, addPendingCommand, setIndex, extractPending]
      · rfl

theorem pollEntry_calls (system : AdmissionSystem σ) (ingress : UInt64) :
    Quiet system (system.pollEntry ingress) ∨ ∃ pending outcome,
      system.gateway.pendingDurable[ingress]? = some pending ∧
      system.log.tryOutcome pending.ticket = some outcome ∧ outcome.ok = true ∧
      Calls system (system.pollEntry ingress)
        ⟨some pending.key, pending.targetTick, pending.payload,
          durableMeta pending outcome.lsn⟩ := by
  unfold pollEntry
  split
  · exact .inl (.refl system)
  · rename_i pending found
    split
    · exact .inl (.refl system)
    · rename_i outcome resolved
      dsimp only
      split
      · rename_i ok
        exact (admitPending_calls (system.extractPending ingress) pending outcome.lsn).imp
          (fun quiet => ⟨quiet.target, quiet.handed⟩) fun calls =>
            ⟨pending, outcome, found, resolved, ok, calls.called, calls.recorded⟩
      · exact .inl ⟨rfl, rfl⟩

/-- Every way a step can reach the submitter. -/
theorem step_calls {before after : AdmissionSystem σ} {event : AdmissionEvent}
    (stepped : before.step event = some after) : after.submitter = before.submitter ∧
      (Quiet before after ∨
        (∃ call, Calls before after call ∧ AdmittedNow before after call) ∨
        ∃ ingress pending outcome, event = .pollNext ∧
          AdmittedByPoll before ingress pending outcome ∧
          Calls before after ⟨some pending.key, pending.targetTick, pending.payload,
            durableMeta pending outcome.lsn⟩) := by
  rcases step_cases stepped with ⟨_, _, _, _, _, rfl⟩ | ⟨ingress, rest, same, polling, rfl⟩ |
    ⟨_, _, rfl⟩ | ⟨_, main⟩
  · exact ⟨rfl, .inl ⟨rfl, rfl⟩⟩
  · refine ⟨submitter_pollEntry before ingress, ?_⟩
    rcases pollEntry_calls before ingress with quiet |
      ⟨pending, outcome, found, resolved, ok, calls⟩
    · exact .inl ⟨quiet.target, quiet.handed⟩
    · exact .inr (.inr ⟨ingress, pending, outcome, same, ⟨⟨rest, polling⟩, found, resolved, ok⟩,
        calls.called, calls.recorded⟩)
  · exact ⟨rfl, .inl ⟨rfl, rfl⟩⟩
  · cases event with
    | submitCommand id command currentTick budget =>
      obtain rfl := Option.some.inj main
      refine ⟨submitter_submitCommand before id command currentTick budget, ?_⟩
      exact (submitCommand_calls before id command currentTick budget).imp_right .inl
    | submitDurableCommand id command currentTick budget accepts =>
      obtain rfl := Option.some.inj main
      obtain ⟨quiet, kept⟩ := submitDurableCommand_quiet before id command currentTick budget
        accepts
      exact ⟨kept, .inl quiet⟩
    | onCommandsApplied report accepts =>
      obtain rfl := Option.some.inj main
      obtain ⟨quiet, kept⟩ := onCommandsApplied_quiet before report accepts
      exact ⟨kept, .inl quiet⟩
    | pollBegin order =>
      simp only [stepMain] at main
      split at main
      · obtain rfl := Option.some.inj main
        exact ⟨rfl, .inl ⟨rfl, rfl⟩⟩
      · cases main
    | openSession principal =>
      obtain rfl := Option.some.inj main
      exact ⟨rfl, .inl ⟨rfl, rfl⟩⟩
    | closeSession id =>
      obtain rfl := Option.some.inj main
      exact ⟨rfl, .inl ⟨rfl, rfl⟩⟩
    | acquireOwnership id target keys leaseUntilTick currentTick =>
      obtain rfl := Option.some.inj main
      exact ⟨rfl, .inl ⟨rfl, rfl⟩⟩
    | releaseOwnership id target keys =>
      obtain rfl := Option.some.inj main
      exact ⟨rfl, .inl ⟨rfl, rfl⟩⟩
    | fulfill ticket outcome => cases main
    | pollNext => cases main

theorem ingress_submitDurableCommand (system : AdmissionSystem σ) (id : SessionId)
    (command : ExternalCommand) (currentTick : UInt64) (budget accepts : Bool) :
    system.gateway.ingressSequence ≤
      (system.submitDurableCommand id command currentTick budget accepts).gateway.ingressSequence
      := by
  have same : system.gateway.ingressSequence ≤ system.gateway.ingressSequence :=
    UInt64.le_refl _
  unfold submitDurableCommand
  dsimp only
  split
  · exact same
  · split
    · exact same
    · exact same
    · split
      · exact same
      · split
        · exact same
        · split
          · exact same
          · rename_i room
            split
            · exact same
            · exact UInt64.le_of_lt (next_ingress room)

theorem ingress_pollEntry (system : AdmissionSystem σ) (ingress : UInt64) :
    (system.pollEntry ingress).gateway.ingressSequence = system.gateway.ingressSequence := by
  unfold pollEntry
  split
  · rfl
  · split
    · rfl
    · dsimp only
      split
      · exact (admitPending_frame _ _ _).2
      · rfl

/-- Ingress numbers are never given back. -/
theorem step_ingress {before after : AdmissionSystem σ} {event : AdmissionEvent}
    (stepped : before.step event = some after) :
    before.gateway.ingressSequence ≤ after.gateway.ingressSequence := by
  have same : before.gateway.ingressSequence ≤ before.gateway.ingressSequence :=
    UInt64.le_refl _
  rcases step_cases stepped with ⟨_, _, _, _, _, rfl⟩ | ⟨ingress, rest, _, _, rfl⟩ |
    ⟨_, _, rfl⟩ | ⟨_, main⟩
  · exact same
  · exact (ingress_pollEntry before ingress) ▸ same
  · exact same
  · cases event with
    | submitCommand id command currentTick budget =>
      obtain rfl := Option.some.inj main
      exact (submitCommand_effect before id command currentTick budget).2.2
    | submitDurableCommand id command currentTick budget accepts =>
      obtain rfl := Option.some.inj main
      exact ingress_submitDurableCommand before id command currentTick budget accepts
    | onCommandsApplied report accepts =>
      obtain rfl := Option.some.inj main
      exact (onCommandsApplied_effect before report accepts).2.2 ▸ same
    | pollBegin order =>
      simp only [stepMain] at main
      split at main
      · obtain rfl := Option.some.inj main
        exact same
      · cases main
    | openSession principal =>
      obtain rfl := Option.some.inj main
      exact same
    | closeSession id =>
      obtain rfl := Option.some.inj main
      unfold GatewayAdmission.closeSession
      split
      · exact same
      · exact same
    | acquireOwnership id target keys leaseUntilTick currentTick =>
      obtain rfl := Option.some.inj main
      obtain ⟨ownership, shape⟩ := acquireOwnership_frame before.gateway id target keys
        leaseUntilTick currentTick
      rw [shape]
      exact same
    | releaseOwnership id target keys =>
      obtain rfl := Option.some.inj main
      unfold GatewayAdmission.releaseOwnership
      split
      · exact same
      · exact same
    | fulfill ticket outcome => cases main
    | pollNext => cases main

end AdmissionSystem

end GeoWorld.Gateway
