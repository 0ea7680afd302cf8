import Mathlib
import GeoWorld.Gateway.DurableOnce

/-!
Which sessions the entries of the admission can belong to. No event adds a receipt, a grant or
a command that waits for its outcome but for an open session, save the poll that admits a
durable submission of a session that was closed since.
-/

namespace GeoWorld.Gateway

open WorldModel Library Simulation

variable {σ : Type} {allowed : SessionId → Prop}

/-- What `after` has of a session that is not allowed, `before` has had. -/
structure Grows (allowed : SessionId → Prop) (before after : GatewayAdmission) : Prop where
  sessions : after.sessions.sessions = before.sessions.sessions
  receipts : ∀ key ∈ after.sessions.receipts, key ∈ before.sessions.receipts ∨ allowed key.session
  kept : ∀ key ∈ before.sessions.receipts, key ∈ after.sessions.receipts
  grants : ∀ (key : OwnershipKey) (grant : Grant), after.ownership.grants[key]? = some grant →
    before.ownership.grants[key]? = some grant ∨ allowed grant.owner
  commands : ∀ (ingress : UInt64) (pending : PendingCommand),
    after.pendingCommands[ingress]? = some pending →
      before.pendingCommands[ingress]? = some pending ∨ allowed pending.session ∧
        ⟨pending.session, pending.clientSequence⟩ ∈ after.sessions.receipts

theorem Grows.of_same {before after : GatewayAdmission} (sessions : after.sessions = before.sessions)
    (ownership : after.ownership = before.ownership)
    (commands : after.pendingCommands = before.pendingCommands) : Grows allowed before after where
  sessions := by rw [sessions]
  receipts key member := .inl (sessions ▸ member)
  kept key member := sessions ▸ member
  grants key grant held := .inl (ownership ▸ held)
  commands ingress pending held := .inl (commands ▸ held)

theorem Grows.refl (gateway : GatewayAdmission) : Grows allowed gateway gateway :=
  .of_same rfl rfl rfl

theorem Grows.trans {before middle after : GatewayAdmission} (first : Grows allowed before middle)
    (second : Grows allowed middle after) : Grows allowed before after where
  sessions := second.sessions.trans first.sessions
  receipts key member := by
    obtain old | own := second.receipts key member
    · exact first.receipts key old
    · exact .inr own
  kept key member := second.kept key (first.kept key member)
  grants key grant held := by
    obtain old | own := second.grants key grant held
    · exact first.grants key grant old
    · exact .inr own
  commands ingress pending held := by
    obtain old | own := second.commands ingress pending held
    · refine (first.commands ingress pending old).imp_right fun added => ?_
      exact ⟨added.1, second.kept _ added.2⟩
    · exact .inr own

theorem mem_storeReceipt {manager : SessionManager} {id : SessionId} {receipt : CommandReceipt}
    {key : ReceiptKey} : key ∈ (manager.storeReceipt id receipt).receipts ↔
      key = ⟨id, receipt.clientSequence⟩ ∨ key ∈ manager.receipts := by
  rw [SessionManager.storeReceipt, Std.ExtTreeMap.mem_insert,
    Std.LawfulEqCmp.compare_eq_iff_eq, @eq_comm _ key]

theorem Grows.received {gateway : GatewayAdmission} {id : SessionId} (own : allowed id)
    (receipt : CommandReceipt) :
    Grows allowed gateway { gateway with sessions := gateway.sessions.storeReceipt id receipt } where
  sessions := rfl
  receipts key member := by
    obtain rfl | old := mem_storeReceipt.mp member
    · exact .inr own
    · exact .inl old
  kept key member := mem_storeReceipt.mpr (.inr member)
  grants _ _ held := .inl held
  commands _ _ held := .inl held

/-- A command that waits for its outcome has a receipt. -/
theorem Grows.awaiting {gateway : GatewayAdmission} {pending : PendingCommand}
    (own : allowed pending.session) (ingress : UInt64) {receipt : CommandReceipt}
    (same : receipt.clientSequence = pending.clientSequence) :
    Grows allowed gateway { gateway with
      sessions := gateway.sessions.storeReceipt pending.session receipt
      pendingCommands := gateway.pendingCommands.insertIfNew ingress pending } where
  sessions := rfl
  receipts := (Grows.received own receipt).receipts
  kept := (Grows.received own receipt).kept
  grants _ _ held := .inl held
  commands number command held := by
    simp only [lookup_insertIfNew_or] at held
    obtain old | ⟨-, new⟩ := Option.or_eq_some_iff.mp held
    · exact .inl old
    · split at new
      · obtain rfl := Option.some.inj new
        exact .inr ⟨own, mem_storeReceipt.mpr (.inl (by rw [same]))⟩
      · cases new

theorem acquire_grants {registry : OwnershipRegistry} {id : SessionId} {target : WorldId}
    {key : ByteString} {leaseUntilTick currentTick : UInt64} {other : OwnershipKey} {grant : Grant}
    (held : (registry.acquire id target key leaseUntilTick currentTick).2.grants[other]? =
      some grant) : registry.grants[other]? = some grant ∨ grant.owner = id := by
  have inserted (held : (registry.grants.insert ⟨target, key⟩
      ⟨id, leaseUntilTick⟩)[other]? = some grant) :
      registry.grants[other]? = some grant ∨ grant.owner = id := by
    rw [lookup_insert] at held
    split at held
    · rw [← Option.some.inj held]
      exact .inr rfl
    · exact .inl held
  unfold OwnershipRegistry.acquire at held
  dsimp only at held
  split at held
  · exact inserted held
  split at held
  · exact .inl held
  · exact inserted held

theorem acquireKeys_grows {gateway : GatewayAdmission} {id : SessionId} (own : allowed id)
    (principal : Principal) (target : WorldId) (leaseUntilTick currentTick : UInt64)
    (keys : List ByteString) : Grows allowed gateway (gateway.acquireKeys id principal target
      leaseUntilTick currentTick keys).2 := by
  induction keys generalizing gateway with
  | nil => exact .refl gateway
  | cons key rest ih =>
    unfold GatewayAdmission.acquireKeys
    split
    · exact .refl gateway
    split
    · exact .refl gateway
    · rename_i ownership granted
      have first : Grows allowed gateway { gateway with ownership := ownership } := by
        refine ⟨rfl, fun _ => .inl, fun _ held => held, fun other grant held => ?_, fun _ _ => .inl⟩
        obtain old | same := acquire_grants (by rw [granted]; exact held)
        · exact .inl old
        · exact .inr (same ▸ own)
      exact first.trans ih

theorem acquireOwnership_grows {gateway : GatewayAdmission} {id : SessionId}
    (own : gateway.sessions.find id ≠ none → allowed id) (target : WorldId)
    (keys : List ByteString) (leaseUntilTick currentTick : UInt64) :
    Grows allowed gateway
      (gateway.acquireOwnership id target keys leaseUntilTick currentTick).2 := by
  unfold GatewayAdmission.acquireOwnership
  split
  · exact .refl gateway
  · rename_i known
    split
    · exact .refl gateway
    · exact acquireKeys_grows (own (by rw [known]; simp)) _ target leaseUntilTick currentTick keys

theorem release_grants {registry : OwnershipRegistry} {id : SessionId} {target : WorldId}
    {key : ByteString} {other : OwnershipKey} {grant : Grant}
    (held : (registry.release id target key).2.grants[other]? = some grant) :
    registry.grants[other]? = some grant := by
  unfold OwnershipRegistry.release at held
  split at held
  · exact held
  split at held
  · exact held
  · rw [lookup_erase] at held
    split at held
    · cases held
    · exact held

theorem releases_grants {registry : OwnershipRegistry} {id : SessionId} {target : WorldId}
    {keys : List ByteString} {other : OwnershipKey} {grant : Grant}
    (held : (keys.foldl (fun ownership key => (ownership.release id target key).2)
      registry).grants[other]? = some grant) : registry.grants[other]? = some grant := by
  induction keys generalizing registry with
  | nil => exact held
  | cons key rest ih => exact release_grants (ih held)

theorem releaseOwnership_grows (gateway : GatewayAdmission) (id : SessionId) (target : WorldId)
    (keys : List ByteString) :
    Grows allowed gateway (gateway.releaseOwnership id target keys).2 := by
  unfold GatewayAdmission.releaseOwnership
  split
  · exact .refl gateway
  · exact ⟨rfl, fun _ => .inl, fun _ held => held, fun _ _ held => .inl (releases_grants held),
      fun _ _ => .inl⟩

namespace AdmissionSystem

variable (system : AdmissionSystem σ)

theorem submitCommand_grows {id : SessionId}
    (own : system.gateway.sessions.find id ≠ none → allowed id) (command : ExternalCommand)
    (currentTick : UInt64) (budget : Bool) :
    Grows allowed system.gateway
      (system.submitCommand id command currentTick budget).2.gateway := by
  unfold submitCommand
  dsimp only
  split
  · exact .refl _
  rename_i known
  split
  · exact .refl _
  split
  · exact .refl _
  split
  · exact .refl _
  split
  · exact .refl _
  split
  · exact .refl _
  split
  · exact .of_same (by simp [setIngress]) (by simp [setIngress]) (by simp [setIngress])
  · have opened : allowed id := own (by rw [known]; simp)
    have waits := @Grows.awaiting allowed system.gateway ⟨id, command.clientSequence, none⟩ opened
      (system.gateway.ingressSequence + 1) {
        clientSequence := command.clientSequence
        ingressSequence := system.gateway.ingressSequence + 1 } rfl
    refine waits.trans (.of_same ?_ ?_ ?_)
    · simp [storeReceipt, addPendingCommand, setIngress]
    · simp [storeReceipt, addPendingCommand, setIngress]
    · simp [storeReceipt, addPendingCommand, setIngress]

theorem submitDurableCommand_grows (id : SessionId) (command : ExternalCommand)
    (currentTick : UInt64) (budget accepts : Bool) :
    Grows allowed system.gateway
      (system.submitDurableCommand id command currentTick budget accepts).gateway := by
  unfold submitDurableCommand
  dsimp only
  split
  · exact .refl _
  split
  · exact .refl _
  · exact .refl _
  split
  · exact .refl _
  split
  · exact .refl _
  split
  · exact .refl _
  split
  · exact .refl _
  · exact .of_same rfl rfl rfl

/-- The submission that the next turn of the poll loop finds durable. -/
def admitting : Option PendingDurable :=
  (system.polling.bind List.head?).bind fun ingress =>
    (system.gateway.pendingDurable[ingress]?).filter fun pending =>
      (system.log.tryOutcome pending.ticket).any DurableAppendOutcome.ok

/-- However the submitter answers, the submission gets a receipt. -/
theorem admitPending_received (pending : PendingDurable) (lsn : UInt64) :
    ∃ receipt : CommandReceipt, receipt.clientSequence = pending.clientSequence ∧
      (system.admitPending pending lsn).gateway.sessions =
        system.gateway.sessions.storeReceipt pending.session receipt ∧
      (system.admitPending pending lsn).gateway.ownership = system.gateway.ownership ∧
      ((system.admitPending pending lsn).gateway.pendingCommands =
          system.gateway.pendingCommands ∨
        (system.admitPending pending lsn).gateway.pendingCommands =
          system.gateway.pendingCommands.insertIfNew pending.ingressSequence
            ⟨pending.session, pending.clientSequence, some pending.key⟩) := by
  unfold admitPending
  dsimp only
  split
  · refine ⟨{
      status := .rejected
      error := .limitExceeded
      clientSequence := pending.clientSequence
      ingressSequence := pending.ingressSequence
      durableLsn := lsn }, rfl, ?_, ?_, .inl ?_⟩
    · simp only [complete, storeReceipt, setIndex, gateway_handOver]
    · simp only [complete, storeReceipt, setIndex, gateway_handOver]
    · simp only [complete, storeReceipt, setIndex, gateway_handOver]
  · refine ⟨{
      status := .durableAccepted
      clientSequence := pending.clientSequence
      ingressSequence := pending.ingressSequence
      durableLsn := lsn }, rfl, ?_, ?_, .inr ?_⟩
    · simp only [complete, storeReceipt, setIndex, addPendingCommand, gateway_handOver]
    · simp only [complete, storeReceipt, setIndex, addPendingCommand, gateway_handOver]
    · simp only [complete, storeReceipt, setIndex, addPendingCommand, gateway_handOver]

theorem admitPending_grows {pending : PendingDurable} (own : allowed pending.session)
    (lsn : UInt64) :
    Grows allowed system.gateway (system.admitPending pending lsn).gateway := by
  obtain ⟨receipt, same, sessions, ownership, old | added⟩ :=
    system.admitPending_received pending lsn
  · exact (Grows.received own receipt).trans (.of_same sessions ownership old)
  · have waits := @Grows.awaiting allowed system.gateway
      ⟨pending.session, pending.clientSequence, some pending.key⟩ own pending.ingressSequence
      receipt same
    exact waits.trans (.of_same sessions ownership added)

theorem failPending_grows (pending : PendingDurable) :
    Grows allowed system.gateway (system.failPending pending).gateway :=
  .of_same rfl rfl rfl

theorem pollEntry_grows {ingress : UInt64} {rest : List UInt64}
    (polling : system.polling = some (ingress :: rest))
    (admits : ∀ pending ∈ system.admitting, allowed pending.session) :
    Grows allowed system.gateway (system.pollEntry ingress).gateway := by
  unfold pollEntry
  split
  · exact .refl _
  rename_i pending waits
  split
  · exact .refl _
  rename_i outcome reported
  dsimp only
  split
  · rename_i durable
    have admitted : pending ∈ system.admitting := by
      simp [admitting, polling, waits, reported, durable]
    have extracted : Grows allowed system.gateway (system.extractPending ingress).gateway :=
      .of_same rfl rfl rfl
    exact extracted.trans (admitPending_grows _ (admits pending admitted) _)
  · exact .of_same rfl rfl rfl

/-- An admitted submission leaves a receipt. -/
theorem pollEntry_receipt {pending : PendingDurable} (admitted : pending ∈ system.admitting)
    {ingress : UInt64} {rest : List UInt64} (polling : system.polling = some (ingress :: rest)) :
    ⟨pending.session, pending.clientSequence⟩ ∈
      (system.pollEntry ingress).gateway.sessions.receipts := by
  simp only [admitting, polling, Option.bind_some, List.head?_cons, Option.mem_def,
    Option.filter_eq_some_iff, Option.any_eq_true] at admitted
  obtain ⟨waits, outcome, reported, durable⟩ := admitted
  obtain ⟨receipt, same, sessions, -⟩ :=
    (system.extractPending ingress).admitPending_received pending outcome.lsn
  simp only [pollEntry, waits, reported, durable, if_true]
  rw [sessions]
  exact mem_storeReceipt.mpr (.inl (by rw [same]))

theorem commandApplied_grows (accepts : CommandOutcome → Bool)
    (own : ∀ (ingress : UInt64) (pending : PendingCommand),
      system.gateway.pendingCommands[ingress]? = some pending → allowed pending.session)
    (outcome : CommandOutcome) :
    Grows allowed system.gateway (commandApplied accepts system outcome).gateway := by
  unfold commandApplied
  split
  · exact .refl _
  rename_i command waits
  have received := @Grows.received allowed system.gateway _ (own _ command waits)
    (outcomeReceipt command outcome)
  have closed : Grows allowed system.gateway { system.gateway with
      sessions := system.gateway.sessions.storeReceipt command.session
        (outcomeReceipt command outcome)
      pendingCommands := system.gateway.pendingCommands.erase outcome.ingressSequence } := by
    refine ⟨rfl, received.receipts, received.kept, fun _ _ held => .inl held,
      fun ingress pending held => ?_⟩
    simp only [lookup_erase] at held
    split at held
    · cases held
    · exact .inl held
  dsimp only
  split
  · exact closed.trans (.of_same rfl rfl rfl)
  split
  · exact closed.trans (.of_same rfl rfl rfl)
  split
  · exact closed.trans (.of_same rfl rfl rfl)
  · exact closed.trans (.of_same rfl rfl rfl)

theorem onCommandsApplied_grows (report : ApplyReport) (accepts : CommandOutcome → Bool)
    (own : ∀ (ingress : UInt64) (pending : PendingCommand),
      system.gateway.pendingCommands[ingress]? = some pending → allowed pending.session) :
    Grows allowed system.gateway (system.onCommandsApplied report accepts).gateway := by
  unfold onCommandsApplied
  induction report.outcomes generalizing system with
  | nil => exact .refl _
  | cons outcome rest ih =>
    have first := system.commandApplied_grows accepts own outcome
    refine first.trans (ih _ fun ingress pending held => ?_)
    obtain old | added := first.commands ingress pending held
    · exact own ingress pending old
    · exact added.1

/-- No event adds entries but for open sessions, save a poll that admits a submission whose
session was closed. -/
theorem step_grows {event : AdmissionEvent} {after : AdmissionSystem σ}
    (stepped : system.step event = some after) (opens : ∀ principal, event ≠ .openSession principal)
    (closes : ∀ id, event ≠ .closeSession id)
    (opened : ∀ id, system.gateway.sessions.find id ≠ none → allowed id)
    (own : ∀ (ingress : UInt64) (pending : PendingCommand),
      system.gateway.pendingCommands[ingress]? = some pending → allowed pending.session)
    (admits : event = .pollNext → ∀ pending ∈ system.admitting, allowed pending.session) :
    Grows allowed system.gateway after.gateway := by
  cases polling : system.polling with
  | some order =>
    cases event with
    | fulfill ticket outcome =>
      simp only [step, polling] at stepped
      obtain ⟨log, -, rfl⟩ := Option.map_eq_some_iff.mp stepped
      exact .refl _
    | pollNext =>
      cases order with
      | nil =>
        simp only [step, polling, Option.some.injEq] at stepped
        subst stepped
        exact .refl _
      | cons ingress rest =>
        simp only [step, polling, Option.some.injEq] at stepped
        subst stepped
        exact system.pollEntry_grows polling (admits rfl)
    | _ => simp [step, polling] at stepped
  | none =>
    cases event with
    | openSession principal => exact absurd rfl (opens principal)
    | closeSession id => exact absurd rfl (closes id)
    | fulfill ticket outcome =>
      simp only [step, polling] at stepped
      obtain ⟨log, -, rfl⟩ := Option.map_eq_some_iff.mp stepped
      exact .refl _
    | pollNext => simp [step, polling] at stepped
    | pollBegin order =>
      simp only [step, polling, stepMain] at stepped
      split at stepped
      · obtain rfl := Option.some.inj stepped
        exact .of_same rfl rfl rfl
      · cases stepped
    | acquireOwnership id target keys leaseUntilTick currentTick =>
      simp only [step, polling, stepMain, Option.some.injEq] at stepped
      subst stepped
      exact acquireOwnership_grows (opened id) target keys leaseUntilTick currentTick
    | releaseOwnership id target keys =>
      simp only [step, polling, stepMain, Option.some.injEq] at stepped
      subst stepped
      exact releaseOwnership_grows _ id target keys
    | submitCommand id command currentTick budget =>
      simp only [step, polling, stepMain, Option.some.injEq] at stepped
      subst stepped
      exact system.submitCommand_grows (opened id) command currentTick budget
    | submitDurableCommand id command currentTick budget accepts =>
      simp only [step, polling, stepMain, Option.some.injEq] at stepped
      subst stepped
      exact system.submitDurableCommand_grows id command currentTick budget accepts
    | onCommandsApplied report accepts =>
      simp only [step, polling, stepMain, Option.some.injEq] at stepped
      subst stepped
      exact system.onCommandsApplied_grows report accepts own

end AdmissionSystem

end GeoWorld.Gateway
