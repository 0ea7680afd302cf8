import Mathlib
import GeoWorld.Gateway.Admission
import GeoWorld.Library.OnceLedger
import GeoWorld.Library.Runs

/-!
Durable admission keeps a ledger: every submission is answered once, and the command
of a key goes to the submitter once. The gateway refines the abstract ledger, whatever
the order of submissions, fulfilled tickets, polls and reported outcomes.
-/

namespace GeoWorld.Gateway

open WorldModel Library Simulation

variable {σ : Type}

namespace AdmissionSystem

/-- What the ledger of requests looks like from the gateway. -/
def ledger (system : AdmissionSystem σ) : OnceLedger DurableKey where
  opened := system.callbacks
  registered := {key | system.gateway.durableIndex.contains key}
  waiting := {entry | ∃ (ingress : UInt64) (pending : PendingDurable),
    system.gateway.pendingDurable[ingress]? = some pending ∧
      entry = (pending.key, pending.completion)}
  delivered := system.handed.filterMap HandOver.durableKey
  answered := system.completions.map Completion.callback

theorem ledger_congr {before after : AdmissionSystem σ}
    (callbacks : after.callbacks = before.callbacks)
    (index : ∀ key, after.gateway.durableIndex.contains key =
      before.gateway.durableIndex.contains key)
    (pending : after.gateway.pendingDurable = before.gateway.pendingDurable)
    (handed : after.handed.filterMap HandOver.durableKey =
      before.handed.filterMap HandOver.durableKey)
    (completions : after.completions = before.completions) : after.ledger = before.ledger := by
  simp only [ledger, callbacks, index, pending, handed, completions]

@[simp] theorem ledger_storeReceipt (system : AdmissionSystem σ) (session : SessionId)
    (receipt : CommandReceipt) : (system.storeReceipt session receipt).ledger = system.ledger :=
  rfl

@[simp] theorem ledger_setIngress (system : AdmissionSystem σ) (ingress : UInt64) :
    (system.setIngress ingress).ledger = system.ledger :=
  rfl

@[simp] theorem ledger_addPendingCommand (system : AdmissionSystem σ) (ingress : UInt64)
    (pending : PendingCommand) :
    (system.addPendingCommand ingress pending).ledger = system.ledger :=
  rfl

@[simp] theorem ledger_complete (system : AdmissionSystem σ) (callback : Nat)
    (error : GatewayError) (receipt : CommandReceipt) :
    (system.complete callback error receipt).ledger =
      { system.ledger with answered := system.ledger.answered ++ [callback] } := by
  simp [ledger, complete]

theorem ledger_setIndex (system : AdmissionSystem σ) {index : DurableIdempotencyIndex}
    (same : ∀ key, index.contains key = system.gateway.durableIndex.contains key) :
    (system.setIndex index).ledger = system.ledger := by
  simp [ledger, setIndex, same]

theorem ledger_erase (system : AdmissionSystem σ) (key : DurableKey) :
    (system.setIndex (system.gateway.durableIndex.erase key)).ledger =
      { system.ledger with registered := system.ledger.registered \ {key} } := by
  simp only [ledger, setIndex, DurableIdempotencyIndex.contains_erase, OnceLedger.mk.injEq,
    true_and, and_true]
  ext other
  simp [and_comm]

/-- The pending submissions are filed under their own ingress numbers, which the gateway
has given out, and belong to different callbacks. -/
structure PendingFiled (system : AdmissionSystem σ) : Prop where
  filed : ∀ (ingress : UInt64) (pending : PendingDurable), system.gateway.pendingDurable[ingress]? = some pending →
    pending.ingressSequence = ingress ∧ ingress ≤ system.gateway.ingressSequence
  apart : ∀ (first second : UInt64) (left right : PendingDurable), system.gateway.pendingDurable[first]? = some left →
    system.gateway.pendingDurable[second]? = some right →
    left.completion = right.completion → first = second

theorem PendingFiled.same {before after : AdmissionSystem σ} (filed : before.PendingFiled)
    (pending : after.gateway.pendingDurable = before.gateway.pendingDurable)
    (ingress : before.gateway.ingressSequence ≤ after.gateway.ingressSequence) :
    after.PendingFiled := by
  refine ⟨fun number entry found => ?_, ?_⟩
  · rw [pending] at found
    obtain ⟨own, below⟩ := filed.filed number entry found
    exact ⟨own, UInt64.le_trans below ingress⟩
  · rw [pending]
    exact filed.apart

theorem next_ingress {ingress : UInt64} (room : ingress ≠ UInt64.ofNat (UInt64.size - 1)) :
    ingress < ingress + 1 := by
  rw [UInt64.lt_iff_toNat_lt, UInt64.toNat_add]
  have below := ingress.toNat_lt
  have last : ingress.toNat ≠ 2 ^ 64 - 1 := fun equal => room (UInt64.toNat_inj.mp equal)
  simp only [UInt64.toNat_one]
  omega

section Submitter

variable (system : AdmissionSystem σ) (durableKey : Option DurableKey) (targetTick : UInt64)
  (payload : CommandPayload) («meta» : CommandMeta)

@[simp] theorem gateway_handOver :
    (system.handOver durableKey targetTick payload «meta»).2.gateway = system.gateway := by
  unfold handOver
  split <;> rfl

@[simp] theorem completions_handOver :
    (system.handOver durableKey targetTick payload «meta»).2.completions =
      system.completions := by
  unfold handOver
  split <;> rfl

@[simp] theorem callbacks_handOver :
    (system.handOver durableKey targetTick payload «meta»).2.callbacks = system.callbacks := by
  unfold handOver
  split <;> rfl

@[simp] theorem log_handOver :
    (system.handOver durableKey targetTick payload «meta»).2.log = system.log := by
  unfold handOver
  split <;> rfl

@[simp] theorem polling_handOver :
    (system.handOver durableKey targetTick payload «meta»).2.polling = system.polling := by
  unfold handOver
  split <;> rfl

theorem handed_handOver :
    (system.handOver durableKey targetTick payload «meta»).2.handed = system.handed ∨
    (system.handOver durableKey targetTick payload «meta»).2.handed =
      system.handed ++ [⟨durableKey, targetTick, payload, «meta»⟩] := by
  unfold handOver
  split
  · exact .inl rfl
  · exact .inr rfl

theorem ledger_handOver_none :
    (system.handOver none targetTick payload «meta»).2.ledger = system.ledger := by
  have handed : (system.handOver none targetTick payload «meta»).2.handed.filterMap
      HandOver.durableKey = system.handed.filterMap HandOver.durableKey := by
    rcases handed_handOver system none targetTick payload «meta» with same | more
    · rw [same]
    · simp [more]
  exact ledger_congr (by simp) (by simp) (by simp) handed (by simp)

theorem ledger_handOver_some (key : DurableKey) :
    (system.handOver (some key) targetTick payload «meta»).2.ledger = system.ledger ∨
    (system.handOver (some key) targetTick payload «meta»).2.ledger =
      { system.ledger with delivered := system.ledger.delivered ++ [key] } := by
  rcases handed_handOver system (some key) targetTick payload «meta» with same | more
  · exact .inl (by simp [ledger, same])
  · exact .inr (by simp [ledger, more])

end Submitter

/-- `submit_command` leaves the durable part alone. -/
theorem submitCommand_effect (system : AdmissionSystem σ) (id : SessionId)
    (command : ExternalCommand) (currentTick : UInt64) (budget : Bool) :
    let after := (system.submitCommand id command currentTick budget).2
    after.ledger = system.ledger ∧
      after.gateway.pendingDurable = system.gateway.pendingDurable ∧
      system.gateway.ingressSequence ≤ after.gateway.ingressSequence := by
  have unchanged : system.ledger = system.ledger ∧
      system.gateway.pendingDurable = system.gateway.pendingDurable ∧
      system.gateway.ingressSequence ≤ system.gateway.ingressSequence :=
    ⟨rfl, rfl, UInt64.le_refl _⟩
  unfold submitCommand
  split
  · exact unchanged
  · split
    · exact unchanged
    · split
      · exact unchanged
      · split
        · exact unchanged
        · split
          · exact unchanged
          · split
            · exact unchanged
            · rename_i room
              have later := UInt64.le_of_lt (next_ingress room)
              dsimp only
              split
              · refine ⟨ledger_handOver_none _ _ _ _, ?_, ?_⟩
                · rw [gateway_handOver]
                  rfl
                · rw [gateway_handOver]
                  exact later
              · refine ⟨ledger_handOver_none _ _ _ _, ?_, ?_⟩
                · simp [storeReceipt, addPendingCommand, setIngress]
                · simpa [storeReceipt, addPendingCommand, setIngress] using later

theorem free_of_lookup {system : AdmissionSystem σ} {key : DurableKey} {fingerprint : ByteString}
    (unknown : system.gateway.durableIndex.lookup key fingerprint = none) :
    key ∉ system.ledger.registered := by
  have absent : system.gateway.durableIndex.slots[key]? = none := by
    unfold DurableIdempotencyIndex.lookup at unknown
    exact Option.map_eq_none_iff.mp unknown
  change ¬ (system.gateway.durableIndex.slots[key]?).isSome = true
  rw [absent]
  simp

/-- Filing a submission of an unknown key under the next ingress number. -/
theorem register_effect (system : AdmissionSystem σ) (filed : system.PendingFiled)
    (sound : system.ledger.Sound) (fingerprint : ByteString) (pending : PendingDurable)
    (free : pending.key ∉ system.ledger.registered)
    (later : system.gateway.ingressSequence < pending.ingressSequence)
    (latest : pending.completion = system.callbacks) :
    let after : AdmissionSystem σ :=
      { system with callbacks := system.callbacks + 1 }.register fingerprint pending
    OnceLedger.Step system.ledger after.ledger ∧ after.PendingFiled := by
  have unused : system.gateway.pendingDurable[pending.ingressSequence]? = none := by
    by_contra used
    obtain ⟨other, found⟩ := Option.ne_none_iff_exists'.mp used
    exact UInt64.not_le.mpr later (filed.filed _ _ found).2
  have lookup := lookup_insertIfNew system.gateway.pendingDurable unused
  have earlier (ingress : UInt64) (entry : PendingDurable)
      (found : system.gateway.pendingDurable[ingress]? = some entry) :
      entry.completion < system.callbacks :=
    sound.waiting_opened entry.key entry.completion ⟨ingress, entry, found, rfl⟩
  have waiting : (({ system with callbacks := system.callbacks + 1 } :
      AdmissionSystem σ).register fingerprint pending).ledger.waiting =
        insert (pending.key, system.callbacks) system.ledger.waiting := by
    ext entry
    simp only [ledger, register, lookup, Set.mem_ofPred_eq, Set.mem_insert_iff]
    constructor
    · rintro ⟨ingress, other, found, rfl⟩
      by_cases same : ingress = pending.ingressSequence
      · rw [if_pos same] at found
        obtain rfl := Option.some.inj found
        exact .inl (by rw [latest])
      · rw [if_neg same] at found
        exact .inr ⟨ingress, other, found, rfl⟩
    · rintro (rfl | ⟨ingress, other, found, rfl⟩)
      · exact ⟨pending.ingressSequence, pending, by rw [if_pos rfl], by rw [latest]⟩
      · have different : ingress ≠ pending.ingressSequence := by
          rintro rfl
          rw [unused] at found
          cases found
        exact ⟨ingress, other, by rw [if_neg different, found], rfl⟩
  have registered : (({ system with callbacks := system.callbacks + 1 } :
      AdmissionSystem σ).register fingerprint pending).ledger.registered =
        insert pending.key system.ledger.registered := by
    ext other
    simp [ledger, register]
  refine ⟨?_, ?_, ?_⟩
  · have shape : (({ system with callbacks := system.callbacks + 1 } :
        AdmissionSystem σ).register fingerprint pending).ledger = { system.ledger with
          opened := system.ledger.opened + 1
          registered := insert pending.key system.ledger.registered
          waiting := insert (pending.key, system.ledger.opened) system.ledger.waiting } := by
      rw [← registered]
      exact OnceLedger.mk.injEq .. ▸ ⟨rfl, rfl, waiting, rfl, rfl⟩
    rw [shape]
    exact .register system.ledger pending.key free
  · intro ingress entry found
    simp only [register, lookup] at found ⊢
    by_cases same : ingress = pending.ingressSequence
    · rw [if_pos same] at found
      obtain rfl := Option.some.inj found
      exact ⟨same.symm, by rw [same]; exact UInt64.le_refl _⟩
    · rw [if_neg same] at found
      obtain ⟨own, below⟩ := filed.filed _ _ found
      exact ⟨own, UInt64.le_of_lt (UInt64.lt_of_le_of_lt below later)⟩
  · intro first second left right onLeft onRight same
    simp only [register, lookup] at onLeft onRight
    split at onLeft <;> split at onRight
    · simp_all
    · obtain rfl := Option.some.inj onLeft
      have below := earlier _ _ onRight
      omega
    · obtain rfl := Option.some.inj onRight
      have below := earlier _ _ onLeft
      omega
    · exact filed.apart _ _ _ _ onLeft onRight same

/-- `submit_durable_command` either answers at once or files a new key. -/
theorem submitDurableCommand_effect (system : AdmissionSystem σ) (filed : system.PendingFiled)
    (sound : system.ledger.Sound) (id : SessionId) (command : ExternalCommand)
    (currentTick : UInt64) (budget accepts : Bool) :
    let after := system.submitDurableCommand id command currentTick budget accepts
    OnceLedger.Step system.ledger after.ledger ∧ after.PendingFiled := by
  have reply (error : GatewayError) (receipt : CommandReceipt) :
      OnceLedger.Step system.ledger (({ system with callbacks := system.callbacks + 1 } :
          AdmissionSystem σ).complete system.callbacks error receipt).ledger ∧
        (({ system with callbacks := system.callbacks + 1 } :
          AdmissionSystem σ).complete system.callbacks error receipt).PendingFiled := by
    refine ⟨?_, filed.same rfl (UInt64.le_refl _)⟩
    rw [ledger_complete]
    exact .reply system.ledger
  unfold submitDurableCommand
  dsimp only
  split
  · exact reply _ _
  · split
    · exact reply _ _
    · exact reply _ _
    · rename_i unknown
      split
      · exact reply _ _
      · split
        · exact reply _ _
        · split
          · exact reply _ _
          · rename_i room
            split
            · exact reply _ _
            · rename_i ticket log _
              have others : ({ system with log := log } : AdmissionSystem σ).PendingFiled :=
                filed.same rfl (UInt64.le_refl _)
              refine register_effect { system with log := log } others sound _ _ ?_ ?_ ?_
              · exact free_of_lookup unknown
              · exact next_ingress room
              · rfl

theorem extractPending_effect (system : AdmissionSystem σ) (filed : system.PendingFiled)
    {ingress : UInt64} {pending : PendingDurable}
    (found : system.gateway.pendingDurable[ingress]? = some pending) :
    (system.extractPending ingress).ledger = { system.ledger with
      waiting := system.ledger.waiting \ {(pending.key, pending.completion)} } ∧
    (system.extractPending ingress).PendingFiled := by
  have waiting : (system.extractPending ingress).ledger.waiting =
      system.ledger.waiting \ {(pending.key, pending.completion)} := by
    ext entry
    simp only [ledger, extractPending, lookup_erase, Set.mem_ofPred_eq, Set.mem_sdiff,
      Set.mem_singleton_iff]
    constructor
    · rintro ⟨number, other, still, rfl⟩
      by_cases same : number = ingress
      · simp [same] at still
      · rw [if_neg same] at still
        refine ⟨⟨number, other, still, rfl⟩, fun equal => same ?_⟩
        exact filed.apart _ _ _ _ still found (congrArg Prod.snd equal)
    · rintro ⟨⟨number, other, before, rfl⟩, different⟩
      have apart : number ≠ ingress := by
        rintro rfl
        rw [found] at before
        obtain rfl := Option.some.inj before
        exact different rfl
      exact ⟨number, other, by rw [if_neg apart, before], rfl⟩
  refine ⟨?_, ?_, ?_⟩
  · rw [← waiting]
    rfl
  · intro number entry still
    simp only [extractPending, lookup_erase] at still
    split at still
    · cases still
    · exact filed.filed _ _ still
  · intro first second left right onLeft onRight same
    simp only [extractPending, lookup_erase] at onLeft onRight
    split at onLeft
    · cases onLeft
    · split at onRight
      · cases onRight
      · exact filed.apart _ _ _ _ onLeft onRight same

theorem admitPending_frame (system : AdmissionSystem σ) (pending : PendingDurable)
    (lsn : UInt64) :
    (system.admitPending pending lsn).gateway.pendingDurable = system.gateway.pendingDurable ∧
    (system.admitPending pending lsn).gateway.ingressSequence =
      system.gateway.ingressSequence := by
  unfold admitPending
  dsimp only
  split <;> simp [complete, storeReceipt, addPendingCommand, setIndex]

/-- Handing a durable command over delivers its key, or gives up without a submitter. -/
theorem admitPending_ledger (system : AdmissionSystem σ) (pending : PendingDurable)
    (lsn : UInt64) :
    (system.admitPending pending lsn).ledger = { system.ledger with
      answered := system.ledger.answered ++ [pending.completion] } ∨
    (system.admitPending pending lsn).ledger = { system.ledger with
      delivered := system.ledger.delivered ++ [pending.key]
      answered := system.ledger.answered ++ [pending.completion] } := by
  have marked : (system.setIndex (system.gateway.durableIndex.markDurableAccepted pending.key
      lsn pending.ingressSequence)).ledger = system.ledger :=
    ledger_setIndex system fun key =>
      DurableIdempotencyIndex.contains_markDurableAccepted _ _ _ _ _
  have given := ledger_handOver_some (system.setIndex
    (system.gateway.durableIndex.markDurableAccepted pending.key lsn pending.ingressSequence))
      pending.targetTick pending.payload {
        ingressSequence := pending.ingressSequence
        expectedObjectVersion := pending.expectedObjectVersion
        durableLsn := lsn } pending.key
  rw [marked] at given
  unfold admitPending
  dsimp only
  split
  · rw [ledger_complete, ledger_storeReceipt, ledger_setIndex _ fun key =>
      DurableIdempotencyIndex.contains_markFinal _ _ _ _ _]
    exact given.imp (fun same => by rw [same]) fun same => by rw [same]
  · rw [ledger_complete, ledger_addPendingCommand, ledger_storeReceipt]
    exact given.imp (fun same => by rw [same]) fun same => by rw [same]

theorem pollEntry_effect (system : AdmissionSystem σ) (filed : system.PendingFiled)
    (ingress : UInt64) :
    OnceLedger.Step system.ledger (system.pollEntry ingress).ledger ∧
      (system.pollEntry ingress).PendingFiled := by
  unfold pollEntry
  split
  · exact ⟨.stay _, filed⟩
  · rename_i pending found
    have waits : (pending.key, pending.completion) ∈ system.ledger.waiting :=
      ⟨ingress, pending, found, rfl⟩
    obtain ⟨extracted, others⟩ := extractPending_effect system filed found
    split
    · exact ⟨.stay _, filed⟩
    · dsimp only
      split
      · rename_i outcome _ _
        obtain ⟨kept, counter⟩ := admitPending_frame (system.extractPending ingress) pending
          outcome.lsn
        refine ⟨?_, others.same kept (counter ▸ UInt64.le_refl _)⟩
        rcases admitPending_ledger (system.extractPending ingress) pending outcome.lsn with
          shape | shape
        · rw [shape, extracted]
          exact .giveUp system.ledger _ _ waits
        · rw [shape, extracted]
          exact .deliver system.ledger _ _ waits
      · refine ⟨?_, others.same rfl (UInt64.le_refl _)⟩
        rw [failPending, ledger_complete, ledger_erase, extracted]
        exact .drop system.ledger _ _ waits

theorem commandApplied_effect (accepts : CommandOutcome → Bool) (system : AdmissionSystem σ)
    (outcome : CommandOutcome) :
    (commandApplied accepts system outcome).ledger = system.ledger ∧
    (commandApplied accepts system outcome).gateway.pendingDurable =
      system.gateway.pendingDurable ∧
    (commandApplied accepts system outcome).gateway.ingressSequence =
      system.gateway.ingressSequence := by
  unfold commandApplied
  split
  · exact ⟨rfl, rfl, rfl⟩
  · dsimp only
    split
    · exact ⟨rfl, rfl, rfl⟩
    · rename_i key _
      split
      · exact ⟨ledger_setIndex _ fun _ => DurableIdempotencyIndex.contains_markFinal _ _ _ _ _,
          rfl, rfl⟩
      · split
        · exact ⟨ledger_setIndex _ fun _ =>
            DurableIdempotencyIndex.contains_markFinal _ _ _ _ _, rfl, rfl⟩
        · refine ⟨ledger_congr rfl (fun other => ?_) rfl rfl rfl, rfl, rfl⟩
          simp [setIndex, storeReceipt]

theorem onCommandsApplied_effect (system : AdmissionSystem σ) (report : ApplyReport)
    (accepts : CommandOutcome → Bool) :
    (system.onCommandsApplied report accepts).ledger = system.ledger ∧
    (system.onCommandsApplied report accepts).gateway.pendingDurable =
      system.gateway.pendingDurable ∧
    (system.onCommandsApplied report accepts).gateway.ingressSequence =
      system.gateway.ingressSequence := by
  unfold onCommandsApplied
  induction report.outcomes generalizing system with
  | nil => exact ⟨rfl, rfl, rfl⟩
  | cons outcome rest ih =>
    obtain ⟨ledger, pending, ingress⟩ := commandApplied_effect accepts system outcome
    obtain ⟨ledger', pending', ingress'⟩ := ih (commandApplied accepts system outcome)
    exact ⟨ledger'.trans ledger, pending'.trans pending, ingress'.trans ingress⟩

theorem acquireKeys_frame (gateway : GatewayAdmission) (id : SessionId) (principal : Principal)
    (target : WorldId) (leaseUntilTick currentTick : UInt64) (keys : List ByteString) :
    ∃ ownership, (gateway.acquireKeys id principal target leaseUntilTick currentTick keys).2 =
      { gateway with ownership := ownership } := by
  induction keys generalizing gateway with
  | nil => exact ⟨gateway.ownership, rfl⟩
  | cons key keys ih =>
    unfold GatewayAdmission.acquireKeys
    split
    · exact ⟨gateway.ownership, rfl⟩
    · split
      · exact ⟨gateway.ownership, rfl⟩
      · exact ih _

theorem acquireOwnership_frame (gateway : GatewayAdmission) (id : SessionId) (target : WorldId)
    (keys : List ByteString) (leaseUntilTick currentTick : UInt64) :
    ∃ ownership, (gateway.acquireOwnership id target keys leaseUntilTick currentTick).2 =
      { gateway with ownership := ownership } := by
  unfold GatewayAdmission.acquireOwnership
  split
  · exact ⟨gateway.ownership, rfl⟩
  · split
    · exact ⟨gateway.ownership, rfl⟩
    · exact acquireKeys_frame gateway id _ target leaseUntilTick currentTick keys

/-- The three kinds of steps: a ticket is fulfilled, the poll loop turns or ends, the main
thread does something else. -/
theorem step_cases {system after : AdmissionSystem σ} {event : AdmissionEvent}
    (stepped : system.step event = some after) :
    (∃ ticket outcome log, event = .fulfill ticket outcome ∧
      system.log.fulfill ticket outcome = some log ∧ after = { system with log := log }) ∨
    (∃ ingress rest, event = .pollNext ∧ system.polling = some (ingress :: rest) ∧
      after = { system.pollEntry ingress with polling := some rest }) ∨
    (event = .pollNext ∧ system.polling = some [] ∧ after = { system with polling := none }) ∨
    (system.polling = none ∧ system.stepMain event = some after) := by
  unfold step at stepped
  split at stepped
  · obtain ⟨log, fulfilled, rfl⟩ := Option.map_eq_some_iff.mp stepped
    exact .inl ⟨_, _, log, rfl, fulfilled, rfl⟩
  · exact .inr (.inl ⟨_, _, rfl, by assumption, (Option.some.inj stepped).symm⟩)
  · exact .inr (.inr (.inl ⟨rfl, by assumption, (Option.some.inj stepped).symm⟩))
  · cases stepped
  · cases stepped
  · exact .inr (.inr (.inr ⟨by assumption, stepped⟩))

/-- What the main thread does outside of the poll loop is a step of the ledger. -/
theorem stepMain_effect {system after : AdmissionSystem σ} {event : AdmissionEvent}
    (filed : system.PendingFiled) (sound : system.ledger.Sound)
    (stepped : system.stepMain event = some after) :
    OnceLedger.Step system.ledger after.ledger ∧ after.PendingFiled := by
  have unchanged {next : AdmissionSystem σ} (ledger : next.ledger = system.ledger)
      (pending : next.gateway.pendingDurable = system.gateway.pendingDurable)
      (ingress : system.gateway.ingressSequence ≤ next.gateway.ingressSequence) :
      OnceLedger.Step system.ledger next.ledger ∧ next.PendingFiled :=
    ⟨ledger ▸ .stay _, filed.same pending ingress⟩
  cases event with
  | openSession principal =>
    obtain rfl := Option.some.inj stepped
    exact unchanged rfl rfl (UInt64.le_refl _)
  | closeSession id =>
    obtain rfl := Option.some.inj stepped
    unfold GatewayAdmission.closeSession
    split
    · exact unchanged rfl rfl (UInt64.le_refl _)
    · exact unchanged rfl rfl (UInt64.le_refl _)
  | acquireOwnership id target keys leaseUntilTick currentTick =>
    obtain rfl := Option.some.inj stepped
    obtain ⟨ownership, shape⟩ := acquireOwnership_frame system.gateway id target keys
      leaseUntilTick currentTick
    rw [shape]
    exact unchanged rfl rfl (UInt64.le_refl _)
  | releaseOwnership id target keys =>
    obtain rfl := Option.some.inj stepped
    unfold GatewayAdmission.releaseOwnership
    split
    · exact unchanged rfl rfl (UInt64.le_refl _)
    · exact unchanged rfl rfl (UInt64.le_refl _)
  | submitCommand id command currentTick budget =>
    obtain rfl := Option.some.inj stepped
    obtain ⟨ledger, pending, ingress⟩ := submitCommand_effect system id command currentTick
      budget
    exact unchanged ledger pending ingress
  | submitDurableCommand id command currentTick budget accepts =>
    obtain rfl := Option.some.inj stepped
    exact submitDurableCommand_effect system filed sound id command currentTick budget accepts
  | pollBegin order =>
    simp only [stepMain] at stepped
    split at stepped
    · obtain rfl := Option.some.inj stepped
      exact unchanged rfl rfl (UInt64.le_refl _)
    · cases stepped
  | onCommandsApplied report accepts =>
    obtain rfl := Option.some.inj stepped
    obtain ⟨ledger, pending, ingress⟩ := onCommandsApplied_effect system report accepts
    exact unchanged ledger pending (ingress ▸ UInt64.le_refl _)
  | fulfill ticket outcome => cases stepped
  | pollNext => cases stepped

/-- Every step of the gateway is a step of its ledger. -/
theorem step_effect {system after : AdmissionSystem σ} {event : AdmissionEvent}
    (filed : system.PendingFiled) (sound : system.ledger.Sound)
    (stepped : system.step event = some after) :
    OnceLedger.Step system.ledger after.ledger ∧ after.PendingFiled := by
  rcases step_cases stepped with ⟨_, _, _, _, _, rfl⟩ | ⟨ingress, _, _, _, rfl⟩ | ⟨_, _, rfl⟩ |
    ⟨_, main⟩
  · exact ⟨.stay _, filed.same rfl (UInt64.le_refl _)⟩
  · obtain ⟨ledger, others⟩ := pollEntry_effect system filed ingress
    exact ⟨ledger, others.same rfl (UInt64.le_refl _)⟩
  · exact ⟨.stay _, filed.same rfl (UInt64.le_refl _)⟩
  · exact stepMain_effect filed sound main

/-- A new process. The idempotency index is what the scan of the log restored. -/
def start (config : GatewayConfig) (authorization : AuthorizationPolicy)
    (index : DurableIdempotencyIndex) (durableLog : Bool)
    (submitter : Option (CommandSubmitter σ)) (target : σ) : AdmissionSystem σ :=
  { gateway := {
      config := config
      authorization := authorization
      durableIndex := index
      durableLog := durableLog }
    submitter := submitter
    target := target }

end AdmissionSystem

/-- The gateway moves, or the state behind the submitter changes in any way. -/
inductive ProcessEvent (σ : Type) where
  | gateway (event : AdmissionEvent)
  | runtime (target : σ)

namespace AdmissionSystem

def processStep (system : AdmissionSystem σ) : ProcessEvent σ → Option (AdmissionSystem σ)
  | .gateway event => system.step event
  | .runtime target => some { system with target := target }

abbrev ProcessStep (before : AdmissionSystem σ) (event : ProcessEvent σ)
    (after : AdmissionSystem σ) : Prop :=
  before.processStep event = some after

structure Admissible (system : AdmissionSystem σ) : Prop where
  filed : system.PendingFiled
  sound : system.ledger.Sound

theorem start_admissible (config : GatewayConfig) (authorization : AuthorizationPolicy)
    (index : DurableIdempotencyIndex) (durableLog : Bool)
    (submitter : Option (CommandSubmitter σ)) (target : σ) :
    (start config authorization index durableLog submitter target).Admissible := by
  refine ⟨⟨?_, ?_⟩, ?_⟩
  · intro ingress pending found
    simp [start] at found
  · intro first second left right found
    simp [start] at found
  · have shape : (start config authorization index durableLog submitter target).ledger =
        { registered := {key | index.contains key} } := by
      simp [ledger, start]
    rw [shape]
    exact OnceLedger.sound_start _

theorem Admissible.step {before after : AdmissionSystem σ} {event : ProcessEvent σ}
    (admissible : before.Admissible) (stepped : before.processStep event = some after) :
    after.Admissible := by
  cases event with
  | gateway event =>
    obtain ⟨ledger, filed⟩ := step_effect admissible.filed admissible.sound stepped
    exact ⟨filed, admissible.sound.step ledger⟩
  | runtime target =>
    obtain rfl := Option.some.inj stepped
    exact ⟨admissible.filed.same rfl (UInt64.le_refl _), admissible.sound⟩

theorem admissible_of_run {config : GatewayConfig} {authorization : AuthorizationPolicy}
    {index : DurableIdempotencyIndex} {durableLog : Bool}
    {submitter : Option (CommandSubmitter σ)} {target : σ} {events : List (ProcessEvent σ)}
    {system : AdmissionSystem σ}
    (run : AnyRun ProcessStep (start config authorization index durableLog submitter target)
      events system) : system.Admissible :=
  run.invariant (start_admissible _ _ _ _ _ _) fun _ _ _ _ stepped admissible =>
    admissible.step stepped

end AdmissionSystem

end GeoWorld.Gateway
