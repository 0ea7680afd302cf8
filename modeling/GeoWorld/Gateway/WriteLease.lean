import Mathlib
import GeoWorld.Gateway.IngressOrder

/-!
Leases against the ticks in which commands run. A lease is looked at when a command is
admitted; the command runs later. Its submitter still holds the lease then as long as the
lease lasts beyond that tick when the command enters the buffer, and no session gives up a
lease that one of its commands waits under.
-/

namespace GeoWorld.Gateway

open WorldModel Library Simulation

section Registry

variable {registry : OwnershipRegistry} {session other : SessionId} {target : WorldId}
  {key : ByteString} {tick : UInt64}

theorem holds_iff : registry.holds session target key tick = true ↔
    ∃ grant, registry.grants[OwnershipKey.mk target key]? = some grant ∧ grant.owner = session ∧
      tick < grant.leaseUntilTick := by
  unfold OwnershipRegistry.holds
  cases registry.grants[OwnershipKey.mk target key]? with
  | none => simp
  | some grant => simp

/-- A key has one holder. -/
theorem holds_unique (one : registry.holds session target key tick = true)
    (two : registry.holds other target key tick = true) : other = session := by
  obtain ⟨grant, found, rfl, -⟩ := holds_iff.mp one
  obtain ⟨again, same, rfl, -⟩ := holds_iff.mp two
  rw [Option.some.inj (found.symm.trans same)]

theorem holds_congr {after : OwnershipRegistry}
    (same : after.grants[OwnershipKey.mk target key]? = registry.grants[OwnershipKey.mk target key]?) :
    after.holds session target key tick = registry.holds session target key tick := by
  unfold OwnershipRegistry.holds
  rw [same]

theorem acquire_keeps {asked : WorldId} {askedKey : ByteString} {leaseUntilTick currentTick : UInt64}
    (held : registry.holds session target key tick = true)
    (kept : asked = target → askedKey = key →
      if session = other then tick < leaseUntilTick else currentTick ≤ tick) :
    (registry.acquire other asked askedKey leaseUntilTick currentTick).2.holds session target key
      tick = true := by
  obtain ⟨grant, found, owner, lasts⟩ := holds_iff.mp held
  by_cases same : OwnershipKey.mk asked askedKey = ⟨target, key⟩
  · obtain ⟨rfl, rfl⟩ := OwnershipKey.mk.inj same
    have kept := kept rfl rfl
    unfold OwnershipRegistry.acquire
    simp only [found]
    by_cases own : session = other
    · rw [if_pos own] at kept
      rw [if_neg (by simp [owner, own])]
      exact holds_iff.mpr ⟨_, lookup_insert_self _ _ _, own.symm, kept⟩
    · rw [if_neg own] at kept
      rw [if_pos ⟨by rwa [owner], UInt64.lt_of_le_of_lt kept lasts⟩]
      exact held
  · have apart : ∀ grant, (registry.grants.insert ⟨asked, askedKey⟩ grant)[
        OwnershipKey.mk target key]? = registry.grants[OwnershipKey.mk target key]? :=
      fun grant => lookup_insert_ne _ (Ne.symm same) grant
    unfold OwnershipRegistry.acquire
    simp only
    split
    · exact (holds_congr (apart _)).trans held
    · split
      · exact held
      · exact (holds_congr (apart _)).trans held

theorem release_keeps {asked : WorldId} {askedKey : ByteString}
    (held : registry.holds session target key tick = true)
    (kept : asked = target → askedKey = key → session ≠ other) :
    (registry.release other asked askedKey).2.holds session target key tick = true := by
  obtain ⟨grant, found, owner, -⟩ := holds_iff.mp held
  unfold OwnershipRegistry.release
  by_cases same : OwnershipKey.mk asked askedKey = ⟨target, key⟩
  · obtain ⟨rfl, rfl⟩ := OwnershipKey.mk.inj same
    simp only [found]
    rw [if_pos (by rw [owner]; exact kept rfl rfl)]
    exact held
  · split
    · exact held
    · split
      · exact held
      · exact (holds_congr (lookup_erase_ne _ (Ne.symm same))).trans held

theorem releaseAll_keeps (held : registry.holds session target key tick = true)
    (apart : session ≠ other) :
    (registry.releaseAll other).holds session target key tick = true := by
  obtain ⟨grant, found, owner, lasts⟩ := holds_iff.mp held
  refine holds_iff.mpr ⟨grant, ?_, owner, lasts⟩
  have stays : (grant.owner != other) = true := by simpa [owner] using apart
  simp [OwnershipRegistry.releaseAll, found, stays]

end Registry

section Waiting

/-- The tick in which a waiting command runs. -/
def executionTick (clock : UInt64) (command : Command) : UInt64 :=
  max command.targetTick clock

/-- The session that submitted a command, while its outcome is awaited. -/
def submittedBy (gateway : GatewayAdmission) (command : Command) (session : SessionId) : Prop :=
  ∃ entry, gateway.pendingCommands[command.meta.ingressSequence]? = some entry ∧
    entry.session = session

/-- What is kept of the commands that wait in the buffer. -/
structure WaitingLeases (buffer : CommandBuffer) (clock : UInt64) (gateway : GatewayAdmission) :
    Prop where
  waiting : ∀ command ∈ buffer.pending, External command →
    ∃ session, submittedBy gateway command session ∧
      ∀ target key value, command.payload = .setProperty target key value →
        gateway.ownership.holds session target key (executionTick clock command) = true
  distinct : buffer.pending.Pairwise fun left right => External left → External right →
    left.meta.ingressSequence ≠ right.meta.ingressSequence
  apart : ∀ (ingress : UInt64) (pending : PendingDurable),
    gateway.pendingDurable[ingress]? = some pending → gateway.pendingCommands[ingress]? = none
  below : ∀ (ingress : UInt64) (entry : PendingCommand),
    gateway.pendingCommands[ingress]? = some entry → ingress ≤ gateway.ingressSequence

variable {buffer : CommandBuffer} {clock : UInt64} {gateway after : GatewayAdmission}

/-- Steps that leave the buffer and the awaited outcomes alone. -/
theorem WaitingLeases.frame (leases : WaitingLeases buffer clock gateway)
    (commands : after.pendingCommands = gateway.pendingCommands)
    (counted : gateway.ingressSequence ≤ after.ingressSequence)
    (durable : ∀ (ingress : UInt64) (pending : PendingDurable),
      after.pendingDurable[ingress]? = some pending →
        gateway.pendingDurable[ingress]? ≠ none ∨ gateway.ingressSequence < ingress)
    (kept : ∀ command ∈ buffer.pending, External command → ∀ session target key value,
      submittedBy gateway command session → command.payload = .setProperty target key value →
      gateway.ownership.holds session target key (executionTick clock command) = true →
        after.ownership.holds session target key (executionTick clock command) = true) :
    WaitingLeases buffer clock after where
  waiting command member external := by
    obtain ⟨session, submitted, holds⟩ := leases.waiting command member external
    refine ⟨session, by rwa [submittedBy, commands], fun target key value payload => ?_⟩
    exact kept command member external session target key value submitted payload
      (holds target key value payload)
  distinct := leases.distinct
  apart ingress pending found := by
    rw [commands]
    rcases durable ingress pending found with known | later
    · obtain ⟨other, before⟩ := Option.ne_none_iff_exists'.mp known
      exact leases.apart ingress other before
    · by_contra used
      obtain ⟨entry, used⟩ := Option.ne_none_iff_exists'.mp used
      exact absurd (leases.below ingress entry used) (UInt64.not_le.mpr later)
  below ingress entry found := by
    rw [commands] at found
    exact UInt64.le_trans (leases.below ingress entry found) counted

/-- A command enters the buffer under a lease that lasts. -/
theorem WaitingLeases.enter (leases : WaitingLeases buffer clock gateway) {targetTick : UInt64}
    {payload : CommandPayload} {«meta» : CommandMeta} {entry : PendingCommand}
    (fresh : gateway.pendingCommands[«meta».ingressSequence]? = none)
    (ownership : after.ownership = gateway.ownership)
    (commands : after.pendingCommands =
      gateway.pendingCommands.insertIfNew «meta».ingressSequence entry)
    (counted : gateway.ingressSequence ≤ after.ingressSequence)
    (within : «meta».ingressSequence ≤ after.ingressSequence)
    (durable : ∀ (ingress : UInt64) (pending : PendingDurable),
      after.pendingDurable[ingress]? = some pending →
        gateway.pendingDurable[ingress]? = some pending ∧ ingress ≠ «meta».ingressSequence)
    (lasts : ∀ target key value, payload = .setProperty target key value →
      gateway.ownership.holds entry.session target key (max targetTick clock) = true) :
    WaitingLeases (buffer.enqueue targetTick payload «meta»).2 clock after := by
  have lookup : ∀ ingress : UInt64, after.pendingCommands[ingress]? =
      if ingress = «meta».ingressSequence then some entry
      else gateway.pendingCommands[ingress]? := by
    intro ingress
    rw [commands, lookup_insertIfNew _ fresh]
  have unused : ∀ command ∈ buffer.pending, External command →
      command.meta.ingressSequence ≠ «meta».ingressSequence := by
    intro command member external same
    obtain ⟨session, ⟨known, found, -⟩, -⟩ := leases.waiting command member external
    rw [same, fresh] at found
    cases found
  have older : ∀ command ∈ buffer.pending, External command →
      ∃ session, submittedBy after command session ∧
        ∀ target key value, command.payload = .setProperty target key value →
          after.ownership.holds session target key (executionTick clock command) = true := by
    intro command member external
    obtain ⟨session, ⟨known, found, own⟩, holds⟩ := leases.waiting command member external
    refine ⟨session, ⟨known, ?_, own⟩, ?_⟩
    · rw [lookup, if_neg (unused command member external), found]
    · rw [ownership]
      exact holds
  have apart : ∀ (ingress : UInt64) (pending : PendingDurable),
      after.pendingDurable[ingress]? = some pending → after.pendingCommands[ingress]? = none := by
    intro ingress pending found
    obtain ⟨before, other⟩ := durable ingress pending found
    rw [lookup, if_neg other]
    exact leases.apart ingress pending before
  have below : ∀ (ingress : UInt64) (entry : PendingCommand),
      after.pendingCommands[ingress]? = some entry → ingress ≤ after.ingressSequence := by
    intro ingress known found
    rw [lookup] at found
    split at found
    · rename_i same
      exact same ▸ within
    · exact UInt64.le_trans (leases.below ingress known found) counted
  rcases CommandBuffer.enqueue_cases buffer targetTick payload «meta» with ⟨-, same⟩ | ⟨-, more⟩
  · rw [same]
    exact ⟨older, leases.distinct, apart, below⟩
  · rw [more]
    refine ⟨fun command member external => ?_, ?_, apart, below⟩
    · rcases List.mem_append.mp member with old | new
      · exact older command old external
      · obtain rfl := List.mem_singleton.mp new
        refine ⟨entry.session, ⟨entry, by rw [lookup, if_pos rfl], rfl⟩, ?_⟩
        rw [ownership]
        exact lasts
    · refine List.pairwise_append.mpr ⟨leases.distinct, List.pairwise_singleton _ _, ?_⟩
      intro command member last new external _
      obtain rfl := List.mem_singleton.mp new
      exact unused command member external

/-- A command of the simulation enters the buffer. -/
theorem WaitingLeases.internal (leases : WaitingLeases buffer clock gateway)
    (command : UInt64 × CommandPayload) :
    WaitingLeases (GatewayLoop.enqueueInternal buffer command) clock gateway := by
  unfold GatewayLoop.enqueueInternal
  rcases CommandBuffer.enqueue_cases buffer command.1 command.2 {} with ⟨-, same⟩ | ⟨-, more⟩
  · rw [same]
    exact leases
  · rw [more]
    refine ⟨fun other member external => ?_, ?_, leases.apart, leases.below⟩
    · rcases List.mem_append.mp member with old | new
      · exact leases.waiting other old external
      · obtain rfl := List.mem_singleton.mp new
        exact absurd rfl external
    · refine List.pairwise_append.mpr ⟨leases.distinct, List.pairwise_singleton _ _, ?_⟩
      intro other member last new _ external
      obtain rfl := List.mem_singleton.mp new
      exact absurd rfl external

theorem WaitingLeases.internals (leases : WaitingLeases buffer clock gateway)
    (commands : List (UInt64 × CommandPayload)) :
    WaitingLeases (commands.foldl GatewayLoop.enqueueInternal buffer) clock gateway := by
  induction commands generalizing buffer with
  | nil => exact leases
  | cons command rest ih => exact ih (leases.internal command)

theorem mem_sorted {command : Command} : command ∈ buffer.sorted ↔ command ∈ buffer.pending :=
  (List.perm_insertionSort _ _).mem_iff

theorem max_of_le {late early : UInt64} (below : early ≤ late) : max late early = late := by
  change (if late ≤ early then early else late) = late
  split
  · rename_i above
    exact UInt64.le_antisymm below above
  · rfl

theorem executionTick_next {command : Command} (later : clock < command.targetTick) :
    executionTick (clock + 1) command = executionTick clock command := by
  have bound := command.targetTick.toNat_lt
  have below := UInt64.lt_iff_toNat_lt.mp later
  have next : clock + 1 ≤ command.targetTick := by
    rw [UInt64.le_iff_toNat_le, UInt64.toNat_add, UInt64.toNat_one]
    omega
  rw [executionTick, executionTick, max_of_le next, max_of_le (UInt64.le_of_lt later)]

/-- A tick: the due commands are run and no longer awaited. -/
theorem WaitingLeases.tick (leases : WaitingLeases buffer clock gateway) (world : World)
    (ownership : after.ownership = gateway.ownership)
    (durable : after.pendingDurable = gateway.pendingDurable)
    (counted : after.ingressSequence = gateway.ingressSequence)
    (commands : ∀ ingress : UInt64, after.pendingCommands[ingress]? =
      if ingress ∈ (buffer.apply world clock).1.outcomes.map CommandOutcome.ingressSequence then none
      else gateway.pendingCommands[ingress]?) :
    WaitingLeases (buffer.apply world clock).2.1 (clock + 1) after := by
  have : Std.Symm fun left right : Command => External left → External right →
      left.meta.ingressSequence ≠ right.meta.ingressSequence :=
    ⟨fun _ _ apart one two => (apart two one).symm⟩
  have subset : ∀ command ∈ buffer.deferred clock, command ∈ buffer.pending ∧
      clock < command.targetTick := by
    intro command member
    obtain ⟨member, later⟩ := List.mem_filter.mp member
    exact ⟨mem_sorted.mp member, of_decide_eq_true later⟩
  have awaited : ∀ command ∈ buffer.deferred clock, External command →
      command.meta.ingressSequence ∉
        (buffer.apply world clock).1.outcomes.map CommandOutcome.ingressSequence := by
    intro command member external reported
    obtain ⟨before, later⟩ := subset command member
    have outcomes := congrArg (List.map fun identity => identity.2.1)
      (CommandBuffer.apply_outcomes clock buffer world)
    simp only [List.map_map, Function.comp_def, CommandOutcome.identity, Command.identity]
      at outcomes
    rw [outcomes] at reported
    obtain ⟨ran, due, same⟩ := List.mem_map.mp reported
    obtain ⟨ranIn, now⟩ := List.mem_filter.mp due
    have different : ran ≠ command := by
      rintro rfl
      simp [later] at now
    exact leases.distinct.forall (mem_sorted.mp ranIn) before different
      (by rwa [External, same]) external same
  rw [CommandBuffer.apply_buffer]
  refine ⟨fun command member external => ?_, ?_, fun ingress pending found => ?_,
    fun ingress entry found => ?_⟩
  · obtain ⟨before, later⟩ := subset command member
    obtain ⟨session, ⟨entry, found, own⟩, holds⟩ := leases.waiting command before external
    have same := executionTick_next later
    refine ⟨session, ⟨entry, ?_, own⟩, ?_⟩
    · rw [commands, if_neg (awaited command member external), found]
    · rw [ownership, same]
      exact holds
  · exact (((List.perm_insertionSort _ _).pairwise_iff fun apart one two =>
      (apart two one).symm).mpr leases.distinct).sublist List.filter_sublist
  · rw [commands]
    split
    · rfl
    · exact leases.apart ingress pending (durable ▸ found)
  · rw [commands] at found
    split at found
    · cases found
    · exact counted ▸ leases.below ingress entry found

end Waiting

section Reporting

variable {σ : Type}

theorem commandApplied_gateway (accepts : CommandOutcome → Bool) (system : AdmissionSystem σ)
    (outcome : CommandOutcome) :
    (AdmissionSystem.commandApplied accepts system outcome).gateway.ownership =
        system.gateway.ownership ∧
      ∀ ingress : UInt64,
        (AdmissionSystem.commandApplied accepts system outcome).gateway.pendingCommands[ingress]? =
          if ingress = outcome.ingressSequence then none
          else system.gateway.pendingCommands[ingress]? := by
  have erased : ∀ ingress : UInt64,
      (system.gateway.pendingCommands.erase outcome.ingressSequence)[ingress]? =
        if ingress = outcome.ingressSequence then none
        else system.gateway.pendingCommands[ingress]? := lookup_erase _ _
  unfold AdmissionSystem.commandApplied
  split
  · rename_i missing
    refine ⟨rfl, fun ingress => ?_⟩
    split
    · rename_i same
      rw [same, missing]
    · rfl
  · dsimp only
    split
    · exact ⟨rfl, erased⟩
    · split
      · exact ⟨rfl, erased⟩
      · split
        · exact ⟨rfl, erased⟩
        · exact ⟨rfl, erased⟩

theorem onCommandsApplied_gateway (system : AdmissionSystem σ) (report : ApplyReport)
    (accepts : CommandOutcome → Bool) :
    (system.onCommandsApplied report accepts).gateway.ownership = system.gateway.ownership ∧
      ∀ ingress : UInt64,
        (system.onCommandsApplied report accepts).gateway.pendingCommands[ingress]? =
          if ingress ∈ report.outcomes.map CommandOutcome.ingressSequence then none
          else system.gateway.pendingCommands[ingress]? := by
  unfold AdmissionSystem.onCommandsApplied
  induction report.outcomes generalizing system with
  | nil => exact ⟨rfl, fun ingress => by simp⟩
  | cons outcome rest ih =>
    obtain ⟨first, erased⟩ := commandApplied_gateway accepts system outcome
    obtain ⟨later, gone⟩ := ih (AdmissionSystem.commandApplied accepts system outcome)
    refine ⟨later.trans first, fun ingress => ?_⟩
    rw [List.foldl_cons, gone, erased]
    by_cases here : ingress = outcome.ingressSequence <;> simp [here]

end Reporting

section Entering

/-- What a step does to the gateway when it leaves the buffer and the awaited outcomes alone. -/
structure Untouched (before after : AdmissionSystem CommandBuffer) : Prop where
  target : after.target = before.target
  ownership : after.gateway.ownership = before.gateway.ownership
  commands : after.gateway.pendingCommands = before.gateway.pendingCommands
  counted : before.gateway.ingressSequence ≤ after.gateway.ingressSequence
  durable : ∀ (ingress : UInt64) (pending : PendingDurable),
    after.gateway.pendingDurable[ingress]? = some pending →
      before.gateway.pendingDurable[ingress]? ≠ none ∨ before.gateway.ingressSequence < ingress

theorem Untouched.of_gateway {before after : AdmissionSystem CommandBuffer}
    (target : after.target = before.target) (gateway : after.gateway = before.gateway) :
    Untouched before after where
  target := target
  ownership := by rw [gateway]
  commands := by rw [gateway]
  counted := by
    rw [gateway]
    exact UInt64.le_refl _
  durable ingress pending found := .inl (by rw [← gateway, found]; simp)

/-- What a step does when a command enters the buffer. -/
structure EntersBuffer (before after : AdmissionSystem CommandBuffer) (session : SessionId)
    (targetTick : UInt64) (payload : CommandPayload) (ingress : UInt64) : Prop where
  entered : ∃ «meta» : CommandMeta, «meta».ingressSequence = ingress ∧
    after.target = (before.target.enqueue targetTick payload «meta»).2
  ownership : after.gateway.ownership = before.gateway.ownership
  commands : ∃ entry : PendingCommand, entry.session = session ∧
    after.gateway.pendingCommands = before.gateway.pendingCommands.insertIfNew ingress entry
  counted : before.gateway.ingressSequence ≤ after.gateway.ingressSequence
  within : ingress ≤ after.gateway.ingressSequence
  durable : ∀ (number : UInt64) (pending : PendingDurable),
    after.gateway.pendingDurable[number]? = some pending →
      before.gateway.pendingDurable[number]? = some pending ∧ number ≠ ingress

variable {system : AdmissionSystem CommandBuffer}

theorem handOver_buffer (given : system.submitter = some CommandBuffer.enqueue)
    (durableKey : Option DurableKey) (targetTick : UInt64) (payload : CommandPayload)
    («meta» : CommandMeta) :
    (system.handOver durableKey targetTick payload «meta»).1 =
        (system.target.enqueue targetTick payload «meta»).1 ∧
      (system.handOver durableKey targetTick payload «meta»).2.target =
        (system.target.enqueue targetTick payload «meta»).2 := by
  unfold AdmissionSystem.handOver
  rw [given]
  exact ⟨rfl, rfl⟩

theorem enqueue_refused {buffer : CommandBuffer} {targetTick : UInt64} {payload : CommandPayload}
    {«meta» : CommandMeta} (refused : (buffer.enqueue targetTick payload «meta»).1 = 0) :
    (buffer.enqueue targetTick payload «meta»).2 = buffer := by
  rcases CommandBuffer.enqueue_cases buffer targetTick payload «meta» with ⟨-, same⟩ | ⟨room, more⟩
  · rw [same]
  · rw [more] at refused
    exact absurd refused room

theorem submitCommand_enters (given : system.submitter = some CommandBuffer.enqueue)
    (filed : system.PendingFiled) (id : SessionId) (command : ExternalCommand)
    (currentTick : UInt64) (budget : Bool) :
    Untouched system (system.submitCommand id command currentTick budget).2 ∨
      ∃ info decision, system.gateway.sessions.find id = some info ∧
        system.gateway.checkCommandAdmission id info command currentTick budget = .ok decision ∧
        EntersBuffer system (system.submitCommand id command currentTick budget).2 id
          decision.targetTick decision.payload (system.gateway.ingressSequence + 1) ∧
        system.gateway.ingressSequence < system.gateway.ingressSequence + 1 := by
  have same : Untouched system system := .of_gateway rfl rfl
  unfold AdmissionSystem.submitCommand
  split
  · exact .inl same
  rename_i info known
  split
  · exact .inl same
  split
  · exact .inl same
  split
  · exact .inl same
  rename_i decision admitted
  split
  · exact .inl same
  split
  · exact .inl same
  rename_i room
  have later := AdmissionSystem.next_ingress room
  obtain ⟨answer, target⟩ := handOver_buffer
    (show (system.setIngress (system.gateway.ingressSequence + 1)).submitter = _ from given) none
      decision.targetTick decision.payload {
        ingressSequence := system.gateway.ingressSequence + 1
        expectedObjectVersion := command.expectedObjectVersion }
  dsimp only
  split
  · rename_i refused
    rw [answer] at refused
    refine .inl ⟨target.trans (enqueue_refused refused), ?_, ?_, ?_, ?_⟩
    · rw [AdmissionSystem.gateway_handOver]
      rfl
    · rw [AdmissionSystem.gateway_handOver]
      rfl
    · rw [AdmissionSystem.gateway_handOver]
      exact UInt64.le_of_lt later
    · intro ingress pending found
      rw [AdmissionSystem.gateway_handOver] at found
      exact .inl (by rw [show system.gateway.pendingDurable[ingress]? = some pending from found]; simp)
  · refine .inr ⟨info, decision, known, admitted, ⟨⟨_, rfl, target⟩, ?_,
      ⟨⟨id, command.clientSequence, none⟩, rfl, ?_⟩, ?_, ?_, ?_⟩, later⟩
    · simp [AdmissionSystem.storeReceipt, AdmissionSystem.addPendingCommand,
        AdmissionSystem.setIngress]
    · simp [AdmissionSystem.storeReceipt, AdmissionSystem.addPendingCommand,
        AdmissionSystem.setIngress]
    · simpa [AdmissionSystem.storeReceipt, AdmissionSystem.addPendingCommand,
        AdmissionSystem.setIngress] using UInt64.le_of_lt later
    · simp [AdmissionSystem.storeReceipt, AdmissionSystem.addPendingCommand,
        AdmissionSystem.setIngress]
    · intro number pending found
      have before : system.gateway.pendingDurable[number]? = some pending := by
        simpa [AdmissionSystem.storeReceipt, AdmissionSystem.addPendingCommand,
          AdmissionSystem.setIngress] using found
      refine ⟨before, fun new => ?_⟩
      have bound := (filed.filed number pending before).2
      rw [new] at bound
      exact absurd bound (UInt64.not_le.mpr later)

theorem admitPending_enters (given : system.submitter = some CommandBuffer.enqueue)
    (pending : PendingDurable) (lsn : UInt64) :
    (system.admitPending pending lsn).gateway.ownership = system.gateway.ownership ∧
      ((system.admitPending pending lsn).target = system.target ∧
          (system.admitPending pending lsn).gateway.pendingCommands =
            system.gateway.pendingCommands ∨
        ∃ «meta» : CommandMeta, «meta».ingressSequence = pending.ingressSequence ∧
          (system.admitPending pending lsn).target =
            (system.target.enqueue pending.targetTick pending.payload «meta»).2 ∧
          (system.admitPending pending lsn).gateway.pendingCommands =
            system.gateway.pendingCommands.insertIfNew pending.ingressSequence
              ⟨pending.session, pending.clientSequence, some pending.key⟩) := by
  obtain ⟨answer, target⟩ := handOver_buffer
    (show (system.setIndex (system.gateway.durableIndex.markDurableAccepted pending.key lsn
      pending.ingressSequence)).submitter = _ from given) (some pending.key) pending.targetTick
      pending.payload {
        ingressSequence := pending.ingressSequence
        expectedObjectVersion := pending.expectedObjectVersion
        durableLsn := lsn }
  unfold AdmissionSystem.admitPending
  dsimp only
  split
  · rename_i refused
    rw [answer] at refused
    refine ⟨?_, .inl ⟨target.trans (enqueue_refused refused), ?_⟩⟩ <;>
      simp [AdmissionSystem.complete, AdmissionSystem.storeReceipt, AdmissionSystem.setIndex]
  · refine ⟨?_, .inr ⟨_, rfl, target, ?_⟩⟩ <;>
      simp [AdmissionSystem.complete, AdmissionSystem.storeReceipt,
        AdmissionSystem.addPendingCommand, AdmissionSystem.setIndex]

theorem pollEntry_enters (given : system.submitter = some CommandBuffer.enqueue)
    (filed : system.PendingFiled) (ingress : UInt64) :
    Untouched system (system.pollEntry ingress) ∨
      ∃ pending outcome, system.gateway.pendingDurable[ingress]? = some pending ∧
        system.log.tryOutcome pending.ticket = some outcome ∧ outcome.ok = true ∧
        EntersBuffer system (system.pollEntry ingress) pending.session pending.targetTick
          pending.payload ingress := by
  unfold AdmissionSystem.pollEntry
  split
  · exact .inl (.of_gateway rfl rfl)
  rename_i pending found
  split
  · exact .inl (.of_gateway rfl rfl)
  rename_i outcome resolved
  have erased : ∀ (number : UInt64) (other : PendingDurable),
      (system.gateway.pendingDurable.erase ingress)[number]? = some other →
        system.gateway.pendingDurable[number]? = some other ∧ number ≠ ingress := by
    intro number other still
    rw [lookup_erase] at still
    split at still
    · cases still
    · rename_i different
      exact ⟨still, different⟩
  dsimp only
  split
  swap
  · refine .inl ⟨rfl, rfl, rfl, UInt64.le_refl _, fun number other still => .inl ?_⟩
    rw [(erased number other still).1]
    nofun
  rename_i ok
  obtain ⟨own, below⟩ := filed.filed ingress pending found
  obtain ⟨durable, counted⟩ := AdmissionSystem.admitPending_frame (system.extractPending ingress)
    pending outcome.lsn
  obtain ⟨ownership, ⟨target, commands⟩ | ⟨«meta», number, target, commands⟩⟩ :=
    admitPending_enters (show (system.extractPending ingress).submitter = _ from given) pending
      outcome.lsn
  · refine .inl ⟨target, ownership, commands, counted.symm ▸ UInt64.le_refl _, ?_⟩
    intro number other still
    rw [durable] at still
    exact .inl (by rw [(erased number other still).1]; simp)
  · refine .inr ⟨pending, outcome, found, resolved, ok, ⟨«meta», number.trans own, target⟩,
      ownership, ⟨_, rfl, own ▸ commands⟩, counted.symm ▸ UInt64.le_refl _, ?_, ?_⟩
    · rw [counted]
      exact below
    · intro number other still
      rw [durable] at still
      exact erased number other still

theorem submitDurableCommand_untouched (system : AdmissionSystem CommandBuffer) (id : SessionId)
    (command : ExternalCommand) (currentTick : UInt64) (budget accepts : Bool) :
    Untouched system (system.submitDurableCommand id command currentTick budget accepts) := by
  unfold AdmissionSystem.submitDurableCommand
  dsimp only
  split
  · exact .of_gateway rfl rfl
  split
  · exact .of_gateway rfl rfl
  · exact .of_gateway rfl rfl
  split
  · exact .of_gateway rfl rfl
  split
  · exact .of_gateway rfl rfl
  split
  · exact .of_gateway rfl rfl
  rename_i room
  split
  · exact .of_gateway rfl rfl
  have later := AdmissionSystem.next_ingress room
  refine ⟨rfl, rfl, rfl, UInt64.le_of_lt later, fun number pending found => ?_⟩
  simp only [AdmissionSystem.register, Std.ExtTreeMap.getElem?_insertIfNew] at found
  split at found
  · rename_i new
    obtain rfl := Std.LawfulEqCmp.eq_of_compare new.1
    exact .inr later
  · exact .inl (by rw [found]; simp)

end Entering

section Keeping

variable {gateway : GatewayAdmission} {session id : SessionId} {target asked : WorldId}
  {key : ByteString} {tick leaseUntilTick currentTick : UInt64} {keys : List ByteString}

theorem acquireKeys_keeps (principal : Principal)
    (held : gateway.ownership.holds session target key tick = true)
    (kept : asked = target → key ∈ keys →
      if session = id then tick < leaseUntilTick else currentTick ≤ tick) :
    (gateway.acquireKeys id principal asked leaseUntilTick currentTick
      keys).2.ownership.holds session target key tick = true := by
  induction keys generalizing gateway with
  | nil => exact held
  | cons first rest ih =>
    have acquired := acquire_keeps held fun same sameKey =>
      kept same (sameKey ▸ List.mem_cons_self)
    unfold GatewayAdmission.acquireKeys
    split
    · exact held
    split
    · exact held
    · rename_i ownership granted
      rw [granted] at acquired
      exact ih acquired fun same member => kept same (List.mem_cons_of_mem _ member)

theorem acquireOwnership_keeps
    (held : gateway.ownership.holds session target key tick = true)
    (kept : asked = target → key ∈ keys →
      if session = id then tick < leaseUntilTick else currentTick ≤ tick) :
    (gateway.acquireOwnership id asked keys leaseUntilTick currentTick).2.ownership.holds session
      target key tick = true := by
  unfold GatewayAdmission.acquireOwnership
  split
  · exact held
  split
  · exact held
  · exact acquireKeys_keeps _ held kept

theorem releases_keep {registry : OwnershipRegistry}
    (held : registry.holds session target key tick = true)
    (kept : asked = target → key ∈ keys → session ≠ id) :
    (keys.foldl (fun ownership key => (ownership.release id asked key).2) registry).holds session
      target key tick = true := by
  induction keys generalizing registry with
  | nil => exact held
  | cons first rest ih =>
    refine ih (release_keeps held fun same sameKey => ?_) fun same member => ?_
    · exact kept same (sameKey ▸ List.mem_cons_self)
    · exact kept same (List.mem_cons_of_mem _ member)

theorem releaseOwnership_keeps
    (held : gateway.ownership.holds session target key tick = true)
    (kept : asked = target → key ∈ keys → session ≠ id) :
    (gateway.releaseOwnership id asked keys).2.ownership.holds session target key tick = true := by
  unfold GatewayAdmission.releaseOwnership
  split
  · exact held
  · exact releases_keep held kept

theorem closeSession_keeps
    (held : gateway.ownership.holds session target key tick = true) (apart : session ≠ id) :
    (gateway.closeSession id).ownership.holds session target key tick = true := by
  unfold GatewayAdmission.closeSession
  split
  · exact held
  · exact releaseAll_keeps held apart

theorem closeSession_frame (gateway : GatewayAdmission) (id : SessionId) :
    (gateway.closeSession id).pendingCommands = gateway.pendingCommands ∧
      (gateway.closeSession id).ingressSequence = gateway.ingressSequence ∧
      (gateway.closeSession id).pendingDurable = gateway.pendingDurable := by
  unfold GatewayAdmission.closeSession
  split <;> exact ⟨rfl, rfl, rfl⟩

theorem releaseOwnership_frame (gateway : GatewayAdmission) (id : SessionId) (target : WorldId)
    (keys : List ByteString) :
    (gateway.releaseOwnership id target keys).2.pendingCommands = gateway.pendingCommands ∧
      (gateway.releaseOwnership id target keys).2.ingressSequence = gateway.ingressSequence ∧
      (gateway.releaseOwnership id target keys).2.pendingDurable = gateway.pendingDurable := by
  unfold GatewayAdmission.releaseOwnership
  split <;> exact ⟨rfl, rfl, rfl⟩

end Keeping

section Loop

/-- A property write of a session that waits in the buffer. -/
structure Waits (loop : GatewayLoop) (command : Command) (session : SessionId) (target : WorldId)
    (key : ByteString) : Prop where
  member : command ∈ loop.buffer.pending
  external : External command
  submitted : submittedBy loop.admission.gateway command session
  writes : ∃ value, command.payload = .setProperty target key value

/-- The lease lasts beyond the tick in which a write for this tick would run. -/
def CoversWrite (loop : GatewayLoop) (session : SessionId) (targetTick : UInt64)
    (payload : CommandPayload) : Prop :=
  ∀ target key value, payload = .setProperty target key value →
    loop.admission.gateway.ownership.holds session target key (max targetTick loop.clock) = true

/-- A write enters the buffer under a lease that covers it; while it waits, its session does
not give the lease up or shorten it, and the others ask with a tick that is not beyond it. -/
def LeaseKept (loop : GatewayLoop) : LoopEvent → Prop
  | .admission (.closeSession id) => ∀ command target key, ¬ Waits loop command id target key
  | .admission (.releaseOwnership id target keys) =>
    ∀ command, ∀ key ∈ keys, ¬ Waits loop command id target key
  | .admission (.acquireOwnership id target keys leaseUntilTick currentTick) =>
    ∀ command session, ∀ key ∈ keys, Waits loop command session target key →
      if session = id then executionTick loop.clock command < leaseUntilTick
      else currentTick ≤ executionTick loop.clock command
  | .admission (.submitCommand id command currentTick budget) => ∀ info decision,
    loop.admission.gateway.sessions.find id = some info →
    loop.admission.gateway.checkCommandAdmission id info command currentTick budget =
      .ok decision → CoversWrite loop id decision.targetTick decision.payload
  | .admission .pollNext =>
    ∀ (ingress : UInt64) (rest : List UInt64) (pending : PendingDurable)
      (outcome : DurableAppendOutcome),
      loop.admission.polling = some (ingress :: rest) →
      loop.admission.gateway.pendingDurable[ingress]? = some pending →
      loop.admission.log.tryOutcome pending.ticket = some outcome → outcome.ok = true →
        CoversWrite loop pending.session pending.targetTick pending.payload
  | _ => True

/-- The tick that comes now applies the command. -/
def AppliedNow (loop : GatewayLoop) (command : Command) : Prop :=
  command ∈ loop.buffer.due loop.clock ∧
    ∃ outcome ∈ (loop.buffer.apply loop.world loop.clock).1.outcomes,
      outcome.sequence = command.sequence ∧ outcome.applied = true

/-- Every property write that the next tick applies was submitted by the session that holds
the lease then, and by no other. -/
def WritesUnderLease (loop : GatewayLoop) : Prop :=
  ∀ command target key value, AppliedNow loop command → External command →
    command.payload = .setProperty target key value →
      ∃ session, submittedBy loop.admission.gateway command session ∧
        loop.admission.gateway.ownership.holds session target key loop.clock = true ∧
        ∀ other, loop.admission.gateway.ownership.holds other target key loop.clock = true →
          other = session

/-- What the condition keeps. -/
structure LeasedLoop (loop : GatewayLoop) : Prop where
  admissible : loop.admission.Admissible
  submitter : loop.admission.submitter = some CommandBuffer.enqueue
  leases : WaitingLeases loop.buffer loop.clock loop.admission.gateway

theorem LeasedLoop.writes {loop : GatewayLoop} (leased : LeasedLoop loop) :
    WritesUnderLease loop := by
  intro command target key value applied external payload
  obtain ⟨member, now⟩ := List.mem_filter.mp applied.1
  have come : command.targetTick ≤ loop.clock := by simpa using now
  obtain ⟨session, submitted, holds⟩ :=
    leased.leases.waiting command (mem_sorted.mp member) external
  have holds := holds target key value payload
  have same : executionTick loop.clock command = loop.clock := by
    change (if command.targetTick ≤ loop.clock then loop.clock else command.targetTick) = _
    rw [if_pos come]
  rw [same] at holds
  exact ⟨session, submitted, holds, fun other also => holds_unique holds also⟩

theorem WaitingLeases.untouched {before after : AdmissionSystem CommandBuffer} {clock : UInt64}
    (leases : WaitingLeases before.target clock before.gateway) (same : Untouched before after) :
    WaitingLeases after.target clock after.gateway := by
  rw [same.target]
  refine leases.frame same.commands same.counted same.durable ?_
  intro _ _ _ _ _ _ _ _ _ held
  rw [same.ownership]
  exact held

theorem WaitingLeases.entered {loop : GatewayLoop} {after : AdmissionSystem CommandBuffer}
    {session : SessionId} {targetTick ingress : UInt64} {payload : CommandPayload}
    (leases : WaitingLeases loop.buffer loop.clock loop.admission.gateway)
    (enters : EntersBuffer loop.admission after session targetTick payload ingress)
    (fresh : loop.admission.gateway.pendingCommands[ingress]? = none)
    (covers : CoversWrite loop session targetTick payload) :
    WaitingLeases after.target loop.clock after.gateway := by
  obtain ⟨«meta», rfl, target⟩ := enters.entered
  obtain ⟨entry, rfl, commands⟩ := enters.commands
  rw [target]
  exact leases.enter fresh enters.ownership commands enters.counted enters.within enters.durable
    covers

/-- A change of the registry keeps the leases of the waiting writes if it keeps each. -/
theorem LeasedLoop.registry {loop : GatewayLoop} {after : GatewayAdmission}
    (leased : LeasedLoop loop)
    (commands : after.pendingCommands = loop.admission.gateway.pendingCommands)
    (counted : after.ingressSequence = loop.admission.gateway.ingressSequence)
    (durable : after.pendingDurable = loop.admission.gateway.pendingDurable)
    (kept : ∀ command session target key, Waits loop command session target key →
      loop.admission.gateway.ownership.holds session target key
        (executionTick loop.clock command) = true →
      after.ownership.holds session target key (executionTick loop.clock command) = true) :
    WaitingLeases loop.buffer loop.clock after := by
  refine leased.leases.frame commands (counted.symm ▸ UInt64.le_refl _) ?_ ?_
  · intro ingress pending found
    rw [durable] at found
    exact .inl (Option.ne_none_iff_exists'.mpr ⟨pending, found⟩)
  · intro command member external session target key value submitted payload held
    exact kept command session target key ⟨member, external, submitted, value, payload⟩ held

theorem LeasedLoop.step_admission {loop : GatewayLoop} {event : AdmissionEvent}
    {admission : AdmissionSystem CommandBuffer} (leased : LeasedLoop loop)
    (kept : LeaseKept loop (.admission event))
    (served : ∀ report accepts, event ≠ .onCommandsApplied report accepts)
    (stepped : loop.admission.step event = some admission) :
    WaitingLeases admission.target loop.clock admission.gateway := by
  have filed := leased.admissible.filed
  rcases AdmissionSystem.step_cases stepped with ⟨_, _, _, _, _, rfl⟩ |
    ⟨ingress, rest, rfl, polling, rfl⟩ | ⟨_, _, rfl⟩ | ⟨_, main⟩
  · exact leased.leases
  · rcases pollEntry_enters leased.submitter filed ingress with same |
      ⟨pending, outcome, found, resolved, ok, enters⟩
    · have leases := leased.leases.untouched same
      exact leases
    · have leases := leased.leases.entered enters (leased.leases.apart ingress pending found)
        (kept ingress rest pending outcome polling found resolved ok)
      exact leases
  · exact leased.leases
  cases event with
  | fulfill ticket outcome => cases main
  | pollNext => cases main
  | openSession principal =>
    obtain rfl := Option.some.inj main
    exact leased.leases.untouched ⟨rfl, rfl, rfl, UInt64.le_refl _, fun _ _ found =>
      .inl (Option.ne_none_iff_exists'.mpr ⟨_, found⟩)⟩
  | pollBegin order =>
    simp only [AdmissionSystem.stepMain] at main
    split at main
    · obtain rfl := Option.some.inj main
      exact leased.leases.untouched ⟨rfl, rfl, rfl, UInt64.le_refl _, fun _ _ found =>
        .inl (Option.ne_none_iff_exists'.mpr ⟨_, found⟩)⟩
    · cases main
  | onCommandsApplied report accepts => exact absurd rfl (served report accepts)
  | closeSession id =>
    obtain rfl := Option.some.inj main
    obtain ⟨commands, counted, durable⟩ := closeSession_frame loop.admission.gateway id
    refine leased.registry commands counted durable fun command session target key waits held => ?_
    refine closeSession_keeps held fun same => ?_
    exact kept command target key (same ▸ waits)
  | acquireOwnership id target keys leaseUntilTick currentTick =>
    obtain rfl := Option.some.inj main
    obtain ⟨registry, shape⟩ := AdmissionSystem.acquireOwnership_frame loop.admission.gateway id
      target keys leaseUntilTick currentTick
    refine leased.registry ?_ ?_ ?_ fun command session asked key waits held => ?_
    · simp [shape]
    · simp [shape]
    · simp [shape]
    · refine acquireOwnership_keeps held fun same member => ?_
      exact kept command session key member (same ▸ waits)
  | releaseOwnership id target keys =>
    obtain rfl := Option.some.inj main
    obtain ⟨commands, counted, durable⟩ := releaseOwnership_frame loop.admission.gateway id target
      keys
    refine leased.registry commands counted durable fun command session asked key waits held => ?_
    refine releaseOwnership_keeps held fun same member sameSession => ?_
    exact kept command key member (same ▸ sameSession ▸ waits)
  | submitCommand id command currentTick budget =>
    obtain rfl := Option.some.inj main
    rcases submitCommand_enters leased.submitter filed id command currentTick budget with same |
      ⟨info, decision, known, admitted, enters, room⟩
    · exact leased.leases.untouched same
    · refine leased.leases.entered enters ?_ (kept info decision known admitted)
      by_contra used
      obtain ⟨entry, used⟩ := Option.ne_none_iff_exists'.mp used
      exact absurd (leased.leases.below _ entry used) (UInt64.not_le.mpr room)
  | submitDurableCommand id command currentTick budget accepts =>
    obtain rfl := Option.some.inj main
    exact leased.leases.untouched
      (submitDurableCommand_untouched loop.admission id command currentTick budget accepts)

theorem LeasedLoop.step {before after : GatewayLoop} {event : LoopEvent}
    (leased : LeasedLoop before) (kept : LeaseKept before event)
    (stepped : before.step event = some after) : LeasedLoop after := by
  have admissible := GatewayLoop.step_admissible leased.admissible stepped
  rcases GatewayLoop.step_cases stepped with ⟨inner, admission, rfl, moved, rfl⟩ |
    ⟨outcome, wal, _, fulfilled⟩ | ⟨targetTick, payload, _, rfl⟩ |
    ⟨world, internal, accepts, _, rfl⟩ | ⟨_, rfl⟩
  · have leases := leased.step_admission kept (fun report accepts same => by
      rw [same] at stepped
      cases stepped) moved
    exact ⟨admissible, (AdmissionSystem.step_calls moved).1.trans leased.submitter, leases⟩
  · obtain ⟨log, _, rfl⟩ := GatewayLoop.fulfillNext_cases fulfilled
    exact ⟨admissible, leased.submitter, leased.leases⟩
  · exact ⟨admissible, leased.submitter, leased.leases.internal (targetTick, payload)⟩
  · let report := (before.buffer.apply before.world before.clock).1
    let ran := (before.setBuffer (internal.foldl GatewayLoop.enqueueInternal
      (before.buffer.apply before.world before.clock).2.1)).admission
    obtain ⟨quiet, given⟩ := ran.onCommandsApplied_quiet report accepts
    obtain ⟨_, durable, counted⟩ := ran.onCommandsApplied_effect report accepts
    obtain ⟨ownership, commands⟩ := onCommandsApplied_gateway ran report accepts
    refine ⟨admissible, given.trans leased.submitter, ?_⟩
    have ticked := leased.leases.tick before.world ownership durable counted commands
    change WaitingLeases (ran.onCommandsApplied report accepts).target (before.clock + 1)
      (ran.onCommandsApplied report accepts).gateway
    rw [quiet.target]
    exact ticked.internals internal
  · exact ⟨admissible, leased.submitter, leased.leases⟩

theorem start_leased (config : GatewayConfig) (authorization : AuthorizationPolicy)
    (index : DurableIdempotencyIndex) (durableLog : Bool) (world : World) (clock : UInt64) :
    LeasedLoop (GatewayLoop.start config authorization index durableLog world clock) := by
  refine ⟨AdmissionSystem.start_admissible _ _ _ _ _ _, rfl, ?_⟩
  refine ⟨fun command member => absurd member List.not_mem_nil, List.Pairwise.nil, ?_, ?_⟩
  · intro ingress pending found
    simp [GatewayLoop.start, AdmissionSystem.start] at found
  · intro ingress entry found
    simp [GatewayLoop.start, AdmissionSystem.start] at found

/-- In every run in which writes enter the buffer under leases that cover them and sessions
keep the leases that their writes wait under, every tick writes under the lease. -/
theorem writes_run_under_lease (config : GatewayConfig) (authorization : AuthorizationPolicy)
    (index : DurableIdempotencyIndex) (durableLog : Bool) (world : World) (clock : UInt64)
    {events : List LoopEvent} {loop : GatewayLoop}
    (run : GuardedRun GatewayLoop.Step LeaseKept
      (GatewayLoop.start config authorization index durableLog world clock) events loop) :
    WritesUnderLease loop :=
  (run.invariant (start_leased config authorization index durableLog world clock)
    fun _ _ _ kept stepped leased => leased.step kept stepped).writes

end Loop

section Expired

def leasedWorld : World :=
  (World.insert {} { id := 1 }).2

def leasedLoop : GatewayLoop :=
  GatewayLoop.start {} openPolicy {} false leasedWorld 0

/-- A session takes a lease until some tick and writes under it at tick 5. -/
def leasedEvents (leaseUntilTick : UInt64) : List LoopEvent :=
  [.admission (.openSession ⟨[97], false⟩),
    .admission (.acquireOwnership 1 1 [[107]] leaseUntilTick 0),
    .admission (.submitCommand 1 {
      session := 1
      clientSequence := 1
      targetWid := 1
      params := .setProperty [107] (.boolean true)
      targetTickHint := 5 } 0 true)] ++
    List.replicate 5 (.tick leasedWorld [] fun _ => true)

/-- The next tick applies a write whose session does not hold the lease. -/
def unleasedWrite (loop : GatewayLoop) : Bool :=
  (loop.buffer.due loop.clock).any fun command =>
    command.meta.ingressSequence != 0 &&
      ((loop.buffer.apply loop.world loop.clock).1.outcomes.any fun outcome =>
        outcome.sequence == command.sequence && outcome.applied) &&
      match command.payload,
        loop.admission.gateway.pendingCommands[command.meta.ingressSequence]? with
      | .setProperty target key _, some entry =>
        !loop.admission.gateway.ownership.holds entry.session target key loop.clock
      | _, _ => false

/-- A lease until tick 2 admits a write that runs in tick 5. -/
theorem expired_lease_writes :
    ¬ ∀ (config : GatewayConfig) (authorization : AuthorizationPolicy)
      (index : DurableIdempotencyIndex) (durableLog : Bool) (world : World) (clock : UInt64)
      (events : List LoopEvent) (loop : GatewayLoop),
      AnyRun GatewayLoop.Step
        (GatewayLoop.start config authorization index durableLog world clock) events loop →
      WritesUnderLease loop := by
  intro claimed
  have computed : (runLabels GatewayLoop.step leasedLoop (leasedEvents 2)).map unleasedWrite =
      some true := by
    decide +kernel
  obtain ⟨loop, reached, unleased⟩ := Option.map_eq_some_iff.mp computed
  have run : AnyRun GatewayLoop.Step leasedLoop _ loop :=
    GuardedRun.of_runLabels reached fun _ _ => trivial
  have under := claimed {} openPolicy {} false leasedWorld 0 _ loop run
  obtain ⟨command, due, wrong⟩ := List.any_eq_true.mp unleased
  simp only [Bool.and_eq_true, bne_iff_ne, List.any_eq_true, beq_iff_eq] at wrong
  obtain ⟨⟨external, outcome, reported, same, applied⟩, wrong⟩ := wrong
  split at wrong
  · rename_i target key value entry payload found
    obtain ⟨session, ⟨known, again, rfl⟩, holds, -⟩ := under command target key value
      ⟨due, outcome, reported, same, applied⟩ external payload
    obtain rfl := Option.some.inj (found.symm.trans again)
    simp [holds] at wrong
  · cases wrong

/-- A step without a waiting write, or a write under a lease that covers it. -/
def leaseKeptCheck (loop : GatewayLoop) : LoopEvent → Bool
  | .admission (.openSession _) => true
  | .admission (.acquireOwnership _ _ _ _ _) => loop.buffer.pending.isEmpty
  | .admission (.submitCommand id command currentTick budget) =>
    (loop.admission.gateway.sessions.find id).all fun info =>
      match loop.admission.gateway.checkCommandAdmission id info command currentTick budget with
      | .ok ⟨targetTick, .setProperty target key _⟩ =>
        loop.admission.gateway.ownership.holds id target key (max targetTick loop.clock)
      | _ => true
  | .tick _ _ _ => true
  | _ => false

theorem leaseKeptCheck_sound (loop : GatewayLoop) (event : LoopEvent)
    (passed : leaseKeptCheck loop event = true) : LeaseKept loop event := by
  cases event with
  | admission inner =>
    cases inner with
    | openSession principal => trivial
    | acquireOwnership id target keys leaseUntilTick currentTick =>
      intro command session key _ waits
      have empty : loop.buffer.pending = [] := List.isEmpty_iff.mp passed
      exact absurd waits.member (by simp [empty])
    | submitCommand id command currentTick budget =>
      intro info decision known admitted target key value payload
      simp only [leaseKeptCheck, known, Option.all_some, admitted] at passed
      obtain ⟨targetTick, written⟩ := decision
      simp only at payload
      subst payload
      exact passed
    | _ => cases passed
  | tick world internal accepts => trivial
  | _ => cases passed

theorem writes_run_under_lease_until_ten :
    ∃ loop, runLabels GatewayLoop.step leasedLoop (leasedEvents 10) = some loop ∧
      WritesUnderLease loop := by
  have computed : (runLabels (fun loop event =>
      if leaseKeptCheck loop event then loop.step event else none) leasedLoop
        (leasedEvents 10)).isSome := by
    decide +kernel
  obtain ⟨loop, reached⟩ := Option.isSome_iff_exists.mp computed
  have run := GuardedRun.of_checked leaseKeptCheck_sound reached
  exact ⟨loop, run.computed, writes_run_under_lease {} openPolicy {} false leasedWorld 0 run⟩

end Expired

end GeoWorld.Gateway
