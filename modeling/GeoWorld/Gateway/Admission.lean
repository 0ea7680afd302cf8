import Mathlib
import GeoWorld.Gateway.DurableIndex

/-!
Admission of external commands (`GatewayCore`): sessions, ownership, the admission
check, the in-process path, the durable path behind an admission log, and the
outcomes that the command buffer reports back.
The token bucket of a session works on a clock and doubles; its answer is an input
of each submission. Completion callbacks are numbered in the order of the calls of
`submitDurableCommand` that brought them.
-/

namespace GeoWorld.Gateway

open WorldModel Library Simulation

structure GatewayConfig where
  commandLeadTicks : UInt64 := 1
  maxCommandLeadTicks : UInt64 := 5
  maxSessions : Nat := 1024
  maxCommandParameters : Nat := 64
  initialIngressSequence : UInt64 := 0

structure AuthorizationPolicy where
  canWriteProperty : Principal → WorldId → ByteString → Bool
  canManageObjects : Principal → Bool

structure SessionInfo where
  id : SessionId
  principal : Principal
  deriving DecidableEq

structure ReceiptKey where
  session : SessionId
  clientSequence : UInt64
  deriving DecidableEq

abbrev ReceiptKey.cmp : ReceiptKey → ReceiptKey → Ordering :=
  compareFields ReceiptKey.session ReceiptKey.clientSequence

instance : Std.TransCmp ReceiptKey.cmp :=
  inferInstance

instance : Std.LawfulEqCmp ReceiptKey.cmp := by
  refine compareFields_lawful _ _ fun a b session sequence => ?_
  cases a
  cases b
  simp_all

/-- `SessionManager` without stream tickets and token buckets. -/
structure SessionManager where
  maxSessions : Nat := 1024
  nextSessionValue : UInt64 := 1
  sessions : Std.ExtTreeMap SessionId SessionInfo compare := ∅
  receipts : Std.ExtTreeMap ReceiptKey CommandReceipt ReceiptKey.cmp := ∅

namespace SessionManager

def find (manager : SessionManager) (id : SessionId) : Option SessionInfo :=
  manager.sessions[id]?

/-- The id 0 answers that there is no room. -/
def «open» (manager : SessionManager) (principal : Principal) : SessionId × SessionManager :=
  if manager.maxSessions ≤ manager.sessions.size then
    (0, manager)
  else
    let id := manager.nextSessionValue
    (id, { manager with
      nextSessionValue := id + 1
      sessions := manager.sessions.insertIfNew id ⟨id, principal⟩ })

def close (manager : SessionManager) (id : SessionId) : SessionManager :=
  { manager with sessions := manager.sessions.erase id }

def findReceipt (manager : SessionManager) (id : SessionId) (clientSequence : UInt64) :
    Option CommandReceipt :=
  manager.receipts[ReceiptKey.mk id clientSequence]?

def storeReceipt (manager : SessionManager) (id : SessionId) (receipt : CommandReceipt) :
    SessionManager :=
  { manager with receipts := manager.receipts.insert ⟨id, receipt.clientSequence⟩ receipt }

end SessionManager

structure OwnershipKey where
  target : WorldId
  key : ByteString
  deriving DecidableEq

abbrev OwnershipKey.cmp : OwnershipKey → OwnershipKey → Ordering :=
  compareFields OwnershipKey.target OwnershipKey.key

instance : Std.TransCmp OwnershipKey.cmp :=
  inferInstance

instance : Std.LawfulEqCmp OwnershipKey.cmp := by
  refine compareFields_lawful _ _ fun a b target key => ?_
  cases a
  cases b
  simp_all

structure Grant where
  owner : SessionId
  leaseUntilTick : UInt64
  deriving DecidableEq

structure OwnershipRegistry where
  grants : Std.ExtTreeMap OwnershipKey Grant OwnershipKey.cmp := ∅

namespace OwnershipRegistry

def acquire (registry : OwnershipRegistry) (session : SessionId) (target : WorldId)
    (key : ByteString) (leaseUntilTick currentTick : UInt64) : Bool × OwnershipRegistry :=
  let granted : OwnershipRegistry := ⟨registry.grants.insert ⟨target, key⟩ ⟨session, leaseUntilTick⟩⟩
  match registry.grants[OwnershipKey.mk target key]? with
  | none => (true, granted)
  | some grant =>
    if grant.owner ≠ session ∧ currentTick < grant.leaseUntilTick then
      (false, registry)
    else
      (true, granted)

def release (registry : OwnershipRegistry) (session : SessionId) (target : WorldId)
    (key : ByteString) : Bool × OwnershipRegistry :=
  match registry.grants[OwnershipKey.mk target key]? with
  | none => (true, registry)
  | some grant =>
    if grant.owner ≠ session then
      (false, registry)
    else
      (true, ⟨registry.grants.erase ⟨target, key⟩⟩)

def holds (registry : OwnershipRegistry) (session : SessionId) (target : WorldId)
    (key : ByteString) (currentTick : UInt64) : Bool :=
  match registry.grants[OwnershipKey.mk target key]? with
  | none => false
  | some grant => grant.owner == session && decide (currentTick < grant.leaseUntilTick)

def releaseAll (registry : OwnershipRegistry) (session : SessionId) : OwnershipRegistry :=
  ⟨registry.grants.filter fun _ grant => grant.owner != session⟩

end OwnershipRegistry

inductive DurableRecordKind where
  | externalCommand
  | commandOutcome
  deriving DecidableEq

structure DurableRecord where
  kind : DurableRecordKind := .externalCommand
  targetTick : UInt64 := 0
  payload : ByteString
  deriving DecidableEq

structure DurableAppendOutcome where
  lsn : UInt64
  ok : Bool
  deriving DecidableEq

/-- A ticket is the position of its record among the records the log took. -/
abbrev DurableTicket := Nat

/-- The admission log as the gateway sees it: the records it took, and the outcomes it has
reported so far. -/
structure DurableAdmissionLog where
  appended : List DurableRecord := []
  outcomes : Std.ExtTreeMap DurableTicket DurableAppendOutcome compare := ∅

namespace DurableAdmissionLog

/-- `accepts` is the answer of the log: it refuses when its queue is full, when it is faulted
and when it shuts down. -/
def append (log : DurableAdmissionLog) (accepts : Bool) (record : DurableRecord) :
    Option DurableTicket × DurableAdmissionLog :=
  if accepts then
    (some log.appended.length, { log with appended := log.appended ++ [record] })
  else
    (none, log)

def tryOutcome (log : DurableAdmissionLog) (ticket : DurableTicket) :
    Option DurableAppendOutcome :=
  log.outcomes[ticket]?

/-- The writer thread completes a ticket, once. -/
def fulfill (log : DurableAdmissionLog) (ticket : DurableTicket)
    (outcome : DurableAppendOutcome) : Option DurableAdmissionLog :=
  if ticket < log.appended.length ∧ log.outcomes[ticket]? = none then
    some { log with outcomes := log.outcomes.insert ticket outcome }
  else
    none

end DurableAdmissionLog

structure PendingCommand where
  session : SessionId
  clientSequence : UInt64
  durableKey : Option DurableKey := none
  deriving DecidableEq

structure PendingDurable where
  key : DurableKey
  session : SessionId
  clientSequence : UInt64
  ingressSequence : UInt64
  targetTick : UInt64
  expectedObjectVersion : UInt64
  payload : CommandPayload
  ticket : DurableTicket
  completion : Nat
  deriving DecidableEq

/-- The part of `GatewayCore` that admits commands. -/
structure GatewayAdmission where
  config : GatewayConfig := {}
  authorization : AuthorizationPolicy
  sessions : SessionManager := { maxSessions := config.maxSessions }
  ownership : OwnershipRegistry := {}
  ingressSequence : UInt64 := config.initialIngressSequence
  pendingCommands : Std.ExtTreeMap UInt64 PendingCommand compare := ∅
  /-- Whether `set_durable_log` was given a log. -/
  durableLog : Bool := false
  durableIndex : DurableIdempotencyIndex := {}
  pendingDurable : Std.ExtTreeMap UInt64 PendingDurable compare := ∅
  durableOutcomeTickets : List DurableTicket := []

structure AdmissionDecision where
  targetTick : UInt64
  payload : CommandPayload
  deriving DecidableEq

namespace GatewayAdmission

def closeSession (gateway : GatewayAdmission) (id : SessionId) : GatewayAdmission :=
  match gateway.sessions.find id with
  | none => gateway
  | some _ => { gateway with
      ownership := gateway.ownership.releaseAll id
      sessions := gateway.sessions.close id }

/-- The loop over the keys; those granted before a refusal stay granted. -/
def acquireKeys (gateway : GatewayAdmission) (id : SessionId) (principal : Principal)
    (target : WorldId) (leaseUntilTick currentTick : UInt64) :
    List ByteString → GatewayError × GatewayAdmission
  | [] => (.none, gateway)
  | key :: keys =>
    if !gateway.authorization.canWriteProperty principal target key then
      (.permissionDenied, gateway)
    else
      match gateway.ownership.acquire id target key leaseUntilTick currentTick with
      | (false, _) => (.permissionDenied, gateway)
      | (true, ownership) =>
        acquireKeys { gateway with ownership := ownership } id principal target leaseUntilTick
          currentTick keys

def acquireOwnership (gateway : GatewayAdmission) (id : SessionId) (target : WorldId)
    (keys : List ByteString) (leaseUntilTick currentTick : UInt64) :
    GatewayError × GatewayAdmission :=
  match gateway.sessions.find id with
  | none => (.invalidRequest, gateway)
  | some info =>
    if !target.valid || keys.isEmpty || decide (leaseUntilTick ≤ currentTick) then
      (.invalidRequest, gateway)
    else
      gateway.acquireKeys id info.principal target leaseUntilTick currentTick keys

def releaseOwnership (gateway : GatewayAdmission) (id : SessionId) (target : WorldId)
    (keys : List ByteString) : GatewayError × GatewayAdmission :=
  match gateway.sessions.find id with
  | none => (.invalidRequest, gateway)
  | some _ => (.none, { gateway with
      ownership := keys.foldl (fun ownership key => (ownership.release id target key).2)
        gateway.ownership })

/-- `check_command_admission`; `budget` is the answer of the session's token bucket. -/
def checkCommandAdmission (gateway : GatewayAdmission) (id : SessionId) (info : SessionInfo)
    (command : ExternalCommand) (currentTick : UInt64) (budget : Bool) :
    Except GatewayError AdmissionDecision :=
  if !budget then
    .error .rateLimited
  else
    let targetTick :=
      if command.targetTickHint ≠ 0 then command.targetTickHint
      else currentTick + gateway.config.commandLeadTicks
    if targetTick < currentTick + 1 ∨
        currentTick + gateway.config.maxCommandLeadTicks < targetTick then
      .error .tickOutOfWindow
    else
      match command.params with
      | .setProperty key value =>
        if !command.targetWid.valid then
          .error .invalidRequest
        else if !gateway.authorization.canWriteProperty info.principal command.targetWid key then
          .error .permissionDenied
        else if !gateway.ownership.holds id command.targetWid key currentTick then
          .error .permissionDenied
        else
          .ok ⟨targetTick, .setProperty command.targetWid key value⟩
      | .createObject requestedId semanticType geometryRef position properties =>
        if !gateway.authorization.canManageObjects info.principal then
          .error .permissionDenied
        else if !requestedId.valid ||
            decide (gateway.config.maxCommandParameters < properties.size) then
          .error .invalidRequest
        else
          .ok ⟨targetTick, .createObject {
            id := requestedId
            semanticType := semanticType
            geometryRef := geometryRef
            position := position
            properties := properties }⟩
      | .destroyObject =>
        if !gateway.authorization.canManageObjects info.principal then
          .error .permissionDenied
        else if !command.targetWid.valid then
          .error .invalidRequest
        else
          .ok ⟨targetTick, .destroyObject command.targetWid⟩

end GatewayAdmission

/-- `CommandSubmitter` over the state it writes to; the answer 0 is a failed enqueue. -/
abbrev CommandSubmitter (σ : Type) :=
  σ → UInt64 → CommandPayload → CommandMeta → UInt64 × σ

structure Completion where
  callback : Nat
  error : GatewayError
  receipt : CommandReceipt
  deriving DecidableEq

/-- One call of the submitter. -/
structure HandOver where
  durableKey : Option DurableKey
  targetTick : UInt64
  payload : CommandPayload
  «meta» : CommandMeta
  deriving DecidableEq

/-- The gateway with what it calls: the admission log, the submitter and the completion
callbacks. The last two fields record every call in order. -/
structure AdmissionSystem (σ : Type) where
  gateway : GatewayAdmission
  log : DurableAdmissionLog := {}
  submitter : Option (CommandSubmitter σ)
  target : σ
  /-- While tickets are polled: the ingress numbers the loop has yet to visit. -/
  polling : Option (List UInt64) := none
  callbacks : Nat := 0
  completions : List Completion := []
  handed : List HandOver := []

namespace AdmissionSystem

variable {σ : Type}

def complete (system : AdmissionSystem σ) (callback : Nat) (error : GatewayError)
    (receipt : CommandReceipt) : AdmissionSystem σ :=
  { system with completions := system.completions ++ [⟨callback, error, receipt⟩] }

def setIndex (system : AdmissionSystem σ) (index : DurableIdempotencyIndex) :
    AdmissionSystem σ :=
  { system with gateway := { system.gateway with durableIndex := index } }

def storeReceipt (system : AdmissionSystem σ) (session : SessionId) (receipt : CommandReceipt) :
    AdmissionSystem σ :=
  { system with gateway := { system.gateway with
      sessions := system.gateway.sessions.storeReceipt session receipt } }

def setIngress (system : AdmissionSystem σ) (ingress : UInt64) : AdmissionSystem σ :=
  { system with gateway := { system.gateway with ingressSequence := ingress } }

def addPendingCommand (system : AdmissionSystem σ) (ingress : UInt64) (pending : PendingCommand) :
    AdmissionSystem σ :=
  { system with gateway := { system.gateway with
      pendingCommands := system.gateway.pendingCommands.insertIfNew ingress pending } }

/-- A call of the submitter; without one nothing is called and the answer is 0. -/
def handOver (system : AdmissionSystem σ) (durableKey : Option DurableKey) (targetTick : UInt64)
    (payload : CommandPayload) («meta» : CommandMeta) : UInt64 × AdmissionSystem σ :=
  match system.submitter with
  | none => (0, system)
  | some submit =>
    let (sequence, target) := submit system.target targetTick payload «meta»
    (sequence, { system with
      target := target
      handed := system.handed ++ [⟨durableKey, targetTick, payload, «meta»⟩] })

def rejectedReceipt (command : ExternalCommand) (error : GatewayError) : CommandReceipt :=
  { status := .rejected, error := error, clientSequence := command.clientSequence }

/-- `submit_command`: the answer and the system after it. -/
def submitCommand (system : AdmissionSystem σ) (id : SessionId) (command : ExternalCommand)
    (currentTick : UInt64) (budget : Bool) :
    (GatewayError × CommandReceipt) × AdmissionSystem σ :=
  let rejected (error : GatewayError) (system : AdmissionSystem σ) :=
    ((error, rejectedReceipt command error), system)
  match system.gateway.sessions.find id with
  | none => rejected .invalidRequest system
  | some info =>
    if id ≠ command.session then
      rejected .invalidRequest system
    else
      match system.gateway.sessions.findReceipt id command.clientSequence with
      | some cached => ((.none, { cached with status := .duplicate }), system)
      | none =>
        match system.gateway.checkCommandAdmission id info command currentTick budget with
        | .error error => rejected error system
        | .ok decision =>
          if system.submitter.isNone then
            rejected .invalidRequest system
          else if system.gateway.ingressSequence = UInt64.ofNat (UInt64.size - 1) then
            rejected .limitExceeded system
          else
            let ingress := system.gateway.ingressSequence + 1
            let (sequence, system) := (system.setIngress ingress).handOver none
              decision.targetTick decision.payload {
                ingressSequence := ingress
                expectedObjectVersion := command.expectedObjectVersion }
            if sequence = 0 then
              rejected .limitExceeded system
            else
              let receipt : CommandReceipt := {
                clientSequence := command.clientSequence
                ingressSequence := ingress }
              ((.none, receipt), (system.addPendingCommand ingress
                ⟨id, command.clientSequence, none⟩).storeReceipt id receipt)

/-- The receipt that answers a repeated submission. -/
def knownReceipt (entry : DurableIdempotencyEntry) : CommandReceipt :=
  { clientSequence := entry.clientSequence
    ingressSequence := entry.ingressSequence
    durableLsn := entry.lsn
    status := match entry.state with
      | .pending => .accepted
      | .durableAccepted => .durableAccepted
      | .applied => .applied
      | .rejected => .rejected
    error := match entry.state with
      | .rejected => entry.error
      | _ => .none }

/-- The key a submission is registered under, when its session is known and its own. -/
def submissionKey (system : AdmissionSystem σ) (id : SessionId) (command : ExternalCommand) :
    Option (SessionInfo × DurableKey) :=
  match system.gateway.sessions.find id, command.requestId with
  | some info, some requestId =>
    if id ≠ command.session then none else some (info, ⟨info.principal.id, requestId⟩)
  | _, _ => none

/-- A submission whose record the log took waits for its ticket. -/
def register (system : AdmissionSystem σ) (fingerprint : ByteString) (pending : PendingDurable) :
    AdmissionSystem σ :=
  { system with gateway := { system.gateway with
      ingressSequence := pending.ingressSequence
      durableIndex := system.gateway.durableIndex.registerPending pending.key fingerprint
        pending.clientSequence
      pendingDurable := system.gateway.pendingDurable.insertIfNew pending.ingressSequence
        pending } }

/-- `submit_durable_command`. `accepts` is the answer of the log to an append. -/
def submitDurableCommand (system : AdmissionSystem σ) (id : SessionId)
    (command : ExternalCommand) (currentTick : UInt64) (budget accepts : Bool) :
    AdmissionSystem σ :=
  let callback := system.callbacks
  let system := { system with callbacks := callback + 1 }
  let finishRejected (error : GatewayError) :=
    system.complete callback error (rejectedReceipt command error)
  match system.submissionKey id command with
  | none => finishRejected .invalidRequest
  | some (info, key) =>
    let fingerprint := makeCommandFingerprint command
    match system.gateway.durableIndex.lookup key fingerprint with
    | some (_, false) => finishRejected .idempotencyConflict
    | some (entry, true) =>
      system.complete callback (knownReceipt entry).error (knownReceipt entry)
    | none =>
      match system.gateway.checkCommandAdmission id info command currentTick budget with
      | .error error => finishRejected error
      | .ok decision =>
        if !system.gateway.durableLog then
          finishRejected .durabilityUnavailable
        else if system.gateway.ingressSequence = UInt64.ofNat (UInt64.size - 1) then
          finishRejected .limitExceeded
        else
          match system.log.append accepts {
              targetTick := decision.targetTick
              payload := encodeExternalCommandRecord info.principal.id key.requestId
                decision.targetTick command } with
          | (none, _) => finishRejected .durabilityUnavailable
          | (some ticket, log) =>
            ({ system with log := log }).register fingerprint {
              key := key
              session := id
              clientSequence := command.clientSequence
              ingressSequence := system.gateway.ingressSequence + 1
              targetTick := decision.targetTick
              expectedObjectVersion := command.expectedObjectVersion
              payload := decision.payload
              ticket := ticket
              completion := callback }

/-- The first loop of `poll_durable_tickets` keeps the outcome tickets still being written. -/
def sweepOutcomeTickets (system : AdmissionSystem σ) : AdmissionSystem σ :=
  { system with gateway := { system.gateway with
      durableOutcomeTickets := system.gateway.durableOutcomeTickets.filter fun ticket =>
        (system.log.tryOutcome ticket).isNone } }

/-- A pending submission whose record is durable: it is handed to the submitter. -/
def admitPending (system : AdmissionSystem σ) (pending : PendingDurable) (lsn : UInt64) :
    AdmissionSystem σ :=
  let system := system.setIndex (system.gateway.durableIndex.markDurableAccepted pending.key
    lsn pending.ingressSequence)
  let (sequence, system) := system.handOver (some pending.key) pending.targetTick
    pending.payload {
      ingressSequence := pending.ingressSequence
      expectedObjectVersion := pending.expectedObjectVersion
      durableLsn := lsn }
  if sequence = 0 then
    let final : CommandReceipt := {
      status := .rejected
      error := .limitExceeded
      clientSequence := pending.clientSequence
      ingressSequence := pending.ingressSequence
      durableLsn := lsn }
    ((system.setIndex (system.gateway.durableIndex.markFinal pending.key false
      .limitExceeded)).storeReceipt pending.session final).complete pending.completion
        .limitExceeded final
  else
    let receipt : CommandReceipt := {
      status := .durableAccepted
      clientSequence := pending.clientSequence
      ingressSequence := pending.ingressSequence
      durableLsn := lsn }
    ((system.storeReceipt pending.session receipt).addPendingCommand pending.ingressSequence
      ⟨pending.session, pending.clientSequence, some pending.key⟩).complete pending.completion
        .none receipt

/-- A pending submission whose record could not be written. -/
def failPending (system : AdmissionSystem σ) (pending : PendingDurable) : AdmissionSystem σ :=
  (system.setIndex (system.gateway.durableIndex.erase pending.key)).complete pending.completion
    .durabilityUnavailable {
      status := .rejected
      error := .durabilityUnavailable
      clientSequence := pending.clientSequence }

def extractPending (system : AdmissionSystem σ) (ingress : UInt64) : AdmissionSystem σ :=
  { system with gateway := { system.gateway with
      pendingDurable := system.gateway.pendingDurable.erase ingress } }

/-- One turn of the second loop of `poll_durable_tickets`. -/
def pollEntry (system : AdmissionSystem σ) (ingress : UInt64) : AdmissionSystem σ :=
  match system.gateway.pendingDurable[ingress]? with
  | none => system
  | some pending =>
    match system.log.tryOutcome pending.ticket with
    | none => system
    | some outcome =>
      let system := system.extractPending ingress
      if outcome.ok then system.admitPending pending outcome.lsn
      else system.failPending pending

/-- The receipt a reported outcome turns into. -/
def outcomeReceipt (command : PendingCommand) (outcome : CommandOutcome) : CommandReceipt :=
  { clientSequence := command.clientSequence
    ingressSequence := outcome.ingressSequence
    status := if outcome.applied then .applied else .rejected
    error := if outcome.applied then .none else
      match outcome.reason with
      | .versionConflict => .versionConflict
      | .missingObject => .missingObject
      | _ => .invalidRequest }

/-- The loop body of `on_commands_applied`, without the delivery to streams. -/
def commandApplied (accepts : CommandOutcome → Bool) (system : AdmissionSystem σ)
    (outcome : CommandOutcome) : AdmissionSystem σ :=
  match system.gateway.pendingCommands[outcome.ingressSequence]? with
  | none => system
  | some command =>
    let receipt := outcomeReceipt command outcome
    let system := { system with gateway := { system.gateway with
      pendingCommands := system.gateway.pendingCommands.erase outcome.ingressSequence } }
    let system := system.storeReceipt command.session receipt
    match command.durableKey with
    | none => system
    | some key =>
      let system := system.setIndex (system.gateway.durableIndex.markFinal key
        (receipt.status = .applied) receipt.error)
      if !system.gateway.durableLog then
        system
      else
        match system.log.append (accepts outcome) {
            kind := .commandOutcome
            payload := encodeCommandOutcomeRecord key.principalId key.requestId
              command.clientSequence outcome.ingressSequence (receipt.status = .applied)
              receipt.error } with
        | (none, _) => system
        | (some ticket, log) => { system with
            log := log
            gateway := { system.gateway with
              durableOutcomeTickets := system.gateway.durableOutcomeTickets ++ [ticket] } }

def onCommandsApplied (system : AdmissionSystem σ) (report : ApplyReport)
    (accepts : CommandOutcome → Bool) : AdmissionSystem σ :=
  report.outcomes.foldl (commandApplied accepts) system

end AdmissionSystem

/-- What happens to the gateway. Tickets are fulfilled by the writer thread at any moment,
also between two turns of the poll loop; everything else runs on the main thread. -/
inductive AdmissionEvent where
  | openSession (principal : Principal)
  | closeSession (id : SessionId)
  | acquireOwnership (id : SessionId) (target : WorldId) (keys : List ByteString)
      (leaseUntilTick currentTick : UInt64)
  | releaseOwnership (id : SessionId) (target : WorldId) (keys : List ByteString)
  | submitCommand (id : SessionId) (command : ExternalCommand) (currentTick : UInt64)
      (budget : Bool)
  | submitDurableCommand (id : SessionId) (command : ExternalCommand) (currentTick : UInt64)
      (budget accepts : Bool)
  | fulfill (ticket : DurableTicket) (outcome : DurableAppendOutcome)
  /-- `poll_durable_tickets` starts; `order` is the iteration order of the hash map. -/
  | pollBegin (order : List UInt64)
  | pollNext
  | onCommandsApplied (report : ApplyReport) (accepts : CommandOutcome → Bool)

namespace AdmissionSystem

variable {σ : Type}

/-- The main thread, outside of `poll_durable_tickets`. -/
def stepMain (system : AdmissionSystem σ) : AdmissionEvent → Option (AdmissionSystem σ)
  | .openSession principal =>
    some { system with gateway := { system.gateway with
      sessions := (system.gateway.sessions.open principal).2 } }
  | .closeSession id => some { system with gateway := system.gateway.closeSession id }
  | .acquireOwnership id target keys leaseUntilTick currentTick =>
    some { system with gateway := (system.gateway.acquireOwnership id target keys
      leaseUntilTick currentTick).2 }
  | .releaseOwnership id target keys =>
    some { system with gateway := (system.gateway.releaseOwnership id target keys).2 }
  | .submitCommand id command currentTick budget =>
    some (system.submitCommand id command currentTick budget).2
  | .submitDurableCommand id command currentTick budget accepts =>
    some (system.submitDurableCommand id command currentTick budget accepts)
  | .pollBegin order =>
    if order.isPerm system.gateway.pendingDurable.keys then
      some { system.sweepOutcomeTickets with polling := some order }
    else
      none
  | .onCommandsApplied report accepts => some (system.onCommandsApplied report accepts)
  | .fulfill _ _ => none
  | .pollNext => none

def step (system : AdmissionSystem σ) (event : AdmissionEvent) : Option (AdmissionSystem σ) :=
  match event, system.polling with
  | .fulfill ticket outcome, _ =>
    (system.log.fulfill ticket outcome).map fun log => { system with log := log }
  | .pollNext, some (ingress :: rest) =>
    some { system.pollEntry ingress with polling := some rest }
  | .pollNext, some [] => some { system with polling := none }
  | .pollNext, none => none
  | _, some _ => none
  | event, none => system.stepMain event

end AdmissionSystem

end GeoWorld.Gateway
