import Mathlib
import GeoWorld.Gateway.AdmissionGrowth
import GeoWorld.Gateway.SessionCore
import GeoWorld.Library.EditScript
import GeoWorld.Projection.ConnectionSet

/-!
Closing a session leaves nothing of it exactly if no durable submission of it is in flight and
no subscription of it is pending, and a close keeps the entries of the other sessions.
-/

namespace GeoWorld.Gateway

open WorldModel Library Projection Simulation

namespace SessionCore

variable {σ : Type}

def IsOpen (core : SessionCore σ) (id : SessionId) : Prop :=
  core.find id ≠ none

/-- Whatever names a session names an open one. A connection of the engine belongs to the
session of the gateway's connection. -/
structure NothingLeft (core : SessionCore σ) : Prop where
  tickets : ∀ (token : ByteString) (state : TicketState), core.tickets[token]? = some state →
    core.IsOpen state.session
  receipts : ∀ key ∈ core.admission.gateway.sessions.receipts, core.IsOpen key.session
  grants : ∀ (key : OwnershipKey) (grant : Grant),
    core.admission.gateway.ownership.grants[key]? = some grant → core.IsOpen grant.owner
  connections : ∀ (connection : ConnectionId) (stream : SessionStream),
    core.connections[connection]? = some stream → core.IsOpen stream.session
  projected : ∀ connection ∈ core.engine.connections, connection ∈ core.connections
  subscriptions : ∀ id ∈ core.pendingSubscriptions, core.IsOpen id

/-- The entries of the sessions other than `id` are the same. -/
structure OthersKept (id : SessionId) (before after : SessionCore σ) : Prop where
  sessions : ∀ other ≠ id, after.find other = before.find other
  tickets : ∀ (token : ByteString) (state : TicketState), state.session ≠ id →
    (after.tickets[token]? = some state ↔ before.tickets[token]? = some state)
  receipts : ∀ other ≠ id, ∀ clientSequence,
    after.admission.gateway.sessions.findReceipt other clientSequence =
      before.admission.gateway.sessions.findReceipt other clientSequence
  grants : ∀ (key : OwnershipKey) (grant : Grant), grant.owner ≠ id →
    (after.admission.gateway.ownership.grants[key]? = some grant ↔
      before.admission.gateway.ownership.grants[key]? = some grant)
  connections : ∀ (connection : ConnectionId) (stream : SessionStream), stream.session ≠ id →
    (after.connections[connection]? = some stream ↔ before.connections[connection]? = some stream)
  projected : ∀ (connection : ConnectionId) (stream : SessionStream),
    before.connections[connection]? = some stream → stream.session ≠ id →
      after.engine.connections[connection]? = before.engine.connections[connection]?
  subscriptions : ∀ other ≠ id,
    after.pendingSubscriptions[other]? = before.pendingSubscriptions[other]?
  pendingCommands : after.admission.gateway.pendingCommands =
    before.admission.gateway.pendingCommands
  pendingDurable : after.admission.gateway.pendingDurable = before.admission.gateway.pendingDurable

/-- A session is closed before it has a receipt or a subscription, and no submission of a
closed session becomes durable. -/
def ClosesClean (core : SessionCore σ) : SessionCall → Prop
  | .closeSession id => core.IsOpen id →
    (∀ key ∈ core.admission.gateway.sessions.receipts, key.session ≠ id) ∧
      id ∉ core.pendingSubscriptions
  | .admission .pollNext => ∀ pending ∈ core.admission.admitting, core.IsOpen pending.session
  | _ => True

structure SessionInv (core : SessionCore σ) : Prop where
  left : NothingLeft core
  awaited : ∀ (ingress : UInt64) (pending : PendingCommand),
    core.admission.gateway.pendingCommands[ingress]? = some pending →
      ⟨pending.session, pending.clientSequence⟩ ∈ core.admission.gateway.sessions.receipts
  named : ∀ id info, core.find id = some info → info.id = id
  engine_inv : EngineInv core.engine

section Calls

variable {core : SessionCore σ}

theorem isOpen_of_find {id : SessionId} {info : SessionInfo} (known : core.find id = some info) :
    core.IsOpen id := by
  rw [IsOpen, known]
  simp

theorem SessionInv.opened (inv : SessionInv core) (principal : Principal) :
    SessionInv (core.setSessions (core.admission.gateway.sessions.open principal).2) := by
  have named := WatchedTickets.open_named principal inv.named
  obtain same | same := WatchedTickets.open_cases core.admission.gateway.sessions principal
  · rw [same]
    exact inv
  · have still (id : SessionId) (known : core.IsOpen id) :
        (core.setSessions (core.admission.gateway.sessions.open principal).2).IsOpen id := by
      obtain ⟨info, found⟩ := Option.ne_none_iff_exists'.mp known
      simp only [IsOpen, find, setSessions, same, SessionManager.find, lookup_insertIfNew_or]
      rw [show core.admission.gateway.sessions.sessions[id]? = some info from found]
      simp
    have receipts : (core.admission.gateway.sessions.open principal).2.receipts =
        core.admission.gateway.sessions.receipts := by rw [same]
    refine ⟨⟨fun token state held => still _ (inv.left.tickets token state held),
      fun key member => still _ (inv.left.receipts key (receipts ▸ member)),
      fun key grant held => still _ (inv.left.grants key grant held),
      fun connection stream held => still _ (inv.left.connections connection stream held),
      inv.left.projected, fun id member => still _ (inv.left.subscriptions id member)⟩,
      fun ingress pending held => ?_, named, inv.engine_inv⟩
    exact receipts ▸ inv.awaited ingress pending held

theorem SessionInv.issued (inv : SessionInv core) (id : SessionId) (token : ByteString)
    (now : Nat) : SessionInv (core.issueTicket id token now) := by
  refine ⟨⟨fun other state held => ?_, inv.left.receipts, inv.left.grants, inv.left.connections,
    inv.left.projected, inv.left.subscriptions⟩, inv.awaited, inv.named, inv.engine_inv⟩
  simp only [issueTicket, Tickets.issue] at held
  split at held
  · exact inv.left.tickets other state held
  · rename_i info known
    rw [lookup_insertIfNew_or] at held
    obtain old | ⟨-, new⟩ := Option.or_eq_some_iff.mp held
    · exact inv.left.tickets other state old
    · split at new
      · obtain rfl := Option.some.inj new
        exact isOpen_of_find known
      · cases new

theorem SessionInv.openSession (inv : SessionInv core) (principal : Principal)
    (token : ByteString) (now : Nat) : SessionInv (core.openSession principal token now).2 := by
  unfold SessionCore.openSession
  dsimp only
  split
  · exact inv.opened principal
  · exact (inv.opened principal).issued _ token now

theorem SessionInv.issueStreamTicket (inv : SessionInv core) (id : SessionId)
    (token : ByteString) (now : Nat) : SessionInv (core.issueStreamTicket id token now) := by
  unfold SessionCore.issueStreamTicket
  split
  · exact inv
  · exact inv.issued id token now

theorem SessionInv.updateSubscription (inv : SessionInv core) (id : SessionId)
    (subscription : Subscription) : SessionInv (core.updateSubscription id subscription).2 := by
  unfold SessionCore.updateSubscription
  split
  · exact inv
  rename_i info known
  split
  · exact inv
  · refine ⟨⟨inv.left.tickets, inv.left.receipts, inv.left.grants, inv.left.connections,
      fun connection member => ?_, fun other member => ?_⟩, inv.awaited, inv.named, ?_⟩
    · exact inv.left.projected connection
        ((mem_updateSubscriptions subscription _ core.engine connection).mp member)
    · rw [Std.ExtTreeMap.mem_insert, Std.LawfulEqCmp.compare_eq_iff_eq] at member
      obtain rfl | old := member
      · exact isOpen_of_find known
      · exact inv.left.subscriptions other old
    · exact @engineInv_foldl _ _ (fun connection => .updateSubscription connection subscription)
        (fun _ _ => rfl) _ inv.engine_inv

theorem SessionInv.attachStream (inv : SessionInv core) (connection : ConnectionId)
    (token : ByteString) (now : Nat) : SessionInv (core.attachStream connection token now).2 := by
  have redeemed : SessionInv { core with
      tickets := (core.tickets.redeem core.admission.gateway.sessions now token).2 } := by
    refine ⟨⟨fun other state held => ?_, inv.left.receipts, inv.left.grants, inv.left.connections,
      inv.left.projected, inv.left.subscriptions⟩, inv.awaited, inv.named, inv.engine_inv⟩
    refine inv.left.tickets other state ?_
    simp only [Tickets.redeem] at held
    split at held
    · exact held
    · rw [lookup_erase] at held
      split at held
      · cases held
      · exact held
  have known (info : SessionInfo)
      (answer : (core.tickets.redeem core.admission.gateway.sessions now token).1 = some info) :
      core.find info.id = some info := by
    simp only [Tickets.redeem] at answer
    split at answer
    · cases answer
    split at answer
    · cases answer
    · rename_i state _ _
      have own := inv.named state.session info answer
      rw [own]
      exact answer
  unfold SessionCore.attachStream
  dsimp only
  split
  · exact redeemed
  rename_i info answer
  have opened : core.IsOpen info.id := isOpen_of_find (known info answer)
  split
  · exact redeemed
  split
  · exact redeemed
  rename_i engine added
  refine ⟨⟨redeemed.left.tickets, inv.left.receipts, inv.left.grants, fun other stream held => ?_,
    fun other member => ?_, inv.left.subscriptions⟩, inv.awaited, inv.named, ?_⟩
  · simp only [addStream, lookup_insert] at held
    split at held
    · rw [← Option.some.inj held]
      cases present : core.connections[connection]? with
      | none => exact opened
      | some older => exact inv.left.connections connection older present
    · exact inv.left.connections other stream held
  · rw [addStream, Std.ExtTreeMap.mem_insert]
    unfold ProjectionEngine.addConnection at added
    split at added
    · cases (Prod.mk.inj added).1
    · rw [← (Prod.mk.inj added).2] at member
      exact (Std.ExtTreeMap.mem_insert.mp member).imp_right (inv.left.projected other)
  · have stepped : core.engine.step (.addConnection connection
        (core.pendingSubscriptions[info.id]?.getD {})) = some engine := by
      rw [ProjectionEngine.step, added]
    exact inv.engine_inv.step stepped

theorem SessionInv.detachStream (inv : SessionInv core) (connection : ConnectionId) :
    SessionInv (core.detachStream connection) := by
  have removed : core.engine.step (.removeConnection connection) =
      some (core.engine.removeConnection connection).2 := rfl
  refine ⟨⟨inv.left.tickets, inv.left.receipts, inv.left.grants, fun other stream held => ?_,
    fun other member => ?_, inv.left.subscriptions⟩, inv.awaited, inv.named,
    inv.engine_inv.step removed⟩
  · simp only [SessionCore.detachStream, lookup_erase] at held
    split at held
    · cases held
    · exact inv.left.connections other stream held
  · obtain ⟨apart, present⟩ := Std.ExtTreeMap.mem_erase.mp member
    exact Std.ExtTreeMap.mem_erase.mpr ⟨apart, inv.left.projected other present⟩

theorem SessionInv.serve (inv : SessionInv core) (tick : UInt64)
    (change : ConnectionId → StreamState → StreamState) : SessionInv (core.serve tick change) := by
  refine ⟨⟨inv.left.tickets, inv.left.receipts, inv.left.grants, fun connection stream held => ?_,
    fun connection member => ?_, inv.left.subscriptions⟩, inv.awaited, inv.named, inv.engine_inv⟩
  · simp only [SessionCore.serve, Std.ExtTreeMap.getElem?_map, Option.map_eq_some_iff] at held
    obtain ⟨older, present, rfl⟩ := held
    exact inv.left.connections connection older present
  · exact Std.ExtTreeMap.mem_map.mpr (inv.left.projected connection member)

theorem SessionInv.engine (inv : SessionInv core) {event : EngineEvent}
    {engine : ProjectionEngine} (stepped : core.engine.step event = some engine)
    (adds : ∀ id subscription, event ≠ .addConnection id subscription)
    (removes : ∀ id, event ≠ .removeConnection id) :
    SessionInv { core with engine := engine } := by
  refine ⟨⟨inv.left.tickets, inv.left.receipts, inv.left.grants, inv.left.connections,
    fun connection member => ?_, inv.left.subscriptions⟩, inv.awaited, inv.named,
    inv.engine_inv.step stepped⟩
  exact inv.left.projected connection
    ((mem_connections_step inv.engine_inv stepped adds removes connection).mp member)

theorem SessionInv.admission (inv : SessionInv core) {admission : AdmissionSystem σ}
    (grows : Grows core.IsOpen core.admission.gateway admission.gateway) :
    SessionInv { core with admission := admission } := by
  have find (id : SessionId) : SessionCore.find { core with admission := admission } id =
      core.find id := by
    simp only [SessionCore.find, SessionManager.find, grows.sessions]
  have still (id : SessionId) (known : core.IsOpen id) :
      IsOpen { core with admission := admission } id := by
    rw [IsOpen, find]
    exact known
  refine ⟨⟨fun token state held => still _ (inv.left.tickets token state held),
    fun key member => ?_, fun key grant held => ?_,
    fun connection stream held => still _ (inv.left.connections connection stream held),
    inv.left.projected, fun id member => still _ (inv.left.subscriptions id member)⟩,
    fun ingress pending held => ?_, fun id info found => ?_, inv.engine_inv⟩
  · obtain old | own := grows.receipts key member
    · exact still _ (inv.left.receipts key old)
    · exact still _ own
  · obtain old | own := grows.grants key grant held
    · exact still _ (inv.left.grants key grant old)
    · exact still _ own
  · obtain old | added := grows.commands ingress pending held
    · exact grows.kept _ (inv.awaited ingress pending old)
    · exact added.2
  · rw [find] at found
    exact inv.named id info found

theorem mem_streamsOf {id : SessionId} {connection : ConnectionId} :
    connection ∈ core.streamsOf id ↔
      ∃ stream, core.connections[connection]? = some stream ∧ stream.session = id := by
  simp only [streamsOf, List.mem_map, List.mem_filter, Prod.exists, exists_and_right,
    exists_eq_right, Std.ExtTreeMap.mem_toList_iff_getElem?_eq_some, beq_iff_eq]

/-- What is there of a closed session's neighbours, and what is not there of itself. -/
structure ClosedBy (id : SessionId) (before after : SessionCore σ) : Prop where
  find : ∀ other, after.find other = if other = id then none else before.find other
  tickets : ∀ (token : ByteString) (state : TicketState),
    after.tickets[token]? = some state ↔ before.tickets[token]? = some state ∧ state.session ≠ id
  receipts : after.admission.gateway.sessions.receipts = before.admission.gateway.sessions.receipts
  grants : ∀ (key : OwnershipKey) (grant : Grant),
    after.admission.gateway.ownership.grants[key]? = some grant ↔
      before.admission.gateway.ownership.grants[key]? = some grant ∧ grant.owner ≠ id
  connections : ∀ connection : ConnectionId, after.connections[connection]? =
    if connection ∈ before.streamsOf id then none else before.connections[connection]?
  projected : ∀ connection : ConnectionId, after.engine.connections[connection]? =
    if connection ∈ before.streamsOf id then none else before.engine.connections[connection]?
  subscriptions : after.pendingSubscriptions = before.pendingSubscriptions
  pendingCommands : after.admission.gateway.pendingCommands =
    before.admission.gateway.pendingCommands
  pendingDurable : after.admission.gateway.pendingDurable = before.admission.gateway.pendingDurable
  engine_inv : EngineInv before.engine → EngineInv after.engine

theorem closeSession_closed {id : SessionId} (opened : core.IsOpen id) :
    ClosedBy id core (core.closeSession id).2 := by
  obtain ⟨info, known⟩ := Option.ne_none_iff_exists'.mp opened
  have known' : core.admission.gateway.sessions.find id = some info := known
  have admission : core.admission.gateway.closeSession id = { core.admission.gateway with
      ownership := core.admission.gateway.ownership.releaseAll id
      sessions := core.admission.gateway.sessions.close id } := by
    simp only [GatewayAdmission.closeSession, known']
  have closed : core.closeSession id = (true, { core with
      admission := { core.admission with gateway := core.admission.gateway.closeSession id }
      tickets := core.tickets.revoke id
      engine := (core.streamsOf id).foldl
        (fun engine connection => (engine.removeConnection connection).2) core.engine
      connections := (core.streamsOf id).foldl
        (fun connections connection => connections.erase connection) core.connections }) := by
    simp only [SessionCore.closeSession, known]
  rw [closed, admission]
  constructor
  · intro other
    exact lookup_erase _ _ _
  · exact WatchedTickets.lookup_revoke core.tickets id
  · rfl
  · intro key grant
    simp only [OwnershipRegistry.releaseAll, Std.ExtTreeMap.getElem?_filter',
      Option.filter_eq_some_iff, bne_iff_ne]
  · intro connection
    exact lookup_foldl_erase _ _ _
  · intro connection
    simp only [removeConnections_connections]
    exact lookup_foldl_erase _ _ _
  · rfl
  · rfl
  · rfl
  · exact @engineInv_foldl _ _ (fun connection => .removeConnection connection)
      (fun _ _ => rfl) _

theorem ClosedBy.othersKept {id : SessionId} {after : SessionCore σ}
    (closed : ClosedBy id core after) : OthersKept id core after where
  sessions other apart := by rw [closed.find, if_neg apart]
  tickets token state apart := by simp [closed.tickets, apart]
  receipts other _ clientSequence := by
    rw [SessionManager.findReceipt, closed.receipts]
    rfl
  grants key grant apart := by simp [closed.grants, apart]
  connections connection stream apart := by
    rw [closed.connections]
    split
    · rename_i own
      obtain ⟨older, held, same⟩ := mem_streamsOf.mp own
      rw [held]
      simp only [reduceCtorEq, Option.some.injEq, false_iff]
      rintro rfl
      exact apart same
    · rfl
  projected connection stream held apart := by
    rw [closed.projected, if_neg]
    intro own
    obtain ⟨older, present, same⟩ := mem_streamsOf.mp own
    obtain rfl := Option.some.inj (held.symm.trans present)
    exact apart same
  subscriptions other _ := by rw [closed.subscriptions]
  pendingCommands := closed.pendingCommands
  pendingDurable := closed.pendingDurable

theorem ClosedBy.isOpen {id other : SessionId} {after : SessionCore σ}
    (closed : ClosedBy id core after) : after.IsOpen other ↔ other ≠ id ∧ core.IsOpen other := by
  rw [IsOpen, closed.find]
  split
  · simp_all
  · simp_all [IsOpen]

/-- Only receipts and subscriptions can outlive the close. -/
theorem ClosedBy.nothingLeft {id : SessionId} {after : SessionCore σ}
    (closed : ClosedBy id core after) (left : NothingLeft core) :
    NothingLeft after ↔ (∀ key ∈ core.admission.gateway.sessions.receipts, key.session ≠ id) ∧
      id ∉ core.pendingSubscriptions := by
  constructor
  · intro cleared
    refine ⟨fun key member => ?_, fun member => ?_⟩
    · exact (closed.isOpen.mp (cleared.receipts key (closed.receipts ▸ member))).1
    · exact (closed.isOpen.mp (cleared.subscriptions id (closed.subscriptions ▸ member))).1 rfl
  · rintro ⟨receipts, subscription⟩
    refine ⟨fun token state held => ?_, fun key member => ?_, fun key grant held => ?_,
      fun connection stream held => ?_, fun connection member => ?_, fun other member => ?_⟩
    · obtain ⟨old, apart⟩ := (closed.tickets token state).mp held
      exact closed.isOpen.mpr ⟨apart, left.tickets token state old⟩
    · rw [closed.receipts] at member
      exact closed.isOpen.mpr ⟨receipts key member, left.receipts key member⟩
    · obtain ⟨old, apart⟩ := (closed.grants key grant).mp held
      exact closed.isOpen.mpr ⟨apart, left.grants key grant old⟩
    · rw [closed.connections] at held
      split at held
      · cases held
      · rename_i others
        refine closed.isOpen.mpr ⟨fun same => others ?_, left.connections connection stream held⟩
        exact mem_streamsOf.mpr ⟨stream, held, same⟩
    · rw [Std.ExtTreeMap.mem_iff_isSome_getElem?, closed.projected] at member
      rw [Std.ExtTreeMap.mem_iff_isSome_getElem?, closed.connections]
      split at member
      · cases member
      · rename_i others
        rw [if_neg others, ← Std.ExtTreeMap.mem_iff_isSome_getElem?]
        exact left.projected connection (Std.ExtTreeMap.mem_iff_isSome_getElem?.mpr member)
    · rw [closed.subscriptions] at member
      refine closed.isOpen.mpr ⟨?_, left.subscriptions other member⟩
      rintro rfl
      exact subscription member

theorem SessionInv.closeSession (inv : SessionInv core) {id : SessionId}
    (clean : ClosesClean core (.closeSession id)) : SessionInv (core.closeSession id).2 := by
  by_cases opened : core.IsOpen id
  · have closed := closeSession_closed opened
    refine ⟨(closed.nothingLeft inv.left).mpr (clean opened), fun ingress pending held => ?_,
      fun other info found => ?_, closed.engine_inv inv.engine_inv⟩
    · rw [closed.pendingCommands] at held
      rw [closed.receipts]
      exact inv.awaited ingress pending held
    · rw [closed.find] at found
      split at found
      · cases found
      · exact inv.named other info found
  · have missing : core.find id = none := not_not.mp opened
    simp only [SessionCore.closeSession, missing]
    exact inv

/-- An event of the admission, with the one that can leave something behind. -/
theorem SessionInv.admitted (inv : SessionInv core) {event : AdmissionEvent}
    {admission : AdmissionSystem σ} (stepped : core.admission.step event = some admission)
    (opens : ∀ principal, event ≠ .openSession principal)
    (closes : ∀ id, event ≠ .closeSession id) (clean : ClosesClean core (.admission event)) :
    SessionInv { core with admission := admission } := by
  refine inv.admission (core.admission.step_grows stepped opens closes (fun _ opened => opened)
    (fun ingress pending held => inv.left.receipts _ (inv.awaited ingress pending held)) ?_)
  rintro rfl
  exact clean

theorem stepMain_of_step {call : SessionCall} {after : SessionCore σ}
    (stepped : core.step call = some after) (main : ∀ event, call ≠ .admission event) :
    core.stepMain call = some after := by
  unfold SessionCore.step at stepped
  split at stepped
  · exact absurd rfl (main _)
  · exact absurd rfl (main _)
  · exact absurd rfl (main _)
  · cases stepped
  · exact stepped

theorem SessionInv.step (inv : SessionInv core) {call : SessionCall} {after : SessionCore σ}
    (stepped : core.step call = some after) (clean : ClosesClean core call) :
    SessionInv after := by
  cases call with
  | admission event =>
    cases event with
    | openSession principal => cases stepped
    | closeSession id => cases stepped
    | _ =>
      obtain ⟨admission, moved, rfl⟩ := Option.map_eq_some_iff.mp stepped
      exact inv.admitted moved (fun _ same => by cases same) (fun _ same => by cases same) clean
  | openSession principal token now =>
    obtain rfl := Option.some.inj (stepMain_of_step stepped fun _ same => by cases same)
    exact inv.openSession principal token now
  | closeSession id =>
    obtain rfl := Option.some.inj (stepMain_of_step stepped fun _ same => by cases same)
    exact inv.closeSession clean
  | updateSubscription id subscription =>
    obtain rfl := Option.some.inj (stepMain_of_step stepped fun _ same => by cases same)
    exact inv.updateSubscription id subscription
  | issueStreamTicket id token now =>
    obtain rfl := Option.some.inj (stepMain_of_step stepped fun _ same => by cases same)
    exact inv.issueStreamTicket id token now
  | attachStream connection token now =>
    obtain rfl := Option.some.inj (stepMain_of_step stepped fun _ same => by cases same)
    exact inv.attachStream connection token now
  | detachStream connection =>
    obtain rfl := Option.some.inj (stepMain_of_step stepped fun _ same => by cases same)
    exact inv.detachStream connection
  | serve tick change =>
    obtain rfl := Option.some.inj (stepMain_of_step stepped fun _ same => by cases same)
    exact inv.serve tick change
  | engine event =>
    have main := stepMain_of_step stepped fun _ same => by cases same
    cases event with
    | addConnection id subscription => cases main
    | removeConnection id => cases main
    | _ =>
      simp only [stepMain, Option.map_eq_some_iff] at main
      obtain ⟨engine, moved, rfl⟩ := main
      exact inv.engine moved (fun _ _ same => by cases same) (fun _ same => by cases same)

/-- A call that leaves nothing behind met the condition. -/
theorem NothingLeft.clean (inv : SessionInv core) {call : SessionCall} {after : SessionCore σ}
    (stepped : core.step call = some after) (left : NothingLeft after) :
    ClosesClean core call := by
  cases call with
  | closeSession id =>
    obtain rfl := Option.some.inj (stepMain_of_step stepped fun _ same => by cases same)
    intro opened
    exact ((closeSession_closed opened).nothingLeft inv.left).mp left
  | admission event =>
    cases event with
    | pollNext =>
      intro pending admitted
      obtain ⟨admission, moved, rfl⟩ := Option.map_eq_some_iff.mp stepped
      cases polling : core.admission.polling with
      | none => simp [AdmissionSystem.step, polling] at moved
      | some order =>
        cases order with
        | nil => simp [AdmissionSystem.admitting, polling] at admitted
        | cons ingress rest =>
          have receipt := core.admission.pollEntry_receipt admitted polling
          simp only [AdmissionSystem.step, polling, Option.some.injEq] at moved
          subst moved
          have same := (@AdmissionSystem.pollEntry_grows σ (fun _ => True) core.admission ingress
            rest polling fun _ _ => trivial).sessions
          have opened := left.receipts _ receipt
          rw [IsOpen, find, SessionManager.find] at opened ⊢
          rw [← same]
          exact opened
    | _ => trivial
  | _ => trivial

end Calls

section Results

/-- One call as a step between states. -/
abbrev Steps (before : SessionCore σ) (call : SessionCall) (after : SessionCore σ) : Prop :=
  before.step call = some after

theorem inv_start (config : GatewayConfig) (authorization : AuthorizationPolicy)
    (durableLog : Bool) (durableIndex : DurableIdempotencyIndex)
    (submitter : Option (CommandSubmitter σ)) (target : σ) (engine : ProjectionConfig)
    (policy : ProjectionPolicy) (withinExtent : Aabb → Bool) :
    SessionInv (start config authorization durableLog durableIndex submitter target engine policy
      withinExtent) := by
  refine ⟨⟨?_, ?_, ?_, ?_, ?_, ?_⟩, ?_, ?_, EngineInv.initial engine policy⟩
  · intro token state held
    simp [start] at held
  · intro key member
    simp [start] at member
  · intro key grant held
    simp [start] at held
  · intro connection stream held
    simp [start] at held
  · intro connection member
    simp [start] at member
  · intro id member
    simp [start] at member
  · intro ingress pending held
    simp [start] at held
  · intro id info found
    simp [start, find, SessionManager.find] at found

/-- In a run whose steps meet the condition nothing is left of a closed session; a further
step leaves nothing if and only if it meets the condition, and a close changes no entry of
another session. -/
theorem close_session_leaves_nothing_iff {config : GatewayConfig}
    {authorization : AuthorizationPolicy} {durableLog : Bool}
    {durableIndex : DurableIdempotencyIndex} {submitter : Option (CommandSubmitter σ)}
    {target : σ} {engine : ProjectionConfig} {policy : ProjectionPolicy}
    {withinExtent : Aabb → Bool} {calls : List SessionCall} {finish : SessionCore σ}
    (run : GuardedRun Steps ClosesClean (start config authorization durableLog durableIndex
      submitter target engine policy withinExtent) calls finish) :
    NothingLeft finish ∧
      (∀ call after, finish.step call = some after →
        (NothingLeft after ↔ ClosesClean finish call)) ∧
      ∀ id, finish.IsOpen id → ¬ (finish.closeSession id).2.IsOpen id ∧
        OthersKept id finish (finish.closeSession id).2 := by
  have inv := run.invariant (inv_start config authorization durableLog durableIndex submitter
    target engine policy withinExtent) fun _ _ _ clean stepped inv => inv.step stepped clean
  refine ⟨inv.left, fun call after stepped => ⟨fun left => left.clean inv stepped,
    fun clean => (inv.step stepped clean).left⟩, fun id opened => ?_⟩
  have closed := closeSession_closed opened
  exact ⟨fun still => (closed.isOpen.mp still).1 rfl, closed.othersKept⟩

/-- A gateway without a durable log, over an empty engine. -/
def idleCore : SessionCore Unit :=
  start {} ⟨fun _ _ _ => true, fun _ => true⟩ false {} none () originConfig {} fun _ => true

/-- A session is opened, its ticket redeemed for a stream, and the session closed. -/
def streamedCalls : List SessionCall :=
  [.openSession ⟨[1], false⟩ [65] 0, .attachStream 7 [65] 1, .closeSession 1]

theorem close_session_leaves_nothing_streamed :
    ∃ finish, runLabels step idleCore streamedCalls = some finish ∧ finish.find 1 = none ∧
      NothingLeft finish := by
  have opened : ClosesClean ((idleCore.openSession ⟨[1], false⟩ [65] 0).2.attachStream 7 [65] 1).2
      (.closeSession 1) := by
    refine fun _ => ⟨fun key member => ?_, by decide +kernel⟩
    have none : ((idleCore.openSession ⟨[1], false⟩ [65] 0).2.attachStream 7 [65]
        1).2.admission.gateway.sessions.receipts = ∅ := rfl
    rw [none] at member
    simp at member
  have run : GuardedRun Steps ClosesClean idleCore streamedCalls
      (((idleCore.openSession ⟨[1], false⟩ [65] 0).2.attachStream 7 [65] 1).2.closeSession 1).2 :=
    .cons trivial rfl (.cons trivial rfl (.cons opened rfl (.nil _)))
  exact ⟨_, rfl, by decide +kernel, (close_session_leaves_nothing_iff run).1⟩

/-- A session that subscribes and is closed. -/
def subscribedCalls : List SessionCall :=
  [.openSession ⟨[1], false⟩ [65] 0, .updateSubscription 1 originArea, .closeSession 1]

theorem subscription_outlives_session :
    ¬ ∀ (calls : List SessionCall) (finish : SessionCore Unit),
      AnyRun Steps idleCore calls finish → NothingLeft finish := by
  intro claim
  have run : AnyRun Steps idleCore subscribedCalls
      (((idleCore.openSession ⟨[1], false⟩ [65] 0).2.updateSubscription 1
        originArea).2.closeSession 1).2 :=
    .cons trivial rfl (.cons trivial rfl (.cons trivial rfl (.nil _)))
  refine (claim _ _ run).subscriptions 1 (by decide +kernel) ?_
  decide +kernel

end Results

end SessionCore

end GeoWorld.Gateway
