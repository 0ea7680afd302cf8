import Mathlib
import GeoWorld.Gateway.Pump
import GeoWorld.Gateway.StreamTickets

/-!
What a session leaves behind when it is closed. Its entries stand in the session manager,
the ownership registry, the stream tickets, the gateway's tables of connections and pending
subscriptions and in the projection engine; submissions in flight complete after the close.
-/

namespace GeoWorld.Gateway

open WorldModel Library Projection Simulation

/-- A connection with the session it belongs to. -/
structure SessionStream where
  session : SessionId
  state : StreamState
  deriving DecidableEq

/-- `GatewayCore` with its session manager, its ownership registry and its engine. -/
structure SessionCore (σ : Type) where
  admission : AdmissionSystem σ
  engine : ProjectionEngine
  ticketTtlSeconds : Nat := 30
  maxStateQueueBytes : Nat := 4 * 1024 * 1024
  maxReliableQueueBytes : Nat := 1024 * 1024
  /-- The comparisons of `update_subscription` with `max_aoi_extent_meters`. -/
  withinExtent : Aabb → Bool := fun _ => true
  tickets : Tickets := ∅
  connections : Std.ExtTreeMap ConnectionId SessionStream compare := ∅
  pendingSubscriptions : Std.ExtTreeMap SessionId Subscription compare := ∅
  lastPumpTick : UInt64 := 0

/-- What the main thread does with sessions. A call brings the answers of the token generator
and of the clock. -/
inductive SessionCall where
  /-- `open_session`, once the credential is accepted. -/
  | openSession (principal : Principal) (token : ByteString) (now : Nat)
  | closeSession (id : SessionId)
  | updateSubscription (id : SessionId) (subscription : Subscription)
  | issueStreamTicket (id : SessionId) (token : ByteString) (now : Nat)
  | attachStream (connection : ConnectionId) (token : ByteString) (now : Nat)
  | detachStream (connection : ConnectionId)
  /-- An operation of the engine that neither adds nor removes a connection. -/
  | engine (event : EngineEvent)
  /-- What the pump, acknowledgements and deliveries do to the state of connections. -/
  | serve (tick : UInt64) (change : ConnectionId → StreamState → StreamState)
  | admission (event : AdmissionEvent)

namespace SessionCore

variable {σ : Type}

def find (core : SessionCore σ) (id : SessionId) : Option SessionInfo :=
  core.admission.gateway.sessions.find id

def setSessions (core : SessionCore σ) (sessions : SessionManager) : SessionCore σ :=
  { core with admission := { core.admission with
      gateway := { core.admission.gateway with sessions := sessions } } }

/-- `SessionManager::issue_ticket`. -/
def issueTicket (core : SessionCore σ) (id : SessionId) (token : ByteString) (now : Nat) :
    SessionCore σ :=
  { core with tickets := (core.tickets.issue core.admission.gateway.sessions id token
      (now + core.ticketTtlSeconds * 1000000000)).2 }

def openSession (core : SessionCore σ) (principal : Principal) (token : ByteString) (now : Nat) :
    Option SessionId × SessionCore σ :=
  let (id, sessions) := core.admission.gateway.sessions.open principal
  if id = 0 then
    (none, core.setSessions sessions)
  else
    (some id, (core.setSessions sessions).issueTicket id token now)

/-- The connections of a session, in the order of the map. -/
def streamsOf (core : SessionCore σ) (id : SessionId) : List ConnectionId :=
  (core.connections.toList.filter fun entry => entry.2.session == id).map Prod.fst

def closeSession (core : SessionCore σ) (id : SessionId) : Bool × SessionCore σ :=
  match core.find id with
  | none => (false, core)
  | some _ => (true, { core with
      admission := { core.admission with gateway := core.admission.gateway.closeSession id }
      tickets := core.tickets.revoke id
      engine := (core.streamsOf id).foldl
        (fun engine connection => (engine.removeConnection connection).2) core.engine
      connections := (core.streamsOf id).foldl
        (fun connections connection => connections.erase connection) core.connections })

def updateSubscription (core : SessionCore σ) (id : SessionId) (subscription : Subscription) :
    GatewayError × SessionCore σ :=
  match core.find id with
  | none => (.invalidRequest, core)
  | some _ =>
    if subscription.area.any fun area => !core.withinExtent area then
      (.limitExceeded, core)
    else
      (.none, { core with
        engine := (core.streamsOf id).foldl (fun engine connection =>
          (engine.updateSubscription connection subscription).2) core.engine
        pendingSubscriptions := core.pendingSubscriptions.insert id subscription })

def issueStreamTicket (core : SessionCore σ) (id : SessionId) (token : ByteString) (now : Nat) :
    SessionCore σ :=
  match core.find id with
  | none => core
  | some _ => core.issueTicket id token now

def freshStream (core : SessionCore σ) (session : SessionId) : SessionStream where
  session := session
  state := {
    stateQueue := { maxBytes := core.maxStateQueueBytes }
    reliableQueue := { maxBytes := core.maxReliableQueueBytes } }

/-- The last part of `attach_stream`: `emplace`, then the tick of the entry. -/
def addStream (core : SessionCore σ) (connection : ConnectionId) (session : SessionId) :
    SessionCore σ :=
  let stream := core.connections[connection]?.getD (core.freshStream session)
  let state := { stream.state with lastAckTick := core.lastPumpTick }
  { core with
    connections := core.connections.insert connection { stream with state := state } }

def attachStream (core : SessionCore σ) (connection : ConnectionId) (token : ByteString)
    (now : Nat) : Option ConnectionId × SessionCore σ :=
  let (session, tickets) := core.tickets.redeem core.admission.gateway.sessions now token
  let core := { core with tickets := tickets }
  match session with
  | none => (none, core)
  | some info =>
    if !connection.valid then
      (none, core)
    else
      let subscription := core.pendingSubscriptions[info.id]?.getD {}
      match core.engine.addConnection connection subscription with
      | (false, _) => (none, core)
      | (true, engine) =>
        (some connection, ({ core with engine := engine }).addStream connection info.id)

def detachStream (core : SessionCore σ) (connection : ConnectionId) : SessionCore σ :=
  { core with
    engine := (core.engine.removeConnection connection).2
    connections := core.connections.erase connection }

def serve (core : SessionCore σ) (tick : UInt64) (change : ConnectionId → StreamState → StreamState) :
    SessionCore σ :=
  { core with
    lastPumpTick := tick
    connections := core.connections.map fun connection stream =>
      { stream with state := change connection stream.state } }

/-- The main thread, outside of `poll_durable_tickets`. Connections and sessions come and go
by the calls of the gateway only. -/
def stepMain (core : SessionCore σ) : SessionCall → Option (SessionCore σ)
  | .openSession principal token now => some (core.openSession principal token now).2
  | .closeSession id => some (core.closeSession id).2
  | .updateSubscription id subscription => some (core.updateSubscription id subscription).2
  | .issueStreamTicket id token now => some (core.issueStreamTicket id token now)
  | .attachStream connection token now => some (core.attachStream connection token now).2
  | .detachStream connection => some (core.detachStream connection)
  | .engine (.addConnection _ _) => none
  | .engine (.removeConnection _) => none
  | .engine event => (core.engine.step event).map fun engine => { core with engine := engine }
  | .serve tick change => some (core.serve tick change)
  | .admission _ => none

def step (core : SessionCore σ) (call : SessionCall) : Option (SessionCore σ) :=
  match call, core.admission.polling with
  | .admission (.openSession _), _ => none
  | .admission (.closeSession _), _ => none
  | .admission event, _ =>
    (core.admission.step event).map fun admission => { core with admission := admission }
  | _, some _ => none
  | call, none => core.stepMain call

/-- The gateway at its start, with what its durable index was restored to. -/
def start (config : GatewayConfig) (authorization : AuthorizationPolicy) (durableLog : Bool)
    (durableIndex : DurableIdempotencyIndex) (submitter : Option (CommandSubmitter σ)) (target : σ)
    (engine : ProjectionConfig) (policy : ProjectionPolicy) (withinExtent : Aabb → Bool) :
    SessionCore σ where
  admission := {
    gateway := {
      config := config
      authorization := authorization
      durableLog := durableLog
      durableIndex := durableIndex }
    submitter := submitter
    target := target }
  engine := { config := engine, policy := policy }
  withinExtent := withinExtent

end SessionCore

end GeoWorld.Gateway
