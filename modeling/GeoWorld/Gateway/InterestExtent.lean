import Mathlib
import GeoWorld.Gateway.Admission
import GeoWorld.Library.NanArithmetic
import GeoWorld.Library.Runs
import GeoWorld.Projection.Connection
import GeoWorld.Spatial.CellGrid

/-!
How large an area of interest can get: from the request of a client, through the check of the
gateway and the subscriptions it keeps for later streams, to the bounds the projection
resolves against the positions of the moment. Coordinates are exact, or no number.
-/

namespace GeoWorld.Gateway.Extent

open WorldModel Library Spatial
open Projection (ConnectionId)

abbrev Coordinate := OrNan ℚ

structure Aabb where
  minimum : Enu Coordinate
  maximum : Enu Coordinate
  deriving DecidableEq

structure Subscription where
  area : Option Aabb := none
  follow : Option WorldId := none
  followRadiusMeters : Coordinate := .number 0
  deriving DecidableEq

inductive RequestedInterest where
  | area (area : Aabb)
  | follow (followWid : WorldId) (radiusMeters : Coordinate)

/-- The message a client sends. -/
structure SubscriptionRequest where
  propertyKeys : List ByteString := []
  stateKeys : List ByteString := []
  interest : Option RequestedInterest := none

/-- `to_subscription` of the control server. -/
def toSubscription (request : SubscriptionRequest) : Except GatewayError Subscription :=
  if !request.propertyKeys.isEmpty || !request.stateKeys.isEmpty then
    .error .invalidRequest
  else
    match request.interest with
    | some (.area area) => .ok { area := some area }
    | some (.follow followWid radiusMeters) =>
      .ok { follow := some followWid, followRadiusMeters := radiusMeters }
    | none => .error .invalidRequest

section Boxes

/-- A condition on every axis. -/
def All (holds : Coordinate → Prop) (position : Enu Coordinate) : Prop :=
  holds position.east ∧ holds position.north ∧ holds position.up

/-- The extent of a box on each axis. -/
def Aabb.extents (area : Aabb) : Enu Coordinate where
  east := (area.maximum.east - area.minimum.east).map abs
  north := (area.maximum.north - area.minimum.north).map abs
  up := (area.maximum.up - area.minimum.up).map abs

/-- The comparisons of `update_subscription`. -/
def Aabb.tooLarge (area : Aabb) (maxAoiExtentMeters : ℚ) : Bool :=
  area.extents.east.exceeds maxAoiExtentMeters || area.extents.north.exceeds maxAoiExtentMeters ||
    area.extents.up.exceeds maxAoiExtentMeters

def Aabb.Within (area : Aabb) (maxAoiExtentMeters : ℚ) : Prop :=
  All (·.AtMost maxAoiExtentMeters) area.extents

/-- The box of a radius around a centre. -/
def Aabb.around (center : Enu Coordinate) (radius : Coordinate) : Aabb where
  minimum := ⟨center.east - radius, center.north - radius, center.up - radius⟩
  maximum := ⟨center.east + radius, center.north + radius, center.up + radius⟩

end Boxes

/-- The parts of `GatewayCore` and its `ProjectionEngine` that decide which area a connection
is shown. -/
structure GatewayCore where
  maxAoiExtentMeters : ℚ := 100000
  sessions : SessionManager := {}
  connections : Std.ExtTreeMap ConnectionId SessionId compare := ∅
  pendingSubscriptions : Std.ExtTreeMap SessionId Subscription compare := ∅
  /-- The subscriptions of the engine's connections. -/
  projected : Std.ExtTreeMap ConnectionId Subscription compare := ∅
  /-- Where the engine last saw the objects of the world. -/
  globalView : WidMap (Enu Coordinate) := ∅

namespace GatewayCore

def updateSubscription (core : GatewayCore) (id : SessionId) (subscription : Subscription) :
    GatewayError × GatewayCore :=
  match core.sessions.find id with
  | none => (.invalidRequest, core)
  | some _ =>
    if subscription.area.any (·.tooLarge core.maxAoiExtentMeters) then
      (.limitExceeded, core)
    else
      (.none, { core with
        projected := core.projected.map fun connection older =>
          if core.connections[connection]? = some id then subscription else older
        pendingSubscriptions := core.pendingSubscriptions.insert id subscription })

def requestSubscription (core : GatewayCore) (id : SessionId) (request : SubscriptionRequest) :
    GatewayError × GatewayCore :=
  match toSubscription request with
  | .error error => (error, core)
  | .ok subscription => core.updateSubscription id subscription

/-- `attach_stream` with a ticket of the session. -/
def attachStream (core : GatewayCore) (connection : ConnectionId) (id : SessionId) :
    GatewayCore :=
  if (core.sessions.find id).isNone || !connection.valid || core.projected.contains connection then
    core
  else
    { core with
      projected := core.projected.insert connection (core.pendingSubscriptions[id]?.getD {})
      connections := core.connections.insertIfNew connection id }

def detachStream (core : GatewayCore) (connection : ConnectionId) : GatewayCore :=
  { core with
    projected := core.projected.erase connection
    connections := core.connections.erase connection }

def closeSession (core : GatewayCore) (id : SessionId) : GatewayCore :=
  match core.sessions.find id with
  | none => core
  | some _ => { core with
      sessions := core.sessions.close id
      projected := core.projected.filter fun connection _ =>
        decide (core.connections[connection]? ≠ some id)
      connections := core.connections.filter fun _ session => decide (session ≠ id) }

/-- `ProjectionEngine::resolve_bounds`. -/
def resolveBounds (core : GatewayCore) (subscription : Subscription) : Option Aabb :=
  match subscription.area with
  | some area => some area
  | none =>
    match subscription.follow with
    | none => none
    | some target => (core.globalView[target]?).map fun center =>
        Aabb.around center subscription.followRadiusMeters

end GatewayCore

inductive ExtentCall where
  | openSession (principal : Principal)
  | closeSession (id : SessionId)
  | updateSubscription (id : SessionId) (subscription : Subscription)
  /-- `UpdateSubscription` of the control server. -/
  | requestSubscription (id : SessionId) (request : SubscriptionRequest)
  | attachStream (connection : ConnectionId) (id : SessionId)
  | detachStream (connection : ConnectionId)
  /-- A tick of the projection, which leaves the positions it has read from the world. -/
  | onProjection (globalView : WidMap (Enu Coordinate))

namespace GatewayCore

def step (core : GatewayCore) : ExtentCall → GatewayCore
  | .openSession principal => { core with sessions := (core.sessions.open principal).2 }
  | .closeSession id => core.closeSession id
  | .updateSubscription id subscription => (core.updateSubscription id subscription).2
  | .requestSubscription id request => (core.requestSubscription id request).2
  | .attachStream connection id => core.attachStream connection id
  | .detachStream connection => core.detachStream connection
  | .onProjection globalView => { core with globalView := globalView }

/-- Whatever a connection is shown is no larger than the configuration allows. -/
def Bounded (core : GatewayCore) : Prop :=
  ∀ (connection : ConnectionId) (subscription : Subscription),
    core.projected[connection]? = some subscription →
      ∀ bounds ∈ core.resolveBounds subscription, bounds.Within core.maxAoiExtentMeters

end GatewayCore

/-- An area has numbers for its corners; around a followed object that has a place the place
consists of numbers and the diameter is no larger than the maximum. -/
def Subscription.Sized (subscription : Subscription) (maxAoiExtentMeters : ℚ)
    (globalView : WidMap (Enu Coordinate)) : Prop :=
  (∀ area ∈ subscription.area, All OrNan.IsNumber area.minimum ∧
      All OrNan.IsNumber area.maximum) ∧
    (subscription.area = none → ∀ target ∈ subscription.follow,
      ∀ center ∈ globalView[target]?, All OrNan.IsNumber center ∧
        (subscription.followRadiusMeters.map fun radius => 2 * |radius|).AtMost maxAoiExtentMeters)

/-- The request passes the checks of `update_subscription`. -/
def GatewayCore.Accepts (core : GatewayCore) (id : SessionId) (subscription : Subscription) : Prop :=
  core.sessions.find id ≠ none ∧
    subscription.area.any (·.tooLarge core.maxAoiExtentMeters) = false

/-- A subscription that is accepted for a session with streams is sized. -/
def GatewayCore.UpdateSized (core : GatewayCore) (id : SessionId) (subscription : Subscription) :
    Prop :=
  core.Accepts id subscription →
    (∃ connection : ConnectionId, core.connections[connection]? = some id) →
      subscription.Sized core.maxAoiExtentMeters core.globalView

/-- The call of `attach_stream` adds the connection. -/
def GatewayCore.Attaches (core : GatewayCore) (connection : ConnectionId) (id : SessionId) : Prop :=
  core.sessions.find id ≠ none ∧ connection.valid ∧ connection ∉ core.projected

/-- Sized are a subscription that is accepted for a session with streams, the one that is kept
for a stream that attaches, and those of all streams when the positions change. -/
def GatewayCore.KeepsExtent (core : GatewayCore) : ExtentCall → Prop
  | .updateSubscription id subscription => core.UpdateSized id subscription
  | .requestSubscription id request => ∀ subscription, toSubscription request = .ok subscription →
    core.UpdateSized id subscription
  | .attachStream connection id => core.Attaches connection id →
    (core.pendingSubscriptions[id]?.getD {}).Sized core.maxAoiExtentMeters core.globalView
  | .onProjection globalView => ∀ (connection : ConnectionId) (subscription : Subscription),
    core.projected[connection]? = some subscription →
      subscription.Sized core.maxAoiExtentMeters globalView
  | _ => True

/-- No area is kept that the check would turn down. -/
def Subscription.Checked (maxAoiExtentMeters : ℚ) (subscription : Subscription) : Prop :=
  ∀ area ∈ subscription.area, area.tooLarge maxAoiExtentMeters = false

section Bounds

variable {core : GatewayCore} {maxAoiExtentMeters : ℚ}

/-- With numbers for its corners an area is as large as the check says. -/
theorem Aabb.within_iff {area : Aabb} (checked : area.tooLarge maxAoiExtentMeters = false) :
    area.Within maxAoiExtentMeters ↔
      All OrNan.IsNumber area.minimum ∧ All OrNan.IsNumber area.maximum := by
  simp only [Aabb.tooLarge, Aabb.extents, Bool.or_eq_false_iff] at checked
  obtain ⟨⟨east, north⟩, up⟩ := checked
  simp only [Aabb.Within, All, Aabb.extents, OrNan.atMost_iff, east, north, up, and_true,
    OrNan.isNumber_map, OrNan.isNumber_sub]
  tauto

theorem Aabb.around_within (center : Enu Coordinate) (radius : Coordinate) :
    (Aabb.around center radius).Within maxAoiExtentMeters ↔ All OrNan.IsNumber center ∧
      (radius.map fun value => 2 * |value|).AtMost maxAoiExtentMeters := by
  simp only [Aabb.Within, All, Aabb.extents, Aabb.around, OrNan.spread_atMost]
  tauto

/-- The bounds of a checked subscription are within the maximum exactly when it is sized. -/
theorem sized_iff {subscription : Subscription}
    (checked : subscription.Checked core.maxAoiExtentMeters) :
    (∀ bounds ∈ core.resolveBounds subscription, bounds.Within core.maxAoiExtentMeters) ↔
      subscription.Sized core.maxAoiExtentMeters core.globalView := by
  unfold GatewayCore.resolveBounds Subscription.Sized
  cases kind : subscription.area with
  | some area =>
    have within := Aabb.within_iff (checked area kind)
    simp [within]
  | none =>
    cases followed : subscription.follow with
    | none => simp
    | some target =>
      cases place : core.globalView[target]? with
      | none => simp [place]
      | some center => simp [place, Aabb.around_within]

end Bounds

namespace GatewayCore

structure ExtentInv (core : GatewayCore) : Prop where
  bounded : core.Bounded
  pending : ∀ (id : SessionId) (subscription : Subscription),
    core.pendingSubscriptions[id]? = some subscription →
      subscription.Checked core.maxAoiExtentMeters
  projected : ∀ (connection : ConnectionId) (subscription : Subscription),
    core.projected[connection]? = some subscription →
      subscription.Checked core.maxAoiExtentMeters
  served : ∀ connection ∈ core.connections, connection ∈ core.projected

section Calls

variable {core : GatewayCore}

theorem checked_of_accepts {id : SessionId} {subscription : Subscription}
    (accepts : core.Accepts id subscription) :
    subscription.Checked core.maxAoiExtentMeters := by
  intro area kind
  have fits := accepts.2
  rw [Option.mem_def.mp kind] at fits
  exact fits

theorem updateSubscription_accepted {id : SessionId} {subscription : Subscription}
    (accepts : core.Accepts id subscription) :
    (core.updateSubscription id subscription).2 = { core with
      projected := core.projected.map fun connection older =>
        if core.connections[connection]? = some id then subscription else older
      pendingSubscriptions := core.pendingSubscriptions.insert id subscription } := by
  obtain ⟨info, known⟩ := Option.ne_none_iff_exists'.mp accepts.1
  simp [updateSubscription, known, accepts.2]

theorem updateSubscription_refused {id : SessionId} {subscription : Subscription}
    (refuses : ¬ core.Accepts id subscription) :
    (core.updateSubscription id subscription).2 = core := by
  unfold updateSubscription
  split
  · rfl
  · rename_i info known
    split
    · rfl
    · rename_i fits
      exact absurd ⟨by simp [known], Bool.not_eq_true _ ▸ fits⟩ refuses

theorem lookup_updated (core : GatewayCore) (id : SessionId) (subscription : Subscription)
    (connection : ConnectionId) :
    (core.projected.map fun connection older =>
      if core.connections[connection]? = some id then subscription else older)[connection]? =
      (core.projected[connection]?).map fun older =>
        if core.connections[connection]? = some id then subscription else older :=
  Std.ExtTreeMap.getElem?_map

/-- What is shown after an accepted update. -/
theorem updateSubscription_bounded (inv : ExtentInv core) {id : SessionId}
    {subscription : Subscription} (accepts : core.Accepts id subscription) :
    (core.updateSubscription id subscription).2.Bounded ↔
      ((∃ connection : ConnectionId, core.connections[connection]? = some id) →
        subscription.Sized core.maxAoiExtentMeters core.globalView) := by
  rw [updateSubscription_accepted accepts, ← sized_iff (checked_of_accepts accepts)]
  constructor
  · rintro bounded ⟨connection, own⟩
    have served := inv.served connection (Std.ExtTreeMap.mem_iff_isSome_getElem?.mpr (by simp [own]))
    obtain ⟨older, shown⟩ := Option.isSome_iff_exists.mp
      (Std.ExtTreeMap.mem_iff_isSome_getElem?.mp served)
    exact bounded connection subscription (by rw [lookup_updated, shown, Option.map_some, if_pos own])
  · intro sized connection shown found
    rw [lookup_updated, Option.map_eq_some_iff] at found
    obtain ⟨older, present, same⟩ := found
    split at same
    · rename_i own
      subst same
      exact sized ⟨connection, own⟩
    · subst same
      exact inv.bounded connection older present

theorem updateSubscription_bounded_iff (inv : ExtentInv core) (id : SessionId)
    (subscription : Subscription) :
    (core.updateSubscription id subscription).2.Bounded ↔ core.UpdateSized id subscription := by
  by_cases accepts : core.Accepts id subscription
  · refine (updateSubscription_bounded inv accepts).trans ?_
    exact ⟨fun sized _ => sized, fun sized => sized accepts⟩
  · refine iff_of_true ?_ fun accepted => absurd accepted accepts
    rw [updateSubscription_refused accepts]
    exact inv.bounded

theorem attachStream_attached {connection : ConnectionId} {id : SessionId}
    (attaches : core.Attaches connection id) : core.attachStream connection id = { core with
      projected := core.projected.insert connection (core.pendingSubscriptions[id]?.getD {})
      connections := core.connections.insertIfNew connection id } := by
  obtain ⟨info, known⟩ := Option.ne_none_iff_exists'.mp attaches.1
  simp [attachStream, known, attaches.2.1, attaches.2.2]

theorem attachStream_refused {connection : ConnectionId} {id : SessionId}
    (refuses : ¬ core.Attaches connection id) : core.attachStream connection id = core := by
  unfold attachStream
  split
  · rfl
  · rename_i passed
    simp only [Bool.or_eq_true, not_or] at passed
    refine absurd ⟨?_, ?_, ?_⟩ refuses
    · simpa using passed.1.1
    · simpa using passed.1.2
    · simpa using passed.2

theorem ExtentInv.kept (inv : ExtentInv core) (id : SessionId) :
    (core.pendingSubscriptions[id]?.getD {}).Checked core.maxAoiExtentMeters := by
  cases held : core.pendingSubscriptions[id]? with
  | none =>
    intro area kind
    cases kind
  | some subscription => exact inv.pending id subscription held

/-- What is shown after a stream was attached. -/
theorem attachStream_bounded (inv : ExtentInv core) {connection : ConnectionId} {id : SessionId}
    (attaches : core.Attaches connection id) :
    (core.attachStream connection id).Bounded ↔
      (core.pendingSubscriptions[id]?.getD {}).Sized core.maxAoiExtentMeters core.globalView := by
  rw [attachStream_attached attaches, ← sized_iff (inv.kept id)]
  constructor
  · intro bounded
    exact bounded connection _ (lookup_insert_self _ _ _)
  · intro sized other shown found
    rw [lookup_insert] at found
    split at found
    · obtain rfl := Option.some.inj found
      exact sized
    · exact inv.bounded other shown found

/-- What is shown when the positions change. -/
theorem onProjection_bounded (inv : ExtentInv core) (globalView : WidMap (Enu Coordinate)) :
    Bounded { core with globalView := globalView } ↔
      ∀ (connection : ConnectionId) (subscription : Subscription),
        core.projected[connection]? = some subscription →
          subscription.Sized core.maxAoiExtentMeters globalView := by
  refine forall_congr' fun connection => forall_congr' fun subscription =>
    imp_congr_right fun found => ?_
  exact @sized_iff { core with globalView := globalView } subscription
    (inv.projected connection subscription found)

theorem closeSession_shown {id : SessionId} {connection : ConnectionId}
    {subscription : Subscription}
    (found : (core.closeSession id).projected[connection]? = some subscription) :
    core.projected[connection]? = some subscription := by
  unfold closeSession at found
  split at found
  · exact found
  · rw [Std.ExtTreeMap.getElem?_filter', Option.filter_eq_some_iff] at found
    exact found.1

theorem closeSession_served {id : SessionId}
    (served : ∀ connection ∈ core.connections, connection ∈ core.projected) :
    ∀ connection ∈ (core.closeSession id).connections,
      connection ∈ (core.closeSession id).projected := by
  unfold closeSession
  split
  · exact served
  · intro connection member
    simp only [Std.ExtTreeMap.mem_iff_isSome_getElem?, Std.ExtTreeMap.getElem?_filter',
      Option.isSome_iff_exists, Option.filter_eq_some_iff, decide_eq_true_eq] at member ⊢
    obtain ⟨session, held, other⟩ := member
    obtain ⟨shown, found⟩ := Option.isSome_iff_exists.mp
      (Std.ExtTreeMap.mem_iff_isSome_getElem?.mp (served connection
        (Std.ExtTreeMap.mem_iff_isSome_getElem?.mpr (by simp [held]))))
    exact ⟨shown, found, by simpa [held] using other⟩

theorem closeSession_frame (core : GatewayCore) (id : SessionId) :
    (core.closeSession id).maxAoiExtentMeters = core.maxAoiExtentMeters ∧
      (core.closeSession id).globalView = core.globalView ∧
      (core.closeSession id).pendingSubscriptions = core.pendingSubscriptions := by
  unfold closeSession
  split <;> exact ⟨rfl, rfl, rfl⟩

/-- A step shows no more than it may exactly when it meets the condition. -/
theorem step_bounded (inv : ExtentInv core) (call : ExtentCall) :
    (core.step call).Bounded ↔ core.KeepsExtent call := by
  cases call with
  | openSession principal => exact iff_of_true inv.bounded trivial
  | closeSession id =>
    refine iff_of_true (fun connection shown found => ?_) trivial
    obtain ⟨extent, view, -⟩ := closeSession_frame core id
    have bounded := inv.bounded connection shown (closeSession_shown found)
    simpa only [step, resolveBounds, extent, view] using bounded
  | updateSubscription id subscription => exact updateSubscription_bounded_iff inv id subscription
  | requestSubscription id request =>
    simp only [step, requestSubscription, KeepsExtent]
    cases toSubscription request with
    | error error => simpa using inv.bounded
    | ok subscription => simpa using updateSubscription_bounded_iff inv id subscription
  | attachStream connection id =>
    by_cases attaches : core.Attaches connection id
    · refine (attachStream_bounded inv attaches).trans ?_
      exact ⟨fun sized _ => sized, fun sized => sized attaches⟩
    · refine iff_of_true ?_ fun attached => absurd attached attaches
      rw [step, attachStream_refused attaches]
      exact inv.bounded
  | detachStream connection =>
    refine iff_of_true (fun other shown found => ?_) trivial
    simp only [step, detachStream, lookup_erase] at found
    split at found
    · cases found
    · exact inv.bounded other shown found
  | onProjection globalView => exact onProjection_bounded inv globalView

theorem ExtentInv.updateSubscription (inv : ExtentInv core) {id : SessionId}
    {subscription : Subscription} (bounded : (core.updateSubscription id subscription).2.Bounded) :
    ExtentInv (core.updateSubscription id subscription).2 := by
  by_cases accepts : core.Accepts id subscription
  · have checked := checked_of_accepts accepts
    rw [updateSubscription_accepted accepts] at bounded ⊢
    refine ⟨bounded, fun session other held => ?_, fun connection other found => ?_,
      fun connection member => Std.ExtTreeMap.mem_map.mpr (inv.served connection member)⟩
    · rw [lookup_insert] at held
      split at held
      · exact Option.some.inj held ▸ checked
      · exact inv.pending session other held
    · rw [lookup_updated, Option.map_eq_some_iff] at found
      obtain ⟨older, present, same⟩ := found
      split at same
      · exact same ▸ checked
      · exact same ▸ inv.projected connection older present
  · rw [updateSubscription_refused accepts]
    exact inv

theorem ExtentInv.step (inv : ExtentInv core) {call : ExtentCall}
    (keeps : core.KeepsExtent call) : ExtentInv (core.step call) := by
  have bounded := (step_bounded inv call).mpr keeps
  cases call with
  | openSession principal => exact ⟨bounded, inv.pending, inv.projected, inv.served⟩
  | closeSession id =>
    obtain ⟨extent, -, pending⟩ := closeSession_frame core id
    refine ⟨bounded, fun session subscription held => ?_, fun connection subscription found => ?_,
      closeSession_served inv.served⟩
    · simp only [GatewayCore.step, pending, extent] at held ⊢
      exact inv.pending session subscription held
    · simp only [GatewayCore.step, extent] at found ⊢
      exact inv.projected connection subscription (closeSession_shown found)
  | updateSubscription id subscription => exact inv.updateSubscription bounded
  | requestSubscription id request =>
    simp only [GatewayCore.step, requestSubscription] at bounded ⊢
    cases parsed : toSubscription request with
    | error error => exact inv
    | ok subscription =>
      rw [parsed] at bounded
      exact inv.updateSubscription bounded
  | attachStream connection id =>
    by_cases attaches : core.Attaches connection id
    · simp only [GatewayCore.step, attachStream_attached attaches] at bounded ⊢
      refine ⟨bounded, inv.pending, fun other shown found => ?_, fun other member => ?_⟩
      · rw [lookup_insert] at found
        split at found
        · exact Option.some.inj found ▸ inv.kept id
        · exact inv.projected other shown found
      · rw [Std.ExtTreeMap.mem_insertIfNew] at member
        exact Std.ExtTreeMap.mem_insert.mpr (member.imp_right (inv.served other))
    · rw [GatewayCore.step, attachStream_refused attaches]
      exact inv
  | detachStream connection =>
    refine ⟨bounded, inv.pending, fun other shown found => ?_, fun other member => ?_⟩
    · simp only [GatewayCore.step, detachStream, lookup_erase] at found
      split at found
      · cases found
      · exact inv.projected other shown found
    · obtain ⟨apart, present⟩ := Std.ExtTreeMap.mem_erase.mp member
      exact Std.ExtTreeMap.mem_erase.mpr ⟨apart, inv.served other present⟩
  | onProjection globalView => exact ⟨bounded, inv.pending, inv.projected, inv.served⟩

theorem updateSubscription_extent (core : GatewayCore) (id : SessionId)
    (subscription : Subscription) :
    (core.updateSubscription id subscription).2.maxAoiExtentMeters = core.maxAoiExtentMeters := by
  unfold GatewayCore.updateSubscription
  split
  · rfl
  · split <;> rfl

theorem step_extent (core : GatewayCore) (call : ExtentCall) :
    (core.step call).maxAoiExtentMeters = core.maxAoiExtentMeters := by
  cases call with
  | closeSession id => exact (closeSession_frame core id).1
  | updateSubscription id subscription => exact updateSubscription_extent core id subscription
  | requestSubscription id request =>
    simp only [GatewayCore.step, requestSubscription]
    split
    · rfl
    · exact updateSubscription_extent core id _
  | attachStream connection id =>
    simp only [GatewayCore.step, GatewayCore.attachStream]
    split <;> rfl
  | _ => rfl

end Calls

section Results

def start (maxAoiExtentMeters : ℚ) (maxSessions : Nat) : GatewayCore where
  maxAoiExtentMeters := maxAoiExtentMeters
  sessions := { maxSessions := maxSessions }

theorem inv_start (maxAoiExtentMeters : ℚ) (maxSessions : Nat) :
    ExtentInv (start maxAoiExtentMeters maxSessions) := by
  refine ⟨?_, ?_, ?_, ?_⟩
  · intro connection subscription found
    simp [start] at found
  · intro id subscription held
    simp [start] at held
  · intro connection subscription found
    simp [start] at found
  · intro connection member
    simp [start] at member

/-- The corner of a query stands at a position of numbers. -/
def StandsAt {C : Type} [LinearOrder C] (metric : MetricIndex C) (corner : Enu C)
    (position : Enu Coordinate) : Prop :=
  position = ⟨.number (metric.value corner.east), .number (metric.value corner.north),
    .number (metric.value corner.up)⟩

/-- The cells that a query of bounded bounds looks up. -/
theorem visited_of_within {C : Type} [LinearOrder C] {metric : MetricIndex C} {bounds : Aabb}
    {maxAoiExtentMeters : ℚ} (within : bounds.Within maxAoiExtentMeters) {minimum maximum : Enu C}
    (low : StandsAt metric minimum bounds.minimum) (high : StandsAt metric maximum bounds.maximum)
    {cells : List Projection.CellKey}
    (visited : metric.index.visitedCells minimum maximum = some cells) :
    cells.length ≤ metric.cellBudget maxAoiExtentMeters := by
  obtain ⟨east, north, up⟩ := within
  rw [StandsAt] at low high
  rw [Aabb.extents, low, high] at east north up
  refine visitedCells_length_le metric ?_ ?_ ?_ visited
  · rw [abs_sub_comm]
    exact east
  · rw [abs_sub_comm]
    exact north
  · rw [abs_sub_comm]
    exact up

/-- One call as a step between states. -/
abbrev Steps (before : GatewayCore) (call : ExtentCall) (after : GatewayCore) : Prop :=
  before.step call = after

theorem run_extent {first finish : GatewayCore} {calls : List ExtentCall}
    (run : GuardedRun Steps KeepsExtent first calls finish) :
    finish.maxAoiExtentMeters = first.maxAoiExtentMeters := by
  induction run with
  | nil core => rfl
  | cons _ stepped _ ih => rw [ih, ← stepped, step_extent]

/-- In a run whose steps meet the condition no connection is shown bounds larger than the
maximum, a further step keeps to it exactly when it meets the condition, and the cells that a
query of such bounds looks up are bounded by the configuration. -/
theorem aoi_extent_bounded_iff {maxAoiExtentMeters : ℚ} {maxSessions : Nat}
    {calls : List ExtentCall} {finish : GatewayCore}
    (run : GuardedRun Steps KeepsExtent (start maxAoiExtentMeters maxSessions) calls finish) :
    finish.maxAoiExtentMeters = maxAoiExtentMeters ∧ finish.Bounded ∧
      (∀ call, (finish.step call).Bounded ↔ finish.KeepsExtent call) ∧
      ∀ (connection : ConnectionId) (subscription : Subscription),
        finish.projected[connection]? = some subscription →
        ∀ bounds ∈ finish.resolveBounds subscription,
        ∀ (C : Type) [LinearOrder C] (metric : MetricIndex C) (minimum maximum : Enu C),
          StandsAt metric minimum bounds.minimum → StandsAt metric maximum bounds.maximum →
          ∀ cells ∈ metric.index.visitedCells minimum maximum,
            cells.length ≤ metric.cellBudget maxAoiExtentMeters := by
  have inv : ExtentInv finish := by
    refine run.invariant (inv_start maxAoiExtentMeters maxSessions) ?_
    rintro before call _ keeps rfl inv
    exact inv.step keeps
  have extent : finish.maxAoiExtentMeters = maxAoiExtentMeters := run_extent run
  refine ⟨extent, inv.bounded, step_bounded inv, ?_⟩
  intro connection subscription found bounds resolved C _ metric minimum maximum low high cells
    visited
  have within := inv.bounded connection subscription found bounds resolved
  exact visited_of_within (extent ▸ within) low high visited

/-- Object 5 at the origin. -/
def originView : WidMap (Enu Coordinate) :=
  (∅ : WidMap (Enu Coordinate)).insert 5 ⟨.number 0, .number 0, .number 0⟩

/-- A client asks to follow object 5, a stream is attached, and the object appears. -/
def followCalls (radiusMeters : Coordinate) : List ExtentCall :=
  [.openSession ⟨[1], false⟩,
    .requestSubscription 1 { interest := some (.follow 5 radiusMeters) },
    .attachStream 7 1, .onProjection originView]

def followed (radiusMeters : Coordinate) : GatewayCore :=
  (followCalls radiusMeters).foldl step (start 100 8)

theorem aoi_extent_bounded_followed : (followed (.number 50)).Bounded ∧
    (followed (.number 50)).resolveBounds { follow := some 5, followRadiusMeters := .number 50 } =
      some (Aabb.around ⟨.number 0, .number 0, .number 0⟩ (.number 50)) := by
  have diameter : (OrNan.map (fun radius => 2 * |radius|) (.number 50)).AtMost (100 : ℚ) := by
    change 2 * |(50 : ℚ)| ≤ 100
    norm_num
  have sized : Subscription.Sized { follow := some 5, followRadiusMeters := .number 50 } 100
      originView := by
    refine ⟨fun area kind => (by cases kind), fun _ target same center place => ?_⟩
    obtain rfl := Option.some.inj same
    rw [originView, lookup_insert_self] at place
    obtain rfl := Option.some.inj place
    exact ⟨⟨trivial, trivial, trivial⟩, diameter⟩
  have run : GuardedRun Steps KeepsExtent (start 100 8) (followCalls (.number 50))
      (followed (.number 50)) := by
    refine .cons trivial rfl (.cons ?_ rfl (.cons ?_ rfl (.cons ?_ rfl (.nil _))))
    · rintro subscription - - ⟨connection, own⟩
      simp [step, start] at own
    · intro _
      refine ⟨fun area kind => (by cases kind), fun _ target _ center place => ?_⟩
      have unseen : (((start 100 8).step (.openSession ⟨[1], false⟩)).step
          (.requestSubscription 1 { interest := some (.follow 5 (.number 50)) })).globalView = ∅ :=
        rfl
      rw [unseen] at place
      simp at place
    · intro connection subscription found
      have attached : ((((start 100 8).step (.openSession ⟨[1], false⟩)).step
          (.requestSubscription 1 { interest := some (.follow 5 (.number 50)) })).step
          (.attachStream 7 1)).projected = (∅ : Std.ExtTreeMap ConnectionId Subscription
            compare).insert 7 { follow := some 5, followRadiusMeters := .number 50 } := rfl
      rw [attached, lookup_insert] at found
      split at found
      · exact Option.some.inj found ▸ sized
      · simp at found
  exact ⟨(aoi_extent_bounded_iff run).2.1, by decide +kernel⟩

/-- A radius is not checked: at 60 metres the box is 120 metres wide. -/
theorem wide_radius_unbounded : ¬ ∀ (maxAoiExtentMeters : ℚ) (maxSessions : Nat)
    (calls : List ExtentCall) (finish : GatewayCore),
    AnyRun Steps (start maxAoiExtentMeters maxSessions) calls finish → finish.Bounded := by
  intro claim
  have run : AnyRun Steps (start 100 8) (followCalls (.number 60)) (followed (.number 60)) :=
    .cons trivial rfl (.cons trivial rfl (.cons trivial rfl (.cons trivial rfl (.nil _))))
  have within := claim 100 8 _ _ run 7 { follow := some 5, followRadiusMeters := .number 60 }
    (by decide +kernel) (Aabb.around ⟨.number 0, .number 0, .number 0⟩ (.number 60))
    (by decide +kernel)
  have width := ((Aabb.around_within _ _).mp within).2
  change 2 * |(60 : ℚ)| ≤ 100 at width
  norm_num at width

end Results

end GatewayCore

end GeoWorld.Gateway.Extent
