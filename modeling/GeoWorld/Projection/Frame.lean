import Mathlib
import GeoWorld.Projection.Entity

/-!
State frames sent to a connection. A keyframe carries the whole visible set,
a delta the operations against the acknowledged view; an update carries the
complete projection of its entity.
-/

namespace GeoWorld.Projection

open WorldModel

/-- Diagnostic only. -/
inductive LeaveReason where
  | outOfArea
  | notRelevant
  | destroyed
  | policyChanged
  deriving DecidableEq

structure EntityEnter where
  wid : WorldId
  fid : FeatureId
  entity : ProjectedEntity
  deriving DecidableEq

structure EntityUpdate where
  wid : WorldId
  fid : FeatureId
  entity : ProjectedEntity
  deriving DecidableEq

structure EntityLeave where
  wid : WorldId
  fid : FeatureId
  reason : LeaveReason
  deriving DecidableEq

/-- The fields shared by keyframes and deltas. -/
structure FrameHeader where
  streamEpoch : Nat
  streamSequence : Nat
  snapshotId : Nat
  baselineSnapshotId : Nat
  tick : UInt64
  simulationTimeUs : UInt64
  deriving DecidableEq

structure Keyframe extends FrameHeader where
  entities : List EntityEnter
  deriving DecidableEq

structure Delta extends FrameHeader where
  enters : List EntityEnter
  updates : List EntityUpdate
  leaves : List EntityLeave
  deriving DecidableEq

inductive StateFrame where
  | keyframe (frame : Keyframe)
  | delta (frame : Delta)
  deriving DecidableEq

def StateFrame.header : StateFrame → FrameHeader
  | keyframe frame => frame.toFrameHeader
  | delta frame => frame.toFrameHeader

inductive AckResult where
  | accepted
  | duplicateIgnored
  | errorUnknownSnapshot
  | errorEpochMismatch
  deriving DecidableEq

end GeoWorld.Projection
