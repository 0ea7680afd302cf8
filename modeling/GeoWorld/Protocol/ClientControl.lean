import Mathlib
import GeoWorld.Protocol.ServerFrame

/-!
The control frames of a client, acknowledgements and requests for a keyframe, from the client's
encoder to the server's decoder.
-/

namespace GeoWorld.Protocol

open WorldModel

structure WireAck where
  streamEpoch : Nat
  snapshotId : Nat
  deriving DecidableEq

structure WireKeyframeRequest where
  reason : ByteString := []
  deriving DecidableEq

inductive WireClientControl where
  | ack (frame : WireAck)
  | keyframeRequest (frame : WireKeyframeRequest)
  deriving DecidableEq

namespace Tables

structure AckFrame where
  streamEpoch : Nat
  snapshotId : Nat
  deriving DecidableEq

structure KeyframeRequest where
  reason : Option ByteString
  deriving DecidableEq

inductive ClientControl where
  | none
  | ackFrame (frame : AckFrame)
  | keyframeRequest (frame : KeyframeRequest)
  deriving DecidableEq

structure ClientStreamFrame where
  schemaVersion : UInt32
  control : ClientControl
  deriving DecidableEq

/-- The root, and the table of a known control. -/
def ClientStreamFrame.tables (root : ClientStreamFrame) : Nat :=
  match root.control with
  | .none => 1
  | .ackFrame _ | .keyframeRequest _ => 2

def ClientStreamFrame.depth (root : ClientStreamFrame) : Nat := root.tables

end Tables

/-- The FlatBuffers runtime on client frames. -/
structure ControlBuffers where
  Buffer : Type
  finish : Tables.ClientStreamFrame → Buffer
  size : Buffer → Nat
  hasIdentifier : Buffer → Bool
  /-- The checks of the verifier other than its two counters. -/
  wellFormed : Buffer → Bool
  getRoot : Buffer → Tables.ClientStreamFrame

structure ControlBuffers.Faithful (buffers : ControlBuffers) : Prop where
  size_finish : ∀ root, minFrameBytes ≤ buffers.size (buffers.finish root)
  identifier_finish : ∀ root, buffers.hasIdentifier (buffers.finish root)
  wellFormed_finish : ∀ root, buffers.wellFormed (buffers.finish root)
  getRoot_finish : ∀ root, buffers.getRoot (buffers.finish root) = root

/-- `none` is the empty result. -/
def encodeClientControl (buffers : ControlBuffers) (control : WireClientControl)
    (limits : ProtocolLimits) : Option buffers.Buffer :=
  match control with
  | .ack frame =>
    some (buffers.finish ⟨dataSchemaVersion, .ackFrame ⟨frame.streamEpoch, frame.snapshotId⟩⟩)
  | .keyframeRequest frame =>
    if textWithinLimits frame.reason limits then
      some (buffers.finish ⟨dataSchemaVersion, .keyframeRequest ⟨some frame.reason⟩⟩)
    else
      none

def verifyClientFrame (buffers : ControlBuffers) (bytes : buffers.Buffer)
    (limits : ProtocolLimits) : Bool :=
  buffers.wellFormed bytes &&
    decide ((buffers.getRoot bytes).tables ≤ limits.verifierMaxTables) &&
    decide ((buffers.getRoot bytes).depth ≤ limits.verifierMaxDepth)

def decodeClientRoot (root : Tables.ClientStreamFrame) (limits : ProtocolLimits) :
    Decoding WireClientControl :=
  if root.schemaVersion ≠ dataSchemaVersion then
    fail errorVersionIncompatible "schema_version 不兼容"
  else
    match root.control with
    | .ackFrame ack => pure (.ack ⟨ack.streamEpoch, ack.snapshotId⟩)
    | .keyframeRequest request =>
      match request.reason with
      | none => pure (.keyframeRequest {})
      | some reason => do
        within (textWithinLimits reason limits) "reason 超过长度上限"
        pure (.keyframeRequest ⟨reason⟩)
    | .none => fail errorInvalidRequest "未知客户端控制帧类型"

def decodeClientControl (buffers : ControlBuffers) (bytes : buffers.Buffer)
    (limits : ProtocolLimits) : Decoding WireClientControl :=
  if buffers.size bytes = 0 then
    fail errorInvalidRequest "空帧"
  else if buffers.size bytes > limits.maxFrameBytes then
    fail errorLimitExceeded "帧超过 max_frame_bytes"
  else if buffers.size bytes < minFrameBytes then
    fail errorInvalidRequest "帧长度过短"
  else if !buffers.hasIdentifier bytes then
    fail errorVersionIncompatible "file identifier 不匹配"
  else if !verifyClientFrame buffers bytes limits then
    fail errorInvalidRequest "FlatBuffers verifier 拒绝"
  else
    decodeClientRoot (buffers.getRoot bytes) limits

/-- The bounds the receiving side sets to a control frame. -/
structure ControlWithin (buffers : ControlBuffers) (bytes : buffers.Buffer)
    (control : WireClientControl) (limits : ProtocolLimits) : Prop where
  size : buffers.size bytes ≤ limits.maxFrameBytes
  tables : 2 ≤ limits.verifierMaxTables
  nesting : 2 ≤ limits.verifierMaxDepth
  reason : ∀ frame, control = .keyframeRequest frame → textWithinLimits frame.reason limits

/-- The root table of a control frame. -/
def controlRoot : WireClientControl → Tables.ClientStreamFrame
  | .ack frame => ⟨dataSchemaVersion, .ackFrame ⟨frame.streamEpoch, frame.snapshotId⟩⟩
  | .keyframeRequest frame => ⟨dataSchemaVersion, .keyframeRequest ⟨some frame.reason⟩⟩

theorem encodeClientControl_some {buffers : ControlBuffers} {control : WireClientControl}
    {limits : ProtocolLimits} {bytes : buffers.Buffer}
    (encoded : encodeClientControl buffers control limits = some bytes) :
    bytes = buffers.finish (controlRoot control) := by
  cases control with
  | ack frame => exact (Option.some.inj encoded).symm
  | keyframeRequest frame =>
    rw [encodeClientControl] at encoded
    split at encoded
    · exact (Option.some.inj encoded).symm
    · cases encoded

theorem controlRoot_tables (control : WireClientControl) : (controlRoot control).tables = 2 := by
  cases control <;> rfl

theorem decodeClientRoot_eq_ok (control decoded : WireClientControl) (limits : ProtocolLimits) :
    decodeClientRoot (controlRoot control) limits = .ok decoded ↔
      (∀ frame, control = .keyframeRequest frame → textWithinLimits frame.reason limits) ∧
        decoded = control := by
  cases control with
  | ack frame =>
    change Except.ok (WireClientControl.ack frame) = .ok decoded ↔ _
    rw [Except.ok.injEq]
    refine ⟨fun same => ⟨fun frame named => ?_, same.symm⟩, fun both => both.2.symm⟩
    cases named
  | keyframeRequest frame =>
    by_cases short : textWithinLimits frame.reason limits
    · have read : decodeClientRoot (controlRoot (.keyframeRequest frame)) limits =
          .ok (.keyframeRequest frame) := by
        simp only [decodeClientRoot, controlRoot, within, short, ne_eq, not_true_eq_false, if_true,
          if_false]
        rfl
      rw [read, Except.ok.injEq]
      refine ⟨fun same => ⟨fun other named => ?_, same.symm⟩, fun both => both.2.symm⟩
      obtain rfl := WireClientControl.keyframeRequest.inj named
      exact short
    · have refused : decodeClientRoot (controlRoot (.keyframeRequest frame)) limits =
          fail errorLimitExceeded "reason 超过长度上限" := by
        simp only [decodeClientRoot, controlRoot, within, short, ne_eq, not_true_eq_false, if_false]
        rfl
      rw [refused]
      refine iff_of_false (fun read => ?_) fun both => short (both.1 frame rfl)
      cases read

/-- What is encoded under the limits of one side is read under those of the other just when it meets
the bounds there, and unchanged. -/
theorem decodeClientControl_eq_ok {buffers : ControlBuffers} (faithful : buffers.Faithful)
    {control : WireClientControl} {limits : ProtocolLimits} (decoded : WireClientControl) :
    decodeClientControl buffers (buffers.finish (controlRoot control)) limits = .ok decoded ↔
      ControlWithin buffers (buffers.finish (controlRoot control)) control limits ∧
        decoded = control := by
  have long := faithful.size_finish (controlRoot control)
  unfold minFrameBytes at long
  have verified : verifyClientFrame buffers (buffers.finish (controlRoot control)) limits =
      decide (2 ≤ limits.verifierMaxTables ∧ 2 ≤ limits.verifierMaxDepth) := by
    rw [verifyClientFrame, faithful.wellFormed_finish, faithful.getRoot_finish,
      Tables.ClientStreamFrame.depth, controlRoot_tables, Bool.true_and, Bool.decide_and]
  rw [decodeClientControl, verified, faithful.identifier_finish, faithful.getRoot_finish,
    if_neg (by omega)]
  by_cases size : buffers.size (buffers.finish (controlRoot control)) ≤ limits.maxFrameBytes
  · rw [if_neg (not_lt.mpr size), if_neg (by unfold minFrameBytes; omega), Bool.not_true,
      if_neg Bool.false_ne_true]
    by_cases counted : 2 ≤ limits.verifierMaxTables ∧ 2 ≤ limits.verifierMaxDepth
    · rw [decide_eq_true counted, Bool.not_true, if_neg Bool.false_ne_true, decodeClientRoot_eq_ok]
      exact ⟨fun both => ⟨⟨size, counted.1, counted.2, both.1⟩, both.2⟩,
        fun both => ⟨both.1.reason, both.2⟩⟩
    · rw [decide_eq_false counted, Bool.not_false, if_pos rfl]
      refine iff_of_false (fun read => ?_) fun both => counted ⟨both.1.tables, both.1.nesting⟩
      cases read
  · rw [if_pos (not_le.mp size)]
    refine iff_of_false (fun read => ?_) fun both => size both.1.size
    cases read

/-- A control frame that the client could encode reaches the server, whose limits may be others,
just when it meets the server's bounds, and unchanged. -/
theorem client_control_round_trip_iff (buffers : ControlBuffers) (faithful : buffers.Faithful)
    (control : WireClientControl) (sender receiver : ProtocolLimits) (bytes : buffers.Buffer)
    (encoded : encodeClientControl buffers control sender = some bytes)
    (decoded : WireClientControl) :
    decodeClientControl buffers bytes receiver = .ok decoded ↔
      ControlWithin buffers bytes control receiver ∧ decoded = control := by
  rw [encodeClientControl_some encoded]
  exact decodeClientControl_eq_ok faithful decoded

/-- A runtime that keeps the root table. -/
def rootBuffers : ControlBuffers where
  Buffer := Tables.ClientStreamFrame
  finish := id
  size _ := 48
  hasIdentifier _ := true
  wellFormed _ := true
  getRoot := id

theorem rootBuffers_faithful : rootBuffers.Faithful where
  size_finish _ := Nat.le_add_left 8 40
  identifier_finish _ := rfl
  wellFormed_finish _ := rfl
  getRoot_finish _ := rfl

theorem ack_read_long_reason_refused :
    decodeClientControl rootBuffers (rootBuffers.finish ⟨1, .ackFrame ⟨3, 9⟩⟩) {} =
        .ok (.ack ⟨3, 9⟩) ∧
      ¬ decodeClientControl rootBuffers
        (rootBuffers.finish ⟨1, .keyframeRequest ⟨some [103, 97, 112]⟩⟩) { maxStringBytes := 2 } =
          .ok (.keyframeRequest ⟨[103, 97, 112]⟩) := by
  constructor
  · exact (client_control_round_trip_iff rootBuffers rootBuffers_faithful (.ack ⟨3, 9⟩) {} {} _ rfl
      _).mpr ⟨⟨by decide, by decide, by decide, fun frame named => by cases named⟩, rfl⟩
  · intro read
    have short := ((client_control_round_trip_iff rootBuffers rootBuffers_faithful
      (.keyframeRequest ⟨[103, 97, 112]⟩) {} { maxStringBytes := 2 } _ rfl _).mp read).1.reason _ rfl
    revert short
    decide

end GeoWorld.Protocol
