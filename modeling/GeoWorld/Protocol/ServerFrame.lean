import Mathlib
import GeoWorld.Protocol.RoundTrip

/-!
Server frames from end to end: the buffer of an accepted frame, what the
receiving side checks before it reads the root table, and when the frame that
comes out is the one that went in. Doubles are compared as IEEE numbers.
-/

namespace GeoWorld.Protocol

open WorldModel Library

/-- The FlatBuffers runtime: the buffer a finished builder hands out, and what
the accessors and the verifier make of a buffer. -/
structure StreamBuffers where
  Buffer : Type
  finish : Finished → Buffer
  size : Buffer → Nat
  hasIdentifier : Buffer → Bool
  /-- The checks of the verifier other than its two counters. -/
  wellFormed : Buffer → Bool
  getRoot : Buffer → Tables.WorldStreamFrame

/-- A finished buffer holds its root offset and its identifier, passes the
structural checks, and is read back table by table. -/
structure StreamBuffers.Faithful (buffers : StreamBuffers) : Prop where
  size_finish : ∀ finished, 8 ≤ buffers.size (buffers.finish finished)
  identifier_finish : ∀ finished, buffers.hasIdentifier (buffers.finish finished)
  wellFormed_finish : ∀ finished, buffers.wellFormed (buffers.finish finished)
  getRoot_finish : ∀ finished, buffers.getRoot (buffers.finish finished) = finished.root.target

def encodeServerFrame (buffers : StreamBuffers) (frame : WireFrame)
    (limits : ProtocolLimits) : Option buffers.Buffer :=
  (encodeServerFrameInto frame limits).map buffers.finish

def minFrameBytes : Nat := 8

/-- Each table counts once against the table limit, each level of nesting
against the depth limit. -/
def verifyFrame (buffers : StreamBuffers) (bytes : buffers.Buffer)
    (limits : ProtocolLimits) : Bool :=
  buffers.wellFormed bytes &&
    decide ((buffers.getRoot bytes).tables ≤ limits.verifierMaxTables) &&
    decide ((buffers.getRoot bytes).depth ≤ limits.verifierMaxDepth)

def decodeServerFrame (buffers : StreamBuffers) (bytes : buffers.Buffer)
    (limits : ProtocolLimits) : Decoding WireFrame :=
  if buffers.size bytes = 0 then
    fail errorInvalidRequest "空帧"
  else if buffers.size bytes > limits.maxFrameBytes then
    fail errorLimitExceeded "帧超过 max_frame_bytes"
  else if buffers.size bytes < minFrameBytes then
    fail errorInvalidRequest "帧长度过短"
  else if !buffers.hasIdentifier bytes then
    fail errorVersionIncompatible "file identifier 不匹配"
  else if !verifyFrame buffers bytes limits then
    fail errorInvalidRequest "FlatBuffers verifier 拒绝"
  else
    decodeRoot (buffers.getRoot bytes) limits

/-- All exponent bits set and a significand that is not zero. -/
def isNaN (bits : UInt64) : Bool :=
  0x7FF0000000000000 < bits &&& 0x7FFFFFFFFFFFFFFF

def isZero (bits : UInt64) : Bool :=
  bits = 0 || bits = negativeZero

/-- `==` on doubles. -/
def ieeeEq (lhs rhs : UInt64) : Bool :=
  !isNaN lhs && !isNaN rhs && (lhs = rhs || isZero lhs && isZero rhs)

def sameValue : WireValue → WireValue → Prop
  | .real lhs, .real rhs => ieeeEq lhs rhs
  | lhs, rhs => lhs = rhs

/-- `==` on maps: entry by entry, in key order. -/
def sameBag (lhs rhs : WireAttributes) : Prop :=
  List.Forall₂ (fun a b => a.1 = b.1 ∧ sameValue a.2 b.2) lhs.toList rhs.toList

structure WireEntity.Same (lhs rhs : WireEntity) : Prop where
  position : ieeeEq lhs.position.x rhs.position.x ∧
    ieeeEq lhs.position.y rhs.position.y ∧ ieeeEq lhs.position.z rhs.position.z
  properties : sameBag lhs.properties rhs.properties
  state : sameBag lhs.state rhs.state
  others : { lhs with
    position := rhs.position, properties := rhs.properties, state := rhs.state } = rhs

def WireEnter.Same (lhs rhs : WireEnter) : Prop :=
  lhs.wid = rhs.wid ∧ lhs.fid = rhs.fid ∧ lhs.entity.Same rhs.entity

def WireUpdate.Same (lhs rhs : WireUpdate) : Prop :=
  lhs.wid = rhs.wid ∧ lhs.fid = rhs.fid ∧ lhs.entity.Same rhs.entity

/-- Reliable frames agree on their kind and on the payload it selects. -/
def WireReliable.Same (lhs rhs : WireReliable) : Prop :=
  lhs.kind = rhs.kind ∧ (rhs.kind = .commandReceipt → lhs.receipt = rhs.receipt) ∧
    (rhs.kind = .protocolError → lhs.error = rhs.error)

def WireFrame.Same : WireFrame → WireFrame → Prop
  | keyframe lhs, keyframe rhs =>
    lhs.toWireHeader = rhs.toWireHeader ∧
      List.Forall₂ WireEnter.Same lhs.entities rhs.entities
  | delta lhs, delta rhs =>
    lhs.toWireHeader = rhs.toWireHeader ∧
      List.Forall₂ WireEnter.Same lhs.enters rhs.enters ∧
      List.Forall₂ WireUpdate.Same lhs.updates rhs.updates ∧ lhs.leaves = rhs.leaves
  | reliable lhs, reliable rhs => lhs.Same rhs
  | heartbeat lhs, heartbeat rhs => lhs = rhs
  | _, _ => False

/-! A frame without NaNs. -/

def valueNumeric : WireValue → Prop
  | .real bits => isNaN bits = false
  | _ => True

def bagNumeric (bag : WireAttributes) : Prop :=
  ∀ entry ∈ bag.toList, valueNumeric entry.2

def WireEntity.Numeric (entity : WireEntity) : Prop :=
  (isNaN entity.position.x = false ∧ isNaN entity.position.y = false ∧
    isNaN entity.position.z = false) ∧
    bagNumeric entity.properties ∧ bagNumeric entity.state

def WireFrame.Numeric : WireFrame → Prop
  | keyframe frame => ∀ enter ∈ frame.entities, enter.entity.Numeric
  | delta frame =>
    (∀ enter ∈ frame.enters, enter.entity.Numeric) ∧
      ∀ update ∈ frame.updates, update.entity.Numeric
  | _ => True

theorem ieeeEq_readBack (bits : UInt64) :
    ieeeEq (readBack bits) bits = true ↔ isNaN bits = false := by
  unfold readBack
  by_cases negative : bits = negativeZero
  · rw [if_pos negative, negative]
    decide
  · rw [if_neg negative, ieeeEq]
    simp

theorem sameValue_stored (value : WireValue) :
    sameValue (storedValue value) value ↔ valueNumeric value := by
  cases value with
  | real bits => exact ieeeEq_readBack bits
  | _ => exact ⟨fun _ => trivial, fun _ => rfl⟩

theorem sameBag_stored (bag : WireAttributes) :
    sameBag (storedBag bag) bag ↔ bagNumeric bag := by
  unfold sameBag bagNumeric storedBag
  rw [Std.ExtTreeMap.toList_map, List.forall₂_map_left_iff, List.forall₂_same]
  constructor
  · intro same entry member
    exact (sameValue_stored entry.2).mp (same entry member).2
  · intro numeric entry member
    exact ⟨rfl, (sameValue_stored entry.2).mpr (numeric entry member)⟩

theorem WireEntity.same_stored (entity : WireEntity) :
    entity.stored.Same entity ↔ entity.Numeric := by
  constructor
  · intro same
    have position := same.position
    refine ⟨⟨?_, ?_, ?_⟩, ?_, ?_⟩
    · exact (ieeeEq_readBack _).mp position.1
    · exact (ieeeEq_readBack _).mp position.2.1
    · exact (ieeeEq_readBack _).mp position.2.2
    · exact (sameBag_stored _).mp same.properties
    · exact (sameBag_stored _).mp same.state
  · intro numeric
    have position := numeric.1
    refine ⟨⟨?_, ?_, ?_⟩, ?_, ?_, rfl⟩
    · exact (ieeeEq_readBack _).mpr position.1
    · exact (ieeeEq_readBack _).mpr position.2.1
    · exact (ieeeEq_readBack _).mpr position.2.2
    · exact (sameBag_stored _).mpr numeric.2.1
    · exact (sameBag_stored _).mpr numeric.2.2

theorem sameEnters_stored (enters : List WireEnter) :
    List.Forall₂ WireEnter.Same (enters.map WireEnter.stored) enters ↔
      ∀ enter ∈ enters, enter.entity.Numeric := by
  rw [List.forall₂_map_left_iff, List.forall₂_same]
  refine forall₂_congr fun enter _ => ?_
  rw [← WireEntity.same_stored]
  exact ⟨fun same => same.2.2, fun same => ⟨rfl, rfl, same⟩⟩

theorem sameUpdates_stored (updates : List WireUpdate) :
    List.Forall₂ WireUpdate.Same (updates.map WireUpdate.stored) updates ↔
      ∀ update ∈ updates, update.entity.Numeric := by
  rw [List.forall₂_map_left_iff, List.forall₂_same]
  refine forall₂_congr fun update _ => ?_
  rw [← WireEntity.same_stored]
  exact ⟨fun same => same.2.2, fun same => ⟨rfl, rfl, same⟩⟩

theorem WireReliable.same_stored (reliable : WireReliable) :
    reliable.stored.Same reliable := by
  refine ⟨rfl, fun isReceipt => ?_, fun isError => ?_⟩
  · simp only [WireReliable.stored, if_pos isReceipt]
  · simp only [WireReliable.stored, if_pos isError]

/-- The stored frame equals the frame unless a NaN is in it. -/
theorem WireFrame.same_stored (frame : WireFrame) :
    frame.stored.Same frame ↔ frame.Numeric := by
  cases frame with
  | keyframe frame =>
    simp only [WireFrame.stored, WireFrame.Same, WireFrame.Numeric, true_and]
    exact sameEnters_stored frame.entities
  | delta frame =>
    simp only [WireFrame.stored, WireFrame.Same, WireFrame.Numeric, true_and, and_true]
    rw [sameEnters_stored, sameUpdates_stored]
  | reliable frame => exact ⟨fun _ => trivial, fun _ => frame.same_stored⟩
  | heartbeat frame => exact ⟨fun _ => trivial, fun _ => rfl⟩

/-- The bounds that only the receiving side checks. -/
structure WithinVerifier (buffers : StreamBuffers) (bytes : buffers.Buffer)
    (frame : WireFrame) (limits : ProtocolLimits) : Prop where
  size : buffers.size bytes ≤ limits.maxFrameBytes
  tables : frame.tables ≤ limits.verifierMaxTables
  nesting : frame.nesting ≤ limits.verifierMaxDepth

theorem encodeServerFrame_some {buffers : StreamBuffers} (faithful : buffers.Faithful)
    {frame : WireFrame} {limits : ProtocolLimits} {bytes : buffers.Buffer}
    (encoded : encodeServerFrame buffers frame limits = some bytes) :
    8 ≤ buffers.size bytes ∧ buffers.hasIdentifier bytes ∧ buffers.wellFormed bytes ∧
      BuiltFrame limits frame (buffers.getRoot bytes) := by
  obtain ⟨finished, accepted, rfl⟩ := Option.map_eq_some_iff.mp encoded
  obtain ⟨built, ran, rfl⟩ := Option.map_eq_some_iff.mp accepted
  refine ⟨faithful.size_finish _, faithful.identifier_finish _,
    faithful.wellFormed_finish _, ?_⟩
  rw [faithful.getRoot_finish]
  exact encodeServerFrameRoot_returns frame limits [] built.1 built.2 ran

/-- The receiving side accepts an encoded frame just when it meets the bounds
that the encoder does not look at, and then reads the stored frame. -/
theorem decodeServerFrame_eq_ok {buffers : StreamBuffers} (faithful : buffers.Faithful)
    {frame : WireFrame} {limits : ProtocolLimits} {bytes : buffers.Buffer}
    (encoded : encodeServerFrame buffers frame limits = some bytes) (decoded : WireFrame) :
    decodeServerFrame buffers bytes limits = .ok decoded ↔
      WithinVerifier buffers bytes frame limits ∧ decoded = frame.stored := by
  obtain ⟨long, identified, wellFormed, built⟩ := encodeServerFrame_some faithful encoded
  have notEmpty : ¬ buffers.size bytes = 0 := by omega
  have notShort : ¬ buffers.size bytes < minFrameBytes := by
    unfold minFrameBytes
    omega
  unfold decodeServerFrame verifyFrame
  rw [if_neg notEmpty, if_neg notShort, identified, wellFormed, built.tables, built.depth,
    built.decoded]
  by_cases size : buffers.size bytes ≤ limits.maxFrameBytes
  · rw [if_neg (by omega)]
    by_cases counted : frame.tables ≤ limits.verifierMaxTables ∧
        frame.nesting ≤ limits.verifierMaxDepth
    · simp only [counted.1, counted.2, decide_true, Bool.and_self, Bool.not_true,
        Bool.false_eq_true, if_false, Except.ok.injEq]
      exact ⟨fun same => ⟨⟨size, counted.1, counted.2⟩, same.symm⟩, fun same => same.2.symm⟩
    · have refused : (decide (frame.tables ≤ limits.verifierMaxTables) &&
          decide (frame.nesting ≤ limits.verifierMaxDepth)) = false := by
        rw [← Bool.decide_and, decide_eq_false counted]
      simp only [Bool.true_and, refused, Bool.not_true, Bool.not_false, Bool.false_eq_true,
        if_false, if_true, fail, reduceCtorEq, false_iff]
      exact fun both => counted ⟨both.1.tables, both.1.nesting⟩
  · rw [if_pos (by omega)]
    simp only [fail, reduceCtorEq, false_iff]
    exact fun both => size both.1.size

theorem server_frame_round_trip_iff (buffers : StreamBuffers) (faithful : buffers.Faithful)
    (frame : WireFrame) (limits : ProtocolLimits) (bytes : buffers.Buffer)
    (encoded : encodeServerFrame buffers frame limits = some bytes) :
    (∃ decoded, decodeServerFrame buffers bytes limits = .ok decoded ∧
        decoded.Same frame) ↔
      WithinVerifier buffers bytes frame limits ∧ frame.Numeric := by
  constructor
  · intro ⟨decoded, read, same⟩
    obtain ⟨within, rfl⟩ := (decodeServerFrame_eq_ok faithful encoded decoded).mp read
    exact ⟨within, (WireFrame.same_stored frame).mp same⟩
  · intro ⟨within, numeric⟩
    refine ⟨frame.stored, ?_, (WireFrame.same_stored frame).mpr numeric⟩
    exact (decodeServerFrame_eq_ok faithful encoded frame.stored).mpr ⟨within, rfl⟩

/-- A runtime that keeps the calls themselves, at about the size of the tables
a heartbeat needs. -/
def traceBuffers : StreamBuffers where
  Buffer := Finished
  finish := id
  size finished := 8 + 28 * finished.calls.length
  hasIdentifier _ := true
  wellFormed _ := true
  getRoot finished := finished.root.target

theorem traceBuffers_faithful : traceBuffers.Faithful where
  size_finish _ := Nat.le_add_right 8 _
  identifier_finish _ := rfl
  wellFormed_finish _ := rfl
  getRoot_finish _ := rfl

theorem encodeServerFrame_accepts (buffers : StreamBuffers) {frame : WireFrame}
    {limits : ProtocolLimits} (fits : frame.Within limits) :
    ∃ bytes, encodeServerFrame buffers frame limits = some bytes := by
  obtain ⟨built, ran⟩ :=
    Option.isSome_iff_exists.mp (encodeServerFrameRoot_accepts fits [])
  refine ⟨buffers.finish ⟨built.2, built.1⟩, ?_⟩
  simp only [encodeServerFrame, encodeServerFrameInto, finishFrame, ran, Option.map_some]

def heartbeatFrame : WireFrame := .heartbeat ⟨7, 3⟩

theorem heartbeat_round_trip :
    (∃ decoded, decodeServerFrame traceBuffers
        (traceBuffers.finish
          ⟨[.createHeartbeatFrame 7 3, .createWorldStreamFrame 1 4 0],
            ⟨1, ⟨1, .heartbeat ⟨7, 3⟩⟩⟩⟩) {} = .ok decoded ∧ decoded.Same heartbeatFrame) ↔
      WithinVerifier traceBuffers
        (traceBuffers.finish
          ⟨[.createHeartbeatFrame 7 3, .createWorldStreamFrame 1 4 0],
            ⟨1, ⟨1, .heartbeat ⟨7, 3⟩⟩⟩⟩) heartbeatFrame {} ∧ heartbeatFrame.Numeric :=
  server_frame_round_trip_iff traceBuffers traceBuffers_faithful heartbeatFrame {} _ rfl

/-- Four flags. -/
def flags : WireAttributes :=
  let keys : List ByteString := [[97], [98], [99], [100]]
  keys.foldl (fun bag key => bag.insert key (.boolean true)) ∅

def flaggedEntity (wid : WorldId) : WireEntity where
  wid := wid
  fid := 1
  version := 1
  position := ⟨0, 0, 0⟩
  semanticType := []
  geometryRef := []
  lifecycle := .active
  properties := flags
  state := ∅
  relations := []
  capabilities := []
  frequency := .onChange
  priority := 0
  visibilityTags := []

/-- A full projection of `count` flagged entities. -/
def crowdedKeyframe (count : Nat) : WireKeyframe where
  streamEpoch := 1
  streamSequence := 1
  snapshotId := 1
  baselineSnapshotId := 0
  tick := 1
  simulationTimeUs := 0
  entities := (List.range count).map fun i =>
    ⟨UInt64.ofNat (i + 1), i + 1, flaggedEntity (UInt64.ofNat (i + 1))⟩

theorem flags_size : flags.size = 4 := by decide +kernel

theorem flags_within : bagWithin {} flags := by
  refine ⟨by rw [flags_size]; decide, fun entry member => ?_⟩
  have listed : flags.toList = [([97], Value.boolean true), ([98], Value.boolean true),
      ([99], Value.boolean true), ([100], Value.boolean true)] := by
    decide +kernel
  rw [listed] at member
  simp only [List.mem_cons, List.not_mem_nil, or_false] at member
  obtain rfl | rfl | rfl | rfl := member <;> exact ⟨by decide, trivial⟩

theorem flaggedEntity_within (wid : WorldId) : (flaggedEntity wid).Within {} where
  semanticType := Nat.zero_le _
  geometryRef := Nat.zero_le _
  relationCount := Nat.zero_le _
  properties := flags_within
  state := by simp [flaggedEntity, bagWithin]
  relations := by simp [flaggedEntity]
  capabilities := by simp [flaggedEntity]
  visibilityTags := by simp [flaggedEntity]

theorem crowdedKeyframe_within {count : Nat} (few : count ≤ 100000) :
    (WireFrame.keyframe (crowdedKeyframe count)).Within {} := by
  refine ⟨by simpa [crowdedKeyframe] using few, ?_⟩
  intro enter member
  obtain ⟨i, _, rfl⟩ := List.mem_map.mp member
  exact flaggedEntity_within _

/-- Eleven tables an entity. -/
theorem crowdedKeyframe_tables (count : Nat) :
    (WireFrame.keyframe (crowdedKeyframe count)).tables = 2 + count * 11 := by
  have tables : ∀ wid, (flaggedEntity wid).tables = 10 := by
    intro wid
    simp [WireEntity.tables, flaggedEntity, flags_size]
  simp [WireFrame.tables, crowdedKeyframe, Function.comp_def, tables]

theorem crowded_keyframe_rejected :
    ¬ ∀ (buffers : StreamBuffers) (_ : buffers.Faithful) (frame : WireFrame)
      (limits : ProtocolLimits) (bytes : buffers.Buffer)
      (_ : encodeServerFrame buffers frame limits = some bytes),
      ∃ decoded, decodeServerFrame buffers bytes limits = .ok decoded ∧
        decoded.Same frame := by
  intro claim
  -- As many entities as a frame may have; the verifier allows a million tables.
  obtain ⟨bytes, encoded⟩ := encodeServerFrame_accepts traceBuffers
    (crowdedKeyframe_within (Nat.le_refl 100000))
  obtain ⟨decoded, read, _⟩ := claim traceBuffers traceBuffers_faithful _ {} bytes encoded
  have within := (decodeServerFrame_eq_ok traceBuffers_faithful encoded decoded).mp read
  have counted := within.1.tables
  rw [crowdedKeyframe_tables] at counted
  have allowed : ({} : ProtocolLimits).verifierMaxTables = 1000000 := rfl
  omega

end GeoWorld.Protocol
