import Mathlib
import GeoWorld.Protocol.StreamBuilder

/-!
The decoder of server frames, from a verified root table to the wire frame.
A table field that is an offset may be missing; an element of a vector may not.
-/

namespace GeoWorld.Protocol

open WorldModel

def errorInvalidRequest : String := "GWG005"

def errorVersionIncompatible : String := "GWG001"

def errorLimitExceeded : String := "GWG006"

structure DecodeFailure where
  errorCode : String
  message : String
  deriving DecidableEq

abbrev Decoding (α : Type) := Except DecodeFailure α

def fail {α : Type} (code message : String) : Decoding α :=
  .error ⟨code, message⟩

/-- A field that must be there. -/
def present {α : Type} (field : Option α) (message : String) : Decoding α :=
  match field with
  | some value => .ok value
  | none => fail errorInvalidRequest message

def within (condition : Prop) [Decidable condition] (message : String) : Decoding Unit :=
  if condition then .ok () else fail errorLimitExceeded message

def decodeValue (value : Tables.PropertyValue) (limits : ProtocolLimits) :
    Decoding WireValue :=
  match value with
  | .intValue value => pure (.integer value)
  | .doubleValue bits => pure (.real bits)
  | .boolValue value => pure (.boolean value)
  | .stringValue value => do
    let text ← present value "字符串属性缺少值"
    within (textWithinLimits text limits) "字符串属性超过长度上限"
    pure (.text text)
  | .none => fail errorInvalidRequest "未知属性值类型"

def decodeProperty (limits : ProtocolLimits) (entry : Tables.PropertyEntry) :
    Decoding (ByteString × WireValue) := do
  let key ← present entry.key "属性条目缺少 key"
  within (textWithinLimits key limits) "属性 key 超过长度上限"
  pure (key, ← decodeValue entry.value limits)

/-- `out.emplace`: the first entry of a key stays. -/
def emplaceAll (entries : List (ByteString × WireValue)) : WireAttributes :=
  entries.foldl (fun out entry => out.insertIfNew entry.1 entry.2) ∅

def decodeBag (source : Option (List Tables.PropertyEntry)) (limits : ProtocolLimits) :
    Decoding WireAttributes :=
  match source with
  | none => pure ∅
  | some entries => do
    within (entries.length ≤ limits.maxPropertiesPerEntity) "属性数量超过上限"
    pure (emplaceAll (← entries.mapM (decodeProperty limits)))

def decodeRelation (limits : ProtocolLimits) (relation : Tables.RelationEntry) :
    Decoding WireRelation := do
  let type ← present relation.type "关系缺少 type"
  within (textWithinLimits type limits) "关系 type 超过长度上限"
  pure ⟨type, relation.targetWid⟩

def decodeRelations (source : Option (List Tables.RelationEntry))
    (limits : ProtocolLimits) : Decoding (List WireRelation) :=
  match source with
  | none => pure []
  | some relations => do
    within (relations.length ≤ limits.maxRelationsPerEntity) "关系数量超过上限"
    relations.mapM (decodeRelation limits)

def decodeString (limits : ProtocolLimits) (message : String) (text : ByteString) :
    Decoding ByteString := do
  within (textWithinLimits text limits) message
  pure text

/-- The loops over the capabilities and over the visibility tags. -/
def decodeStrings (source : Option (List ByteString)) (limits : ProtocolLimits)
    (message : String) : Decoding (List ByteString) :=
  match source with
  | none => pure []
  | some texts => texts.mapM (decodeString limits message)

def decodeEntity (source : Option Tables.ProjectedEntity) (limits : ProtocolLimits) :
    Decoding WireEntity := do
  let missing := "实体缺少必要字段"
  let table ← present source missing
  let position ← present table.position missing
  let semanticType ← present table.semanticType missing
  let geometryRef ← present table.geometryRef missing
  within (textWithinLimits semanticType limits ∧ textWithinLimits geometryRef limits)
    "实体字符串超过长度上限"
  let lifecycle ← present (Lifecycle.ofCode table.lifecycle) "lifecycle 枚举越界"
  let frequency ← present (FrequencyClass.ofCode table.frequency) "frequency 枚举越界"
  let properties ← decodeBag table.properties limits
  let state ← decodeBag table.state limits
  let relations ← decodeRelations table.relations limits
  let capabilities ← decodeStrings table.capabilities limits "capability 超过长度上限"
  let visibilityTags ← decodeStrings table.visibilityTags limits
    "visibility tag 超过长度上限"
  pure
    { wid := table.wid, fid := table.fid, version := table.version
      position := ⟨position.x, position.y, position.z⟩
      semanticType, geometryRef, lifecycle, properties, state, relations, capabilities
      frequency, priority := table.priority, visibilityTags }

def decodeEnter (limits : ProtocolLimits) (source : Tables.EntityEnter) :
    Decoding WireEnter := do
  pure ⟨source.wid, source.fid, ← decodeEntity source.entity limits⟩

def decodeUpdate (limits : ProtocolLimits) (source : Tables.EntityUpdate) :
    Decoding WireUpdate := do
  pure ⟨source.wid, source.fid, ← decodeEntity source.entity limits⟩

def decodeLeave (source : Tables.EntityLeave) : Decoding WireLeave := do
  pure ⟨source.wid, source.fid,
    ← present (LeaveReason.ofCode source.reason) "leave reason 枚举越界"⟩

def decodeKeyframe (source : Tables.KeyframeFrame) (limits : ProtocolLimits) :
    Decoding WireFrame := do
  let entities := source.entities.getD []
  within (entities.length ≤ limits.maxEntitiesPerFrame) "单帧实体数量超过上限"
  let decoded ← entities.mapM (decodeEnter limits)
  pure (.keyframe ⟨source.toWireHeader, decoded⟩)

def decodeDelta (source : Tables.DeltaFrame) (limits : ProtocolLimits) :
    Decoding WireFrame := do
  let enters := source.enters.getD []
  let updates := source.updates.getD []
  let leaves := source.leaves.getD []
  within (enters.length + updates.length + leaves.length ≤ limits.maxEntitiesPerFrame)
    "单帧实体数量超过上限"
  let enters ← enters.mapM (decodeEnter limits)
  let updates ← updates.mapM (decodeUpdate limits)
  let leaves ← leaves.mapM decodeLeave
  pure (.delta ⟨source.toWireHeader, enters, updates, leaves⟩)

def decodeReceipt (source : Option Tables.CommandReceipt) :
    Decoding WireCommandReceipt :=
  match source with
  | none => pure {}
  | some receipt => do
    let status ← present (ReceiptStatus.ofCode receipt.status) "receipt status 枚举越界"
    pure ⟨receipt.clientSequence, status, receipt.errorCode.getD []⟩

def decodeError (source : Option Tables.ProtocolError) : WireProtocolError :=
  match source with
  | none => {}
  | some error => ⟨error.code.getD [], error.message.getD []⟩

def decodeReliable (source : Tables.ReliableEvent) : Decoding WireFrame := do
  let kind ← present (ReliableKind.ofCode source.kind) "reliable kind 枚举越界"
  let receipt ← decodeReceipt source.receipt
  pure (.reliable ⟨kind, receipt, decodeError source.error⟩)

/-- The part of `decode_server_frame` that works on the verified root. -/
def decodeRoot (root : Tables.WorldStreamFrame) (limits : ProtocolLimits) :
    Decoding WireFrame := do
  if root.schemaVersion ≠ dataSchemaVersion then
    fail errorVersionIncompatible "schema_version 不兼容"
  else
    match root.frame with
    | .keyframe frame => decodeKeyframe frame limits
    | .delta frame => decodeDelta frame limits
    | .reliable frame => decodeReliable frame
    | .heartbeat frame =>
      pure (.heartbeat ⟨frame.serverTick, frame.latestSnapshotId⟩)
    | .none => fail errorInvalidRequest "未知服务端帧类型"

/-! Wider limits accept what narrower ones do, and read the same. -/

/-- What `narrow` reads, `wide` reads as well. -/
def Widens {α : Type} (narrow wide : Decoding α) : Prop :=
  ∀ value, narrow = .ok value → wide = .ok value

namespace Widens

variable {α β : Type}

theorem refl (decoding : Decoding α) : Widens decoding decoding := fun _ read => read

theorem bind {narrow wide : Decoding α} {next further : α → Decoding β}
    (first : Widens narrow wide) (rest : ∀ value, Widens (next value) (further value)) :
    Widens (narrow >>= next) (wide >>= further) := by
  intro result read
  cases stepped : narrow with
  | error failure =>
    rw [stepped] at read
    cases read
  | ok value =>
    rw [stepped] at read
    rw [first value stepped]
    exact rest value result read

theorem within {condition wider : Prop} [Decidable condition] [Decidable wider]
    (implies : condition → wider) (message : String) :
    Widens (Protocol.within condition message) (Protocol.within wider message) := by
  intro value read
  by_cases holds : condition
  · rw [Protocol.within, if_pos (implies holds)]
  · rw [Protocol.within, if_neg holds] at read
    cases read

theorem mapM {narrow wide : α → Decoding β} (each : ∀ item, Widens (narrow item) (wide item))
    (items : List α) : Widens (items.mapM narrow) (items.mapM wide) := by
  induction items with
  | nil => exact Widens.refl _
  | cons item items ih =>
    rw [List.mapM_cons, List.mapM_cons]
    exact Widens.bind (each item) fun _ => Widens.bind ih fun _ => Widens.refl _

end Widens

/-- The bounds an entity is checked against. -/
structure ProtocolLimits.NoWider (limits wider : ProtocolLimits) : Prop where
  strings : limits.maxStringBytes ≤ wider.maxStringBytes
  properties : limits.maxPropertiesPerEntity ≤ wider.maxPropertiesPerEntity
  relations : limits.maxRelationsPerEntity ≤ wider.maxRelationsPerEntity

section Wider

variable {limits wider : ProtocolLimits} (le : limits.NoWider wider)

include le

theorem ProtocolLimits.NoWider.text {text : ByteString}
    (fits : textWithinLimits text limits) : textWithinLimits text wider :=
  Nat.le_trans fits le.strings

theorem decodeBag_widens (source : Option (List Tables.PropertyEntry)) :
    Widens (decodeBag source limits) (decodeBag source wider) := by
  cases source with
  | none => exact Widens.refl _
  | some entries =>
    refine Widens.bind (Widens.within (fun fits => Nat.le_trans fits le.properties) _)
      fun _ => Widens.bind (Widens.mapM (fun entry => ?_) entries) fun _ => Widens.refl _
    refine Widens.bind (Widens.refl _) fun key => ?_
    refine Widens.bind (Widens.within le.text _) fun _ => ?_
    refine Widens.bind ?_ fun _ => Widens.refl _
    cases entry.value with
    | stringValue text =>
      exact Widens.bind (Widens.refl _) fun _ =>
        Widens.bind (Widens.within le.text _) fun _ => Widens.refl _
    | _ => exact Widens.refl _

theorem decodeRelations_widens (source : Option (List Tables.RelationEntry)) :
    Widens (decodeRelations source limits) (decodeRelations source wider) := by
  cases source with
  | none => exact Widens.refl _
  | some relations =>
    refine Widens.bind (Widens.within (fun fits => Nat.le_trans fits le.relations) _)
      fun _ => Widens.mapM (fun relation => ?_) relations
    exact Widens.bind (Widens.refl _) fun _ =>
      Widens.bind (Widens.within le.text _) fun _ => Widens.refl _

theorem decodeStrings_widens (source : Option (List ByteString)) (message : String) :
    Widens (decodeStrings source limits message) (decodeStrings source wider message) := by
  cases source with
  | none => exact Widens.refl _
  | some texts =>
    exact Widens.mapM (fun text =>
      Widens.bind (Widens.within le.text _) fun _ => Widens.refl _) texts

theorem decodeEntity_widens (source : Option Tables.ProjectedEntity) :
    Widens (decodeEntity source limits) (decodeEntity source wider) := by
  unfold decodeEntity
  refine Widens.bind (Widens.refl _) fun table => ?_
  refine Widens.bind (Widens.refl _) fun position => ?_
  refine Widens.bind (Widens.refl _) fun semanticType => ?_
  refine Widens.bind (Widens.refl _) fun geometryRef => ?_
  refine Widens.bind (Widens.within (fun fits => ⟨le.text fits.1, le.text fits.2⟩) _)
    fun _ => ?_
  refine Widens.bind (Widens.refl _) fun lifecycle => ?_
  refine Widens.bind (Widens.refl _) fun frequency => ?_
  refine Widens.bind (decodeBag_widens le table.properties) fun properties => ?_
  refine Widens.bind (decodeBag_widens le table.state) fun state => ?_
  refine Widens.bind (decodeRelations_widens le table.relations) fun relations => ?_
  refine Widens.bind (decodeStrings_widens le table.capabilities _) fun capabilities => ?_
  exact Widens.bind (decodeStrings_widens le table.visibilityTags _) fun tags =>
    Widens.refl _

end Wider

/-- Two readings of one table agree, whatever the limits of each. -/
theorem decodeEntity_agrees {limits other : ProtocolLimits}
    {source : Option Tables.ProjectedEntity} {entity twin : WireEntity}
    (read : decodeEntity source limits = .ok entity)
    (again : decodeEntity source other = .ok twin) : twin = entity := by
  let wider : ProtocolLimits :=
    { maxStringBytes := max limits.maxStringBytes other.maxStringBytes
      maxPropertiesPerEntity :=
        max limits.maxPropertiesPerEntity other.maxPropertiesPerEntity
      maxRelationsPerEntity :=
        max limits.maxRelationsPerEntity other.maxRelationsPerEntity }
  have left : limits.NoWider wider :=
    ⟨Nat.le_max_left _ _, Nat.le_max_left _ _, Nat.le_max_left _ _⟩
  have right : other.NoWider wider :=
    ⟨Nat.le_max_right _ _, Nat.le_max_right _ _, Nat.le_max_right _ _⟩
  have first := decodeEntity_widens left source entity read
  have second := decodeEntity_widens right source twin again
  rw [first] at second
  exact (Except.ok.inj second).symm

end GeoWorld.Protocol
