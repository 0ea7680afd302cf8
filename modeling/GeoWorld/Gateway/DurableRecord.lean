import Mathlib
import GeoWorld.Library.EditScript
import GeoWorld.Gateway.Admission

/-!
Durable commands read back from their records, and the commands whose records are
faithful: what recovery decodes is what the live process hands to the command buffer.
-/

namespace GeoWorld.Gateway

open WorldModel Library Simulation

/-- A decoder takes bytes off the front of what is left. -/
abbrev Decoder := StateT ByteString Option

namespace Decoder

def getBytes (count : Nat) : Decoder ByteString := fun data =>
  if count ≤ data.length then some (data.take count, data.drop count) else none

def getU8 : Decoder UInt8 := do
  let bytes ← getBytes 1
  return UInt8.ofNat (valueLE bytes)

def getU16 : Decoder Nat := do
  let bytes ← getBytes 2
  return valueLE bytes

def getU64 : Decoder UInt64 := do
  let bytes ← getBytes 8
  return UInt64.ofNat (valueLE bytes)

def getI64 : Decoder Int64 := do
  let raw ← getU64
  return raw.toInt64

def getText : Decoder ByteString := do
  let length ← getU16
  getBytes length

def getFixed : Decoder DurableRequestId := fun data =>
  if enough : durableRequestIdBytes ≤ data.length then
    some (⟨(data.take durableRequestIdBytes).toArray, by simpa using enough⟩,
      data.drop durableRequestIdBytes)
  else none

theorem bind_apply {α β : Type} (first : Decoder α) (rest : α → Decoder β) (data : ByteString) :
    (first >>= rest) data = (first data).bind fun result => rest result.1 result.2 :=
  rfl

theorem pure_apply {α : Type} (value : α) (data : ByteString) :
    (pure value : Decoder α) data = some (value, data) :=
  rfl

theorem map_apply {α β : Type} (change : α → β) (first : Decoder α) (data : ByteString) :
    (change <$> first) data = (first data).map fun result => (change result.1, result.2) := by
  rw [map_eq_pure_bind, bind_apply]
  cases first data <;> rfl

/-- The rest of a decoder continues with what was read. -/
theorem bind_read {α β : Type} {first : Decoder α} {data : ByteString} {value : α}
    {left : ByteString} (read : first data = some (value, left)) (rest : α → Decoder β) :
    (first >>= rest) data = rest value left := by
  rw [bind_apply, read, Option.bind_some]

theorem bind_eq_some {α β : Type} {first : Decoder α} {rest : α → Decoder β} {data : ByteString}
    {result : β × ByteString} : (first >>= rest) data = some result ↔
      ∃ value middle, first data = some (value, middle) ∧ rest value middle = some result := by
  rw [bind_apply, Option.bind_eq_some_iff]
  exact Prod.exists

theorem pure_eq_some {α : Type} {value : α} {data : ByteString} {result : α × ByteString} :
    (pure value : Decoder α) data = some result ↔ (value, data) = result := by
  rw [pure_apply, Option.some.injEq]

theorem guard_apply (condition : Prop) [Decidable condition] (data : ByteString) :
    (guard condition : Decoder Unit) data = if condition then some ((), data) else none := by
  unfold guard
  split <;> rfl

theorem guard_read {condition : Prop} [Decidable condition] (holds : condition)
    (data : ByteString) : (guard condition : Decoder Unit) data = some ((), data) := by
  rw [guard_apply, if_pos holds]

theorem guard_eq_some {condition : Prop} [Decidable condition] {data : ByteString}
    {result : Unit × ByteString} : (guard condition : Decoder Unit) data = some result ↔
      condition ∧ ((), data) = result := by
  rw [guard_apply]
  split <;> simp_all

theorem getBytes_append (front rest : ByteString) :
    getBytes front.length (front ++ rest) = some (front, rest) := by
  simp [getBytes]

theorem getBytes_bytesLE (width value : Nat) (rest : ByteString) :
    getBytes width (bytesLE width value ++ rest) = some (bytesLE width value, rest) := by
  have taken := getBytes_append (bytesLE width value) rest
  rwa [bytesLE_length] at taken

theorem getU8_put (value : UInt8) (rest : ByteString) :
    getU8 (Encoder.putU8 value ++ rest) = some (value, rest) := by
  have taken : getBytes 1 (value :: rest) = some ([value], rest) := getBytes_append [value] rest
  simp [getU8, bind_apply, pure_apply, Encoder.putU8, taken, valueLE]

theorem getU16_put {value : Nat} (bound : value < 65536) (rest : ByteString) :
    getU16 (Encoder.putU16 value ++ rest) = some (value, rest) := by
  simp [getU16, bind_apply, pure_apply, Encoder.putU16, getBytes_bytesLE,
    valueLE_bytesLE 2 value bound]

theorem getU64_put (value : UInt64) (rest : ByteString) :
    getU64 (Encoder.putU64 value ++ rest) = some (value, rest) := by
  simp [getU64, bind_apply, pure_apply, Encoder.putU64, getBytes_bytesLE,
    valueLE_bytesLE 8 _ value.toNat_lt]

theorem getU64_bytesLE {value : Nat} (bound : value < 2 ^ 64) (rest : ByteString) :
    getU64 (bytesLE 8 value ++ rest) = some (UInt64.ofNat value, rest) := by
  simp [getU64, bind_apply, pure_apply, getBytes_bytesLE, valueLE_bytesLE 8 _ bound]

theorem getI64_put (value : Int64) (rest : ByteString) :
    getI64 (Encoder.putI64 value ++ rest) = some (value, rest) := by
  simp [getI64, bind_apply, pure_apply, Encoder.putI64, getU64_put]

theorem getText_put {text : ByteString} (short : text.length < 65536) (rest : ByteString) :
    getText (Encoder.putText text ++ rest) = some (text, rest) := by
  simp [getText, bind_apply, Encoder.putText, List.append_assoc, getU16_put short,
    getBytes_append]

theorem getFixed_put (requestId : DurableRequestId) (rest : ByteString) :
    getFixed (requestId.toList ++ rest) = some (requestId, rest) := by
  cases requestId with
  | mk data size =>
    have length : data.toList.length = durableRequestIdBytes := by simpa using size
    have front : (data.toList ++ rest).take durableRequestIdBytes = data.toList := by
      rw [← length, List.take_left]
    have back : (data.toList ++ rest).drop durableRequestIdBytes = rest := by
      rw [← length, List.drop_left]
    simp [getFixed, Vector.toList, front, back, size]

/-- A text that was read fits its length field. -/
theorem getText_short {data rest text : ByteString} (read : getText data = some (text, rest)) :
    text.length < 65536 := by
  simp only [getText, getU16, getBytes, bind_apply, pure_apply] at read
  split at read
  · simp only [Option.bind_some] at read
    split at read
    · obtain ⟨rfl, -⟩ := Prod.mk.inj (Option.some.inj read)
      have bound := valueLE_lt (data.take 2)
      rename_i two _
      rw [List.length_take, min_eq_left two] at bound
      rw [List.length_take]
      omega
    · cases read
  · cases read

end Decoder

open Decoder Encoder

def decodeValue : Decoder Value := do
  let tag ← getU8
  if tag = 0 then
    return .integer (← getI64)
  else if tag = 1 then
    return .real (← getU64)
  else if tag = 2 then
    let item ← getU8
    guard (item ≤ 1)
    return .boolean (item ≠ 0)
  else if tag = 3 then
    return .text (← getText)
  else
    failure

def decodeIdentity : Decoder DurableKey := do
  let version ← getU16
  guard (version = durableRecordFormatVersion)
  let principalId ← getText
  let requestId ← getFixed
  return ⟨principalId, requestId⟩

/-- So many properties; an empty or a repeated name ends the decoding. -/
def decodeProperties : Nat → PropertyBag → Decoder PropertyBag
  | 0, properties => pure properties
  | count + 1, properties => do
    let name ← getText
    guard (name ≠ [])
    let value ← decodeValue
    guard (properties[name]? = none)
    decodeProperties count (properties.insert name value)

def maxRecordProperties : UInt64 := 1000000

/-- What follows the operation byte. -/
def decodeOperation (id : WorldId) (operation : UInt8) : Decoder CommandPayload := do
  if operation = 1 then
    let key ← getText
    guard (key ≠ [])
    let value ← decodeValue
    return .setProperty id key value
  else if operation = 2 then
    let semanticType ← getText
    guard (semanticType ≠ [])
    let geometryRef ← getText
    let x ← getU64
    let y ← getU64
    let z ← getU64
    let propertyCount ← getU64
    guard (propertyCount ≤ maxRecordProperties)
    let properties ← decodeProperties propertyCount.toNat ∅
    return .createObject {
      id := id
      semanticType := semanticType
      geometryRef := geometryRef
      position := ⟨x, y, z⟩
      properties := properties }
  else if operation = 3 then
    return .destroyObject id
  else
    failure

structure RecoveredDurableCommand where
  principalId : ByteString
  requestId : DurableRequestId
  targetTick : UInt64
  clientSequence : UInt64
  expectedObjectVersion : UInt64
  payload : CommandPayload
  deriving DecidableEq

def decodeRecord : Decoder RecoveredDurableCommand := do
  let key ← decodeIdentity
  let targetTick ← getU64
  let clientSequence ← getU64
  let targetWid ← getU64
  let expectedObjectVersion ← getU64
  let targetTickHint ← getU64
  let operation ← getU8
  guard (WorldId.valid targetWid)
  let payload ← decodeOperation targetWid operation
  guard (targetTickHint ≤ targetTick)
  return {
    principalId := key.principalId
    requestId := key.requestId
    targetTick := targetTick
    clientSequence := clientSequence
    expectedObjectVersion := expectedObjectVersion
    payload := payload }

def decodeExternalCommandRecord (payload : ByteString) : Option RecoveredDurableCommand :=
  match decodeRecord payload with
  | some (recovered, []) => some recovered
  | _ => none

section Faithful

/-- What a text field of a record can hold. -/
def ShortText (text : ByteString) : Prop := text.length < 65536

def ShortValue : Value → Prop
  | .text value => ShortText value
  | _ => True

/-- A property that decoding accepts and that its record says in full. -/
structure RecordableProperty (entry : ByteString × Value) : Prop where
  named : entry.1 ≠ []
  name : ShortText entry.1
  value : ShortValue entry.2

theorem decodeValue_encode {value : Value} (short : ShortValue value) (rest : ByteString) :
    decodeValue (encodeValue value ++ rest) = some (value, rest) := by
  cases value with
  | integer value =>
    simp [decodeValue, encodeValue, bind_apply, map_apply, List.append_assoc, getU8_put, getI64_put]
  | real bits =>
    simp [decodeValue, encodeValue, bind_apply, map_apply, List.append_assoc, getU8_put, getU64_put]
  | boolean value =>
    cases value <;>
      simp [decodeValue, encodeValue, bind_apply, pure_apply, List.append_assoc, getU8_put]
  | text value =>
    simp [decodeValue, encodeValue, bind_apply, map_apply, List.append_assoc, getU8_put,
      getText_put short]

theorem decodeValue_short {data rest : ByteString} {value : Value}
    (decoded : decodeValue data = some (value, rest)) : ShortValue value := by
  obtain ⟨tag, behind, _, decoded⟩ := bind_eq_some.mp decoded
  split at decoded
  · obtain ⟨_, _, _, same⟩ := bind_eq_some.mp decoded
    obtain ⟨rfl, -⟩ := Prod.mk.inj (pure_eq_some.mp same)
    trivial
  split at decoded
  · obtain ⟨_, _, _, same⟩ := bind_eq_some.mp decoded
    obtain ⟨rfl, -⟩ := Prod.mk.inj (pure_eq_some.mp same)
    trivial
  split at decoded
  · obtain ⟨_, _, _, decoded⟩ := bind_eq_some.mp decoded
    obtain ⟨_, _, _, same⟩ := bind_eq_some.mp decoded
    obtain ⟨rfl, -⟩ := Prod.mk.inj (pure_eq_some.mp same)
    trivial
  split at decoded
  · obtain ⟨text, _, read, same⟩ := bind_eq_some.mp decoded
    obtain ⟨rfl, -⟩ := Prod.mk.inj (pure_eq_some.mp same)
    exact getText_short read
  · cases decoded

theorem decodeProperties_encode {entries : List (ByteString × Value)} {properties : PropertyBag}
    (recordable : ∀ entry ∈ entries, RecordableProperty entry)
    (distinct : entries.Pairwise fun left right => left.1 ≠ right.1)
    (fresh : ∀ entry ∈ entries, properties[entry.1]? = none) (rest : ByteString) :
    decodeProperties entries.length properties
        ((entries.flatMap fun entry => putText entry.1 ++ encodeValue entry.2) ++ rest) =
      some (entries.foldl (fun bag entry => bag.insert entry.1 entry.2) properties, rest) := by
  induction entries generalizing properties with
  | nil => rfl
  | cons entry entries ih =>
    obtain ⟨apart, distinct⟩ := List.pairwise_cons.mp distinct
    have first := recordable entry (by simp)
    have free := fresh entry (by simp)
    have later := @ih (properties.insert entry.1 entry.2)
      (fun other member => recordable other (by simp [member])) distinct ?_
    · simp only [List.flatMap_cons, List.append_assoc, List.length_cons, decodeProperties,
        bind_apply, getText_put first.name, guard_apply, decodeValue_encode first.value,
        Option.bind_some, first.named, free, ne_eq, not_false_eq_true, if_true]
      exact later
    · intro other member
      rw [lookup_insert_ne _ (apart other member).symm]
      exact fresh other (by simp [member])

theorem decodeProperties_toList {properties : PropertyBag}
    (recordable : ∀ entry ∈ properties.toList, RecordableProperty entry) (rest : ByteString) :
    decodeProperties properties.size ∅
        ((properties.toList.flatMap fun entry => putText entry.1 ++ encodeValue entry.2) ++ rest) =
      some (properties, rest) := by
  have distinct : properties.toList.Pairwise fun left right => left.1 ≠ right.1 := by
    refine Std.ExtTreeMap.distinct_keys_toList.imp fun apart same => ?_
    exact apart (by rw [same]; exact Std.ReflCmp.compare_self)
  have decoded := @decodeProperties_encode _ ∅ recordable distinct (by simp) rest
  rw [Std.ExtTreeMap.length_toList] at decoded
  rw [decoded]
  refine congrArg (fun bag => some (bag, rest)) (Std.ExtTreeMap.ext_getElem? fun name => ?_)
  rw [lookup_foldl_insert]
  cases properties[name]? <;> simp

/-- Properties that were decoded can be recorded, and there are as many as announced. -/
theorem decodeProperties_recordable {count : Nat} {properties decoded : PropertyBag}
    {data rest : ByteString}
    (read : decodeProperties count properties data = some (decoded, rest))
    (recordable : ∀ name value, properties[name]? = some value → RecordableProperty (name, value)) :
    decoded.size = properties.size + count ∧
      ∀ name value, decoded[name]? = some value → RecordableProperty (name, value) := by
  induction count generalizing properties data with
  | zero =>
    obtain ⟨rfl, -⟩ := Prod.mk.inj (pure_eq_some.mp read)
    exact ⟨rfl, recordable⟩
  | succ count ih =>
    obtain ⟨name, _, text, read⟩ := bind_eq_some.mp read
    obtain ⟨_, _, named, read⟩ := bind_eq_some.mp read
    obtain ⟨value, _, item, read⟩ := bind_eq_some.mp read
    obtain ⟨_, _, free, read⟩ := bind_eq_some.mp read
    have absent : properties[name]? = none := (guard_eq_some.mp free).1
    have new : RecordableProperty (name, value) :=
      ⟨(guard_eq_some.mp named).1, getText_short text, decodeValue_short item⟩
    have grown : ∀ other held, (properties.insert name value)[other]? = some held →
        RecordableProperty (other, held) := by
      intro other held found
      rw [lookup_insert] at found
      split at found
      · rename_i same
        obtain rfl := Option.some.inj found
        exact same ▸ new
      · exact recordable other held found
    obtain ⟨size, kept⟩ := ih read grown
    refine ⟨?_, kept⟩
    have missing : ¬ properties.contains name := by
      rw [Std.ExtTreeMap.contains_eq_isSome_getElem?, absent]
      simp
    rw [size, Std.ExtTreeMap.size_insert, if_neg missing]
    omega

/-- The operations whose record says what is executed. -/
def RecordableParams (target : WorldId) : CommandParams → Prop
  | .setProperty key value => key ≠ [] ∧ ShortText key ∧ ShortValue value
  | .createObject requestedId semanticType geometryRef _ properties =>
    requestedId = target ∧ semanticType ≠ [] ∧ ShortText semanticType ∧ ShortText geometryRef ∧
      properties.size ≤ maxRecordProperties.toNat ∧
        ∀ name value, properties[name]? = some value → RecordableProperty (name, value)
  | .destroyObject => True

/-- What the live process executes for an operation. -/
def livePayload (target : WorldId) : CommandParams → CommandPayload
  | .setProperty key value => .setProperty target key value
  | .createObject requestedId semanticType geometryRef position properties =>
    .createObject {
      id := requestedId
      semanticType := semanticType
      geometryRef := geometryRef
      position := position
      properties := properties }
  | .destroyObject => .destroyObject target

def operationCode : CommandParams → UInt8
  | .setProperty _ _ => 1
  | .createObject _ _ _ _ _ => 2
  | .destroyObject => 3

/-- The bytes of an operation behind its code. -/
def encodeOperation (params : CommandParams) : ByteString :=
  (encodeParams params).tail

theorem encodeParams_eq (params : CommandParams) :
    encodeParams params = putU8 (operationCode params) ++ encodeOperation params := by
  cases params <;> rfl

theorem decodeOperation_encode {target : WorldId} {params : CommandParams}
    (recordable : RecordableParams target params) :
    decodeOperation target (operationCode params) (encodeOperation params) =
      some (livePayload target params, []) := by
  cases params with
  | setProperty key value =>
    obtain ⟨named, short, shortValue⟩ := recordable
    have item := decodeValue_encode shortValue []
    rw [List.append_nil] at item
    simp [decodeOperation, operationCode, encodeOperation, encodeParams, livePayload, putU8,
      bind_apply, map_apply, guard_apply, getText_put short, item, named]
  | createObject requestedId semanticType geometryRef position properties =>
    obtain ⟨rfl, named, shortType, shortRef, few, recordable⟩ := recordable
    have bound : properties.size < 2 ^ 64 := few.trans_lt (by decide)
    have count : UInt64.ofNat properties.size ≤ maxRecordProperties := by
      rw [UInt64.le_iff_toNat_le, UInt64.toNat_ofNat', Nat.mod_eq_of_lt bound]
      exact few
    have size : (UInt64.ofNat properties.size).toNat = properties.size := by
      rw [UInt64.toNat_ofNat', Nat.mod_eq_of_lt bound]
    have decoded := @decodeProperties_toList properties
      (fun entry member => recordable entry.1 entry.2
        (Std.ExtTreeMap.mem_toList_iff_getElem?_eq_some.mp member)) []
    rw [List.append_nil] at decoded
    have bytes : encodeOperation
        (.createObject requestedId semanticType geometryRef position properties) =
        putText semanticType ++ (putText geometryRef ++ (putU64 position.x ++ (putU64 position.y ++
          (putU64 position.z ++ (bytesLE 8 properties.size ++
            properties.toList.flatMap fun entry => putText entry.1 ++ encodeValue entry.2))))) := by
      simp only [encodeOperation, encodeParams, putU8, List.append_assoc, List.cons_append,
        List.nil_append, List.tail_cons]
    unfold decodeOperation
    rw [bytes, operationCode, if_neg (by decide), if_pos rfl, bind_read (getText_put shortType _),
      bind_read (guard_read named _), bind_read (getText_put shortRef _),
      bind_read (getU64_put _ _), bind_read (getU64_put _ _), bind_read (getU64_put _ _),
      bind_read (getU64_bytesLE bound _), bind_read (guard_read count _), size, bind_read decoded]
    rfl
  | destroyObject => rfl

theorem decodeOperation_recordable {target : WorldId} {params : CommandParams} {data : ByteString}
    (decoded : decodeOperation target (operationCode params) data =
      some (livePayload target params, [])) : RecordableParams target params := by
  cases params with
  | setProperty key value =>
    simp only [decodeOperation, operationCode] at decoded
    obtain ⟨read, _, text, decoded⟩ := bind_eq_some.mp decoded
    obtain ⟨_, _, named, decoded⟩ := bind_eq_some.mp decoded
    obtain ⟨item, _, valued, decoded⟩ := bind_eq_some.mp decoded
    have same := (Prod.mk.inj (pure_eq_some.mp decoded)).1
    simp only [livePayload, CommandPayload.setProperty.injEq, true_and] at same
    obtain ⟨rfl, rfl⟩ := same
    exact ⟨(guard_eq_some.mp named).1, getText_short text, decodeValue_short valued⟩
  | createObject requestedId semanticType geometryRef position properties =>
    simp only [decodeOperation, operationCode] at decoded
    obtain ⟨readType, _, textType, decoded⟩ := bind_eq_some.mp decoded
    obtain ⟨_, _, named, decoded⟩ := bind_eq_some.mp decoded
    obtain ⟨readRef, _, textRef, decoded⟩ := bind_eq_some.mp decoded
    obtain ⟨x, _, _, decoded⟩ := bind_eq_some.mp decoded
    obtain ⟨y, _, _, decoded⟩ := bind_eq_some.mp decoded
    obtain ⟨z, _, _, decoded⟩ := bind_eq_some.mp decoded
    obtain ⟨count, _, _, decoded⟩ := bind_eq_some.mp decoded
    obtain ⟨_, _, few, decoded⟩ := bind_eq_some.mp decoded
    obtain ⟨bag, _, read, decoded⟩ := bind_eq_some.mp decoded
    have same := (Prod.mk.inj (pure_eq_some.mp decoded)).1
    simp only [livePayload, CommandPayload.createObject.injEq, WorldObject.mk.injEq, and_true] at same
    obtain ⟨rfl, rfl, -, rfl, rfl⟩ := same
    obtain ⟨size, recordable⟩ := decodeProperties_recordable read (by simp)
    refine ⟨rfl, (guard_eq_some.mp named).1, getText_short textType, getText_short textRef, ?_,
      recordable⟩
    rw [size, Std.ExtTreeMap.size_empty, Nat.zero_add]
    exact UInt64.le_iff_toNat_le.mp (guard_eq_some.mp few).1
  | destroyObject => trivial

theorem decodeIdentity_encode {principalId : ByteString} (short : ShortText principalId)
    (requestId : DurableRequestId) (rest : ByteString) :
    decodeIdentity (encodeIdentity principalId requestId ++ rest) =
      some (⟨principalId, requestId⟩, rest) := by
  have version : getU16 (putU16 durableRecordFormatVersion ++ (putText principalId ++
      (requestId.toList ++ rest))) = some (durableRecordFormatVersion, _) :=
    getU16_put (by decide) _
  simp [decodeIdentity, encodeIdentity, bind_apply, map_apply, guard_apply, List.append_assoc,
    version, getText_put short, getFixed_put]

/-- The header of a record is read back; its operation is decoded behind it. -/
theorem decodeRecord_encode {principalId : ByteString} (short : ShortText principalId)
    (requestId : DurableRequestId) (targetTick : UInt64) {command : ExternalCommand}
    (hint : command.targetTickHint ≤ targetTick) :
    decodeRecord (encodeExternalCommandRecord principalId requestId targetTick command) =
      if command.targetWid.valid then
        (decodeOperation command.targetWid (operationCode command.params)
          (encodeOperation command.params)).map fun result =>
            (⟨principalId, requestId, targetTick, command.clientSequence,
              command.expectedObjectVersion, result.1⟩, result.2)
      else none := by
  have bytes : encodeExternalCommandRecord principalId requestId targetTick command =
      encodeIdentity principalId requestId ++ (putU64 targetTick ++
        (putU64 command.clientSequence ++ (putU64 command.targetWid ++
          (putU64 command.expectedObjectVersion ++ (putU64 command.targetTickHint ++
            (putU8 (operationCode command.params) ++ encodeOperation command.params)))))) := by
    simp only [encodeExternalCommandRecord, makeCommandFingerprint, encodeParams_eq,
      List.append_assoc]
  unfold decodeRecord
  rw [bytes, bind_read (decodeIdentity_encode short requestId _), bind_read (getU64_put _ _),
    bind_read (getU64_put _ _), bind_read (getU64_put _ _), bind_read (getU64_put _ _),
    bind_read (getU64_put _ _), bind_read (getU8_put _ _)]
  split
  · next valid =>
    rw [bind_read (guard_read valid _), bind_apply]
    cases decodeOperation command.targetWid (operationCode command.params)
      (encodeOperation command.params) with
    | none => rfl
    | some result =>
      rw [Option.bind_some, bind_read (guard_read hint _)]
      rfl
  · next invalid =>
    rw [bind_apply, guard_apply, if_neg invalid]
    rfl

theorem decodeRecord_short {data rest : ByteString} {recovered : RecoveredDurableCommand}
    (read : decodeRecord data = some (recovered, rest)) : ShortText recovered.principalId := by
  obtain ⟨key, _, identity, read⟩ := bind_eq_some.mp read
  have short : ShortText key.principalId := by
    obtain ⟨_, _, _, identity⟩ := bind_eq_some.mp identity
    obtain ⟨_, _, _, identity⟩ := bind_eq_some.mp identity
    obtain ⟨principalId, _, text, identity⟩ := bind_eq_some.mp identity
    obtain ⟨_, _, _, identity⟩ := bind_eq_some.mp identity
    rw [← (Prod.mk.inj (pure_eq_some.mp identity)).1]
    exact getText_short text
  obtain ⟨_, _, _, read⟩ := bind_eq_some.mp read
  obtain ⟨_, _, _, read⟩ := bind_eq_some.mp read
  obtain ⟨_, _, _, read⟩ := bind_eq_some.mp read
  obtain ⟨_, _, _, read⟩ := bind_eq_some.mp read
  obtain ⟨_, _, _, read⟩ := bind_eq_some.mp read
  obtain ⟨_, _, _, read⟩ := bind_eq_some.mp read
  obtain ⟨_, _, _, read⟩ := bind_eq_some.mp read
  obtain ⟨_, _, _, read⟩ := bind_eq_some.mp read
  obtain ⟨_, _, _, read⟩ := bind_eq_some.mp read
  rw [← (Prod.mk.inj (pure_eq_some.mp read)).1]
  exact short

end Faithful

section Recovery

variable {gateway : GatewayAdmission} {id : SessionId} {info : SessionInfo}
variable {command : ExternalCommand} {currentTick : UInt64} {budget : Bool}
variable {decision : AdmissionDecision}

/-- An admitted command keeps its tick hint and is handed over with its own operation. -/
theorem admitted_decision
    (admitted : gateway.checkCommandAdmission id info command currentTick budget = .ok decision) :
    command.targetTickHint ≤ decision.targetTick ∧
      decision.payload = livePayload command.targetWid command.params := by
  unfold GatewayAdmission.checkCommandAdmission at admitted
  have hint : command.targetTickHint ≤ (if command.targetTickHint ≠ 0 then command.targetTickHint
      else currentTick + gateway.config.commandLeadTicks) := by
    split
    · exact UInt64.le_refl _
    · rename_i zero
      rw [not_not.mp zero]
      exact UInt64.zero_le
  split at admitted
  · cases admitted
  simp only at admitted
  generalize (if command.targetTickHint ≠ 0 then command.targetTickHint
    else currentTick + gateway.config.commandLeadTicks) = targetTick at hint admitted
  split at admitted
  · cases admitted
  cases params : command.params with
  | setProperty key value =>
    simp only [params] at admitted
    split_ifs at admitted
    obtain rfl := Except.ok.inj admitted
    exact ⟨hint, rfl⟩
  | createObject requestedId semanticType geometryRef position properties =>
    simp only [params] at admitted
    split_ifs at admitted
    obtain rfl := Except.ok.inj admitted
    exact ⟨hint, rfl⟩
  | destroyObject =>
    simp only [params] at admitted
    split_ifs at admitted
    obtain rfl := Except.ok.inj admitted
    exact ⟨hint, rfl⟩

/-- Recovery executes what the live process executes exactly for the recordable commands. -/
theorem external_command_record_faithful_iff
    (admitted : gateway.checkCommandAdmission id info command currentTick budget = .ok decision)
    (principalId : ByteString) (requestId : DurableRequestId) :
    decodeExternalCommandRecord
        (encodeExternalCommandRecord principalId requestId decision.targetTick command) =
      some ⟨principalId, requestId, decision.targetTick, command.clientSequence,
        command.expectedObjectVersion, decision.payload⟩ ↔
    ShortText principalId ∧ command.targetWid.valid ∧
      RecordableParams command.targetWid command.params := by
  obtain ⟨hint, payload⟩ := admitted_decision admitted
  rw [payload]
  constructor
  · intro decoded
    unfold decodeExternalCommandRecord at decoded
    split at decoded
    · rename_i recovered read
      obtain rfl := Option.some.inj decoded
      have short : ShortText principalId := decodeRecord_short read
      rw [decodeRecord_encode short requestId decision.targetTick hint] at read
      split at read
      swap
      · cases read
      rename_i valid
      obtain ⟨⟨other, rest⟩, operation, same⟩ := Option.map_eq_some_iff.mp read
      simp only [Prod.mk.injEq, RecoveredDurableCommand.mk.injEq, true_and] at same
      obtain ⟨rfl, rfl⟩ := same
      exact ⟨short, valid, decodeOperation_recordable operation⟩
    · cases decoded
  · rintro ⟨short, valid, recordable⟩
    unfold decodeExternalCommandRecord
    rw [decodeRecord_encode short requestId decision.targetTick hint, if_pos valid,
      decodeOperation_encode recordable]
    rfl

/-- A gateway that lets everyone do everything. -/
def openGateway : GatewayAdmission where
  authorization := ⟨fun _ _ _ => true, fun _ => true⟩

def destroyFive : ExternalCommand where
  session := 1
  clientSequence := 1
  targetWid := 5
  params := .destroyObject

theorem external_command_record_faithful_destroy :
    decodeExternalCommandRecord (encodeExternalCommandRecord [97] (Vector.replicate 16 0) 1
        destroyFive) =
      some ⟨[97], Vector.replicate 16 0, 1, 1, 0, .destroyObject 5⟩ ↔
    ShortText [97] ∧ destroyFive.targetWid.valid ∧
      RecordableParams destroyFive.targetWid destroyFive.params :=
  @external_command_record_faithful_iff openGateway 1 ⟨1, ⟨[97], true⟩⟩ destroyFive 0 true
    ⟨1, .destroyObject 5⟩ rfl [97] (Vector.replicate 16 0)

/-- An object without a semantic type, which admission lets pass. -/
def untypedCreate : ExternalCommand where
  session := 1
  clientSequence := 1
  targetWid := 5
  params := .createObject 5 [] [] ⟨0, 0, 0⟩ ∅

theorem untyped_create_not_decoded :
    ¬ ∀ (gateway : GatewayAdmission) (id : SessionId) (info : SessionInfo)
      (command : ExternalCommand) (currentTick : UInt64) (budget : Bool)
      (decision : AdmissionDecision) (principalId : ByteString) (requestId : DurableRequestId),
      gateway.checkCommandAdmission id info command currentTick budget = .ok decision →
        decodeExternalCommandRecord
            (encodeExternalCommandRecord principalId requestId decision.targetTick command) =
          some ⟨principalId, requestId, decision.targetTick, command.clientSequence,
            command.expectedObjectVersion, decision.payload⟩ := by
  intro claimed
  have decoded := claimed openGateway 1 ⟨1, ⟨[97], true⟩⟩ untypedCreate 0 true
    ⟨1, .createObject { id := 5 }⟩ [97] (Vector.replicate 16 0) rfl
  have failed : decodeExternalCommandRecord (encodeExternalCommandRecord [97]
      (Vector.replicate 16 0) 1 untypedCreate) = none := by decide +kernel
  rw [failed] at decoded
  cases decoded

end Recovery

end GeoWorld.Gateway
