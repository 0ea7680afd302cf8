import Mathlib
import GeoWorld.Gateway.DurableRecord
import GeoWorld.Gateway.ExactlyOnce

/-!
What the fingerprint of a command tells apart. Behind fixed fields stand texts with a
16-bit length, so texts are read off the front as long as no two of them have lengths that
agree in their low 16 bits only; the id a new object asks for is not written at all.
-/

namespace GeoWorld.Gateway

open WorldModel Library Simulation Encoder

section Fields

theorem bytesLE_append_inj {width left right : ℕ} {rest others : ByteString}
    (same : bytesLE width left ++ rest = bytesLE width right ++ others) :
    left % 256 ^ width = right % 256 ^ width ∧ rest = others := by
  obtain ⟨bytes, same⟩ := List.append_inj same (by rw [bytesLE_length, bytesLE_length])
  refine ⟨?_, same⟩
  have positive : 0 < 256 ^ width := by positivity
  rw [← bytesLE_mod width left, ← bytesLE_mod width right] at bytes
  have values := congrArg valueLE bytes
  rwa [valueLE_bytesLE _ _ (Nat.mod_lt _ positive), valueLE_bytesLE _ _ (Nat.mod_lt _ positive)]
    at values

theorem putU64_append_inj {left right : UInt64} {rest others : ByteString}
    (same : putU64 left ++ rest = putU64 right ++ others) : left = right ∧ rest = others := by
  obtain ⟨values, same⟩ := bytesLE_append_inj same
  change left.toNat % 2 ^ 64 = right.toNat % 2 ^ 64 at values
  rw [Nat.mod_eq_of_lt left.toNat_lt, Nat.mod_eq_of_lt right.toNat_lt] at values
  exact ⟨UInt64.toNat_inj.mp values, same⟩

theorem putI64_append_inj {left right : Int64} {rest others : ByteString}
    (same : putI64 left ++ rest = putI64 right ++ others) : left = right ∧ rest = others := by
  obtain ⟨values, same⟩ := putU64_append_inj same
  have numbers := congrArg UInt64.toInt64 values
  exact ⟨by simpa using numbers, same⟩

/-- The length fields of two texts differ where their lengths do. -/
def LengthTells (left right : ByteString) : Prop :=
  left.length % 65536 = right.length % 65536 → left.length = right.length

theorem putText_append_inj {left right rest others : ByteString} (tells : LengthTells left right)
    (same : putText left ++ rest = putText right ++ others) : left = right ∧ rest = others := by
  simp only [putText, putU16, List.append_assoc] at same
  obtain ⟨lengths, same⟩ := bytesLE_append_inj same
  exact List.append_inj same (tells lengths)

def valueTexts : Value → List ByteString
  | .text value => [value]
  | _ => []

theorem encodeValue_append_inj {left right : Value} {rest others : ByteString}
    (tells : ∀ text ∈ valueTexts left, ∀ other ∈ valueTexts right, LengthTells text other)
    (same : encodeValue left ++ rest = encodeValue right ++ others) :
    left = right ∧ rest = others := by
  cases left with
  | integer value =>
    cases right with
    | integer other =>
      obtain ⟨values, same⟩ := putI64_append_inj (List.cons.inj same).2
      exact ⟨congrArg _ values, same⟩
    | _ => simp [encodeValue, putU8] at same
  | real bits =>
    cases right with
    | real other =>
      obtain ⟨values, same⟩ := putU64_append_inj (List.cons.inj same).2
      exact ⟨congrArg _ values, same⟩
    | _ => simp [encodeValue, putU8] at same
  | boolean value =>
    cases right with
    | boolean other =>
      obtain ⟨values, same⟩ := List.cons.inj (List.cons.inj same).2
      refine ⟨congrArg _ ?_, same⟩
      cases value <;> cases other <;> simp at values ⊢
    | _ => simp [encodeValue, putU8] at same
  | text value =>
    cases right with
    | text other =>
      have apart := tells value (List.mem_singleton.mpr rfl) other (List.mem_singleton.mpr rfl)
      obtain ⟨values, same⟩ := putText_append_inj apart (List.cons.inj same).2
      exact ⟨congrArg _ values, same⟩
    | _ => simp [encodeValue, putU8] at same

abbrev Property := ByteString × Value

def encodeProperty (property : Property) : ByteString :=
  putText property.1 ++ encodeValue property.2

def propertyTexts (property : Property) : List ByteString := property.1 :: valueTexts property.2

theorem encodeProperty_ne_nil (property : Property) (rest : ByteString) :
    encodeProperty property ++ rest ≠ [] := by
  refine List.ne_nil_of_length_pos ?_
  simp only [encodeProperty, putText, putU16, List.length_append, bytesLE_length]
  omega

/-- Properties at the end of the bytes, as many as there are. -/
theorem encodeProperties_inj {left right : List Property}
    (tells : ∀ text ∈ left.flatMap propertyTexts, ∀ other ∈ right.flatMap propertyTexts,
      LengthTells text other)
    (same : left.flatMap encodeProperty = right.flatMap encodeProperty) : left = right := by
  induction left generalizing right with
  | nil =>
    cases right with
    | nil => rfl
    | cons other others => exact absurd same.symm (encodeProperty_ne_nil other _)
  | cons property rest ih =>
    cases right with
    | nil => exact absurd same (encodeProperty_ne_nil property _)
    | cons other others =>
      simp only [List.flatMap_cons, List.mem_append] at tells
      simp only [List.flatMap_cons, encodeProperty, List.append_assoc] at same
      obtain ⟨names, same⟩ := putText_append_inj
        (tells property.1 (.inl List.mem_cons_self) other.1 (.inl List.mem_cons_self)) same
      obtain ⟨values, same⟩ := encodeValue_append_inj
        (fun text member text' member' => tells text (.inl (List.mem_cons_of_mem _ member)) text'
          (.inl (List.mem_cons_of_mem _ member'))) same
      rw [Prod.ext names values, ih (fun text member text' member' =>
        tells text (.inr member) text' (.inr member')) same]

end Fields

section Params

/-- The texts an operation is written with. -/
def paramTexts : CommandParams → List ByteString
  | .setProperty key value => key :: valueTexts value
  | .createObject _ semanticType geometryRef _ properties =>
    semanticType :: geometryRef :: properties.toList.flatMap propertyTexts
  | .destroyObject => []

/-- No text of the one operation is longer than one of the other by a multiple of 65536. -/
def LengthsTell (left right : CommandParams) : Prop :=
  ∀ text ∈ paramTexts left, ∀ other ∈ paramTexts right, LengthTells text other

/-- An operation without the id a new object asks for. -/
def withoutRequestedId : CommandParams → CommandParams
  | .createObject _ semanticType geometryRef position properties =>
    .createObject 0 semanticType geometryRef position properties
  | params => params

theorem encodeParams_withoutRequestedId (params : CommandParams) :
    encodeParams (withoutRequestedId params) = encodeParams params := by
  cases params <;> rfl

/-- The bytes of an operation say all of it but the requested id. -/
theorem encodeParams_inj {left right : CommandParams} (tells : LengthsTell left right)
    (same : encodeParams left = encodeParams right) :
    withoutRequestedId left = withoutRequestedId right := by
  cases left with
  | setProperty key value =>
    cases right with
    | setProperty key' value' =>
      simp only [encodeParams, putU8, List.cons_append, List.nil_append, List.cons.injEq,
        true_and] at same
      obtain ⟨keys, same⟩ := putText_append_inj (tells key (by simp [paramTexts]) key'
        (by simp [paramTexts])) same
      rw [← List.append_nil (encodeValue value), ← List.append_nil (encodeValue value')] at same
      obtain ⟨values, -⟩ := encodeValue_append_inj (fun text member text' member' =>
        tells text (List.mem_cons_of_mem _ member) text' (List.mem_cons_of_mem _ member')) same
      rw [keys, values]
    | createObject => simp [encodeParams, putU8] at same
    | destroyObject => simp [encodeParams, putU8] at same
  | createObject requestedId semanticType geometryRef position properties =>
    cases right with
    | setProperty => simp [encodeParams, putU8] at same
    | createObject requestedId' semanticType' geometryRef' position' properties' =>
      simp only [encodeParams, putU8, List.append_assoc, List.cons_append, List.nil_append,
        List.cons.injEq, true_and] at same
      obtain ⟨types, same⟩ := putText_append_inj (tells semanticType (by simp [paramTexts])
        semanticType' (by simp [paramTexts])) same
      obtain ⟨refs, same⟩ := putText_append_inj (tells geometryRef (by simp [paramTexts])
        geometryRef' (by simp [paramTexts])) same
      obtain ⟨xs, same⟩ := putU64_append_inj same
      obtain ⟨ys, same⟩ := putU64_append_inj same
      obtain ⟨zs, same⟩ := putU64_append_inj same
      obtain ⟨-, same⟩ := bytesLE_append_inj same
      have entries := encodeProperties_inj (fun text member text' member' =>
        tells text (List.mem_cons_of_mem _ (List.mem_cons_of_mem _ member)) text'
          (List.mem_cons_of_mem _ (List.mem_cons_of_mem _ member'))) same
      have bags : properties = properties' := Std.ExtTreeMap.toList_inj.mp entries
      have positions : position = position' := by
        cases position
        cases position'
        exact congr (congrArg₂ PositionEcef.mk xs ys) zs
      rw [types, refs, positions, bags]
      rfl
    | destroyObject => simp [encodeParams, putU8] at same
  | destroyObject =>
    cases right with
    | setProperty => simp [encodeParams, putU8] at same
    | createObject => simp [encodeParams, putU8] at same
    | destroyObject => rfl

theorem params_eq_of_livePayload {target : WorldId} {left right : CommandParams}
    (recorded : withoutRequestedId left = withoutRequestedId right)
    (payload : livePayload target left = livePayload target right) : left = right := by
  cases left <;> cases right <;> simp_all [withoutRequestedId, livePayload]

end Params

section Fingerprint

/-- What decides how a command is executed and answered. -/
def ExternalCommand.content (command : ExternalCommand) :
    UInt64 × UInt64 × UInt64 × CommandPayload :=
  (command.clientSequence, command.expectedObjectVersion, command.targetTickHint,
    livePayload command.targetWid command.params)

/-- Two commands that create an object alike, under different ids. -/
structure DifferInRequestedId (command other : ExternalCommand) : Prop where
  clientSequence : command.clientSequence = other.clientSequence
  targetWid : command.targetWid = other.targetWid
  expectedObjectVersion : command.expectedObjectVersion = other.expectedObjectVersion
  targetTickHint : command.targetTickHint = other.targetTickHint
  recorded : withoutRequestedId command.params = withoutRequestedId other.params
  apart : command.params ≠ other.params

variable {command other : ExternalCommand}

theorem DifferInRequestedId.fingerprint (differ : DifferInRequestedId command other) :
    makeCommandFingerprint command = makeCommandFingerprint other := by
  unfold makeCommandFingerprint
  rw [differ.clientSequence, differ.targetWid, differ.expectedObjectVersion,
    differ.targetTickHint, ← encodeParams_withoutRequestedId command.params, differ.recorded,
    encodeParams_withoutRequestedId]

theorem DifferInRequestedId.content (differ : DifferInRequestedId command other) :
    command.content ≠ other.content := by
  intro same
  have payload := (Prod.mk.inj (Prod.mk.inj (Prod.mk.inj same).2).2).2
  rw [← differ.targetWid] at payload
  exact differ.apart (params_eq_of_livePayload differ.recorded payload)

/-- Commands with one fingerprint have one content, or create under different ids. -/
theorem fingerprint_inj (tells : LengthsTell command.params other.params)
    (same : makeCommandFingerprint command = makeCommandFingerprint other)
    (differ : command.content ≠ other.content) : DifferInRequestedId command other := by
  simp only [makeCommandFingerprint, List.append_assoc] at same
  obtain ⟨clientSequence, same⟩ := putU64_append_inj same
  obtain ⟨targetWid, same⟩ := putU64_append_inj same
  obtain ⟨expectedObjectVersion, same⟩ := putU64_append_inj same
  obtain ⟨targetTickHint, same⟩ := putU64_append_inj same
  refine ⟨clientSequence, targetWid, expectedObjectVersion, targetTickHint,
    encodeParams_inj tells same, fun params => differ ?_⟩
  rw [ExternalCommand.content, ExternalCommand.content, clientSequence, targetWid,
    expectedObjectVersion, targetTickHint, params]

variable {σ : Type}

/-- A command sent again under the key of another one is answered with a conflict. -/
def AnswersConflict (system : AdmissionSystem σ) (registered reused : ExternalCommand) : Prop :=
  ∀ id currentTick budget accepts info key slot,
    system.submissionKey id reused = some (info, key) →
    system.gateway.durableIndex.slots[key]? = some slot →
    slot.fingerprint = makeCommandFingerprint registered →
    system.submitDurableCommand id reused currentTick budget accepts =
      { system with callbacks := system.callbacks + 1 }.complete system.callbacks
        .idempotencyConflict (AdmissionSystem.rejectedReceipt reused .idempotencyConflict)

/-- Two contents have two fingerprints unless they differ in the requested id alone; then
the second of them under one request id is refused. -/
theorem fingerprint_tells_iff (tells : LengthsTell command.params other.params) :
    ((command.content ≠ other.content →
        makeCommandFingerprint command ≠ makeCommandFingerprint other) ↔
      ¬ DifferInRequestedId command other) ∧
    (¬ DifferInRequestedId command other → command.content ≠ other.content →
      ∀ system : AdmissionSystem σ, AnswersConflict system command other) := by
  have apart (alike : ¬ DifferInRequestedId command other)
      (differ : command.content ≠ other.content) :
      makeCommandFingerprint command ≠ makeCommandFingerprint other :=
    fun same => alike (fingerprint_inj tells same differ)
  refine ⟨⟨fun injective differ => injective differ.content differ.fingerprint, apart⟩, ?_⟩
  intro alike differ system id currentTick budget accepts info key slot keyed registered same
  exact system.submitDurableCommand_conflict currentTick budget accepts keyed registered
    (same ▸ apart alike differ)

/-- The witness and the counterexample create an object under an id, aimed at object 7. -/
def createUnder (requestedId : WorldId) : ExternalCommand :=
  { session := 1
    clientSequence := 1
    targetWid := 7
    params := .createObject requestedId [116] [] ⟨0, 0, 0⟩ ∅ }

theorem createUnder_tells (one other : WorldId) :
    LengthsTell (createUnder one).params (createUnder other).params := by
  have short : ∀ text ∈ [[116], ([] : ByteString)], text.length < 65536 := by decide
  intro text member text' member' same
  have texts (id : WorldId) : paramTexts (createUnder id).params = [[116], []] := by
    simp [paramTexts, createUnder]
  rw [texts] at member member'
  rwa [Nat.mod_eq_of_lt (short text member), Nat.mod_eq_of_lt (short text' member')] at same

theorem createUnder_differ : DifferInRequestedId (createUnder 7) (createUnder 8) :=
  ⟨rfl, rfl, rfl, rfl, rfl, by simp [createUnder]⟩

theorem createUnder_not_told :
    ¬ ((createUnder 7).content ≠ (createUnder 8).content →
      makeCommandFingerprint (createUnder 7) ≠ makeCommandFingerprint (createUnder 8)) :=
  fun injective =>
    (@fingerprint_tells_iff _ _ Unit (createUnder_tells 7 8)).1.mp injective createUnder_differ

/-- Both commands are admitted. -/
theorem fingerprint_misses_requested_id :
    ¬ ∀ (gateway : GatewayAdmission) (info : SessionInfo) (command other : ExternalCommand)
      (currentTick : UInt64),
      (gateway.checkCommandAdmission 1 info command currentTick true).isOk →
      (gateway.checkCommandAdmission 1 info other currentTick true).isOk →
      command.content ≠ other.content →
        makeCommandFingerprint command ≠ makeCommandFingerprint other := by
  intro injective
  exact injective startedGateway.gateway ⟨1, { id := [97] }⟩ (createUnder 7) (createUnder 8) 0
    (by decide +kernel) (by decide +kernel) createUnder_differ.content
    createUnder_differ.fingerprint

/-- A key longer by 65536 bytes takes over the value of another command. -/
theorem long_key_fingerprint (command : ExternalCommand) (key front : ByteString)
    (length : front.length = 65533) :
    makeCommandFingerprint
        { command with params := .setProperty key (.text (front ++ [2, 1])) } =
      makeCommandFingerprint
        { command with
          params := .setProperty (key ++ 3 :: 255 :: 255 :: front) (.boolean true) } := by
  have field : bytesLE 2 (key ++ 3 :: 255 :: 255 :: front).length = bytesLE 2 key.length := by
    rw [← bytesLE_mod 2 (key ++ 3 :: 255 :: 255 :: front).length, ← bytesLE_mod 2 key.length]
    simp [length]
  have text : bytesLE 2 (front ++ [2, 1]).length = [255, 255] := by simp [length, bytesLE]
  simp only [makeCommandFingerprint, encodeParams, encodeValue, putText, putU16, putU8, field, text]
  simp

end Fingerprint

end GeoWorld.Gateway
