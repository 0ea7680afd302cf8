import Mathlib
import GeoWorld.Persistence.TableCode
import GeoWorld.Tooling.BehaviorArtifact

/-!
A concrete choice of the libraries under the artifacts: the root table as a self-delimiting
code of its fields, and JSON texts of documents whose positions are zeros.
-/

namespace GeoWorld.Tooling

open WorldModel Library PrefixCode Persistence

section Tables

def signed32 : PrefixCode Int32 :=
  word32.via UInt32.toInt32 Int32.toUInt32 fun value => by simp

def kindCode : PrefixCode ArtifactKind :=
  word8.via (fun word => if word = 1 then .behaviorTree else if word = 2 then .stateMachine
      else .invalid)
    (fun kind => match kind with
      | .invalid => 0
      | .behaviorTree => 1
      | .stateMachine => 2)
    fun kind => by cases kind <;> rfl

def positionCode : PrefixCode EditorPosition :=
  (pair word64 word64).via (fun fields => ⟨fields.1, fields.2⟩)
    (fun position => (position.x, position.y)) fun _ => rfl

def nodeCode : PrefixCode BehaviorNodeTable :=
  (pair byteText (pair byteText (pair byteText (pair positionCode (pair (list byteText)
    (list (pair byteText byteText))))))).via
    (fun fields => ⟨fields.1, fields.2.1, fields.2.2.1, fields.2.2.2.1, fields.2.2.2.2.1,
      fields.2.2.2.2.2⟩)
    (fun node => (node.id, node.type, node.name, node.position, node.children, node.parameters))
    fun _ => rfl

def stateCode : PrefixCode HfsmStateDocument :=
  (pair byteText (pair byteText (pair byteText positionCode))).via
    (fun fields => ⟨fields.1, fields.2.1, fields.2.2.1, fields.2.2.2⟩)
    (fun state => (state.id, state.name, state.parent, state.position)) fun _ => rfl

def transitionCode : PrefixCode HfsmTransitionDocument :=
  (pair byteText (pair byteText (pair byteText signed32))).via
    (fun fields => ⟨fields.1, fields.2.1, fields.2.2.1, fields.2.2.2⟩)
    (fun item => (item.source, item.event, item.target, item.priority)) fun _ => rfl

def artifactCode : PrefixCode BehaviorArtifact :=
  (pair (pair word32 (pair word32 (pair word32 kindCode)))
    (pair (pair byteText (pair byteText (pair byteText byteText)))
      (pair (list nodeCode) (pair (list stateCode) (list transitionCode))))).via
    (fun fields => {
      formatVersion := fields.1.1
      schemaVersion := fields.1.2.1
      compilerVersion := fields.1.2.2.1
      kind := fields.1.2.2.2
      sourceHash := fields.2.1.1
      documentId := fields.2.1.2.1
      entryId := fields.2.1.2.2.1
      runtimeXml := fields.2.1.2.2.2
      behaviorNodes := fields.2.2.1
      hfsmStates := fields.2.2.2.1
      hfsmTransitions := fields.2.2.2.2 })
    (fun artifact => ((artifact.formatVersion, artifact.schemaVersion, artifact.compilerVersion,
        artifact.kind),
      (artifact.sourceHash, artifact.documentId, artifact.entryId, artifact.runtimeXml),
      artifact.behaviorNodes, artifact.hfsmStates, artifact.hfsmTransitions))
    fun _ => rfl

end Tables

/-- The letters `GWBA`. -/
def fileIdentifier : ByteString := [71, 87, 66, 65]

/-- The root offset and the identifier, then the table. -/
def plainBuffers : ArtifactBuffers where
  finish artifact := [0, 0, 0, 0] ++ fileIdentifier ++ artifactCode.write artifact.stored
  hasIdentifier bytes := (bytes.drop 4).take 4 == fileIdentifier
  wellFormed bytes := (artifactCode.readAll (bytes.drop 8)).isSome
  getRoot bytes := (artifactCode.readAll (bytes.drop 8)).getD {
    schemaVersion := 0, compilerVersion := 0, kind := .invalid, sourceHash := [],
    documentId := [], entryId := [], hfsmStates := [], hfsmTransitions := [] }

theorem plainBuffers_table (artifact : BehaviorArtifact) :
    artifactCode.readAll ((plainBuffers.finish artifact).drop 8) = some artifact.stored :=
  artifactCode.readAll_write artifact.stored

theorem plainBuffers_faithful : plainBuffers.Faithful where
  nonempty_finish _ := nofun
  identifier_finish _ := rfl
  wellFormed_finish artifact := congrArg Option.isSome (plainBuffers_table artifact)
  getRoot_finish artifact := congrArg (fun table => Option.getD table _)
    (plainBuffers_table artifact)

def decimal (value : Int) : ByteString := utf8 (toString value)

def quoted (value : ByteString) : ByteString := utf8 "\"" ++ value ++ utf8 "\""

def joined (items : List ByteString) : ByteString := (items.intersperse (utf8 ",")).flatten

mutual

/-- `dump` for texts without anything to escape and for the doubles `0.0` and `-0.0`. -/
def plainDump : Json → Option ByteString
  | .text value => some (quoted value)
  | .unsigned value => some (decimal value.toNat)
  | .integer value => some (decimal value.toInt)
  | .real bits =>
    if bits = 0 then some (utf8 "0.0")
    else if bits = Protocol.negativeZero then some (utf8 "-0.0") else none
  | .array items => (plainItems items).map fun texts => utf8 "[" ++ joined texts ++ utf8 "]"
  | .object entries =>
    (plainEntries entries).map fun texts => utf8 "\x7b" ++ joined texts ++ utf8 "\x7d"

def plainItems : List Json → Option (List ByteString)
  | [] => some []
  | item :: rest => (plainDump item).bind fun text => (plainItems rest).map (text :: ·)

def plainEntries : List (ByteString × Json) → Option (List ByteString)
  | [] => some []
  | (key, value) :: rest => (plainDump value).bind fun text =>
    (plainEntries rest).map ((quoted key ++ utf8 ":" ++ text) :: ·)

end

end GeoWorld.Tooling
