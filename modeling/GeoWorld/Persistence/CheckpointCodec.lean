import Mathlib
import GeoWorld.Persistence.WalCodec

/-!
The two files of a checkpoint, a data file of provider blocks and a manifest that names
it, and the check of such a pair. The tables are what the FlatBuffers of the two files
hold once their structure is verified; `Formats` stands for the libraries that read and
write them, for CRC32C and for Zstandard.
-/

namespace GeoWorld.Persistence

open WorldModel Library

structure CheckpointSchema where
  providerId : ByteString
  schemaVersion : UInt32
  deriving DecidableEq

structure CheckpointBlock where
  schema : CheckpointSchema
  payload : ByteString
  deriving DecidableEq

structure CheckpointAnchor where
  completedTick : UInt64
  resumeTick : UInt64
  includedLsn : Lsn
  worldStateHash : UInt64
  deriving DecidableEq

structure ProviderBlockTable where
  providerId : Option ByteString
  schemaVersion : UInt32
  payload : Option ByteString
  payloadCrc32c : UInt32
  deriving DecidableEq

structure WorldCheckpointTable where
  formatVersion : UInt32
  worldId : UInt64
  branchId : Option ByteString
  anchor : CheckpointAnchor
  blocks : Option (List ProviderBlockTable)
  checkpointContentHash : UInt64
  deriving DecidableEq

structure ProviderSchemaEntry where
  providerId : Option ByteString
  schemaVersion : UInt32
  deriving DecidableEq

inductive Compression where
  | none
  | zstd
  | unknown
  deriving DecidableEq

/-- The data file is a relative path; texts that are paths are kept as their components. -/
structure CheckpointManifestTable where
  formatVersion : UInt32
  worldId : UInt64
  branchId : Option ByteString
  anchor : CheckpointAnchor
  providerSchemas : Option (List ProviderSchemaEntry)
  dataFile : Option Directory
  dataLength : UInt64
  dataCrc32c : UInt32
  dataUncompressedLength : UInt64
  compression : Compression
  checkpointContentHash : UInt64
  deriving DecidableEq

structure BranchManifestTable where
  formatVersion : UInt32
  worldId : UInt64
  branchId : Option ByteString
  parentBranchId : Option ByteString
  forkTick : UInt64
  forkLsn : Lsn
  baseCheckpoint : Option Directory
  overlayWal : Option Directory
  sideEffectsEnabled : Bool
  deriving DecidableEq

/-- The libraries under the codec. Reading a buffer verifies its structure; decompression
fails or fills exactly the given length. -/
structure Formats where
  crc32c : ByteString → UInt32
  buildWorldCheckpoint : WorldCheckpointTable → ByteString
  readWorldCheckpoint : ByteString → Option WorldCheckpointTable
  buildCheckpointManifest : CheckpointManifestTable → ByteString
  readCheckpointManifest : ByteString → Option CheckpointManifestTable
  buildBranchManifest : BranchManifestTable → ByteString
  readBranchManifest : ByteString → Option BranchManifestTable
  minCompressionLevel : Int
  maxCompressionLevel : Int
  compress : Int → ByteString → Option ByteString
  decompress : Nat → ByteString → Option ByteString

def maxCheckpointBytes : Nat := 16 * 1024 * 1024 * 1024

def maxProviderBlocks : Nat := 1024

/-- FNV-1a. -/
def mixByte (hash : UInt64) (byte : UInt8) : UInt64 :=
  (hash ^^^ byte.toUInt64) * 1099511628211

def mixBytes (hash : UInt64) (bytes : ByteString) : UInt64 :=
  bytes.foldl mixByte hash

def mixBlock (hash : UInt64) (block : CheckpointBlock) : UInt64 :=
  mixBytes (mixBytes (mixBytes hash block.schema.providerId)
    (bytesLE 4 block.schema.schemaVersion.toNat)) block.payload

def authoritativeCheckpointHash (blocks : List CheckpointBlock) : UInt64 :=
  blocks.foldl mixBlock 14695981039346656037

def fromBranchBytes (bytes : Option ByteString) : Option BranchId :=
  bytes.bind fun bytes =>
    if same : bytes.length = 16 then some ⟨bytes.toArray, by simpa using same⟩ else none

structure DecodedCheckpointData where
  anchor : CheckpointAnchor
  checkpointContentHash : UInt64
  world : UInt64
  branch : BranchId
  blocks : List CheckpointBlock
  deriving DecidableEq

structure DecodedManifest where
  anchor : CheckpointAnchor
  checkpointContentHash : UInt64
  world : UInt64
  branch : BranchId
  providerSchemas : List CheckpointSchema
  dataFile : FileName
  dataLength : Nat
  dataCrc32c : UInt32
  dataUncompressedLength : Nat
  zstdCompressed : Bool
  deriving DecidableEq

structure VerifiedCheckpoint where
  manifest : DecodedManifest
  data : DecodedCheckpointData
  deriving DecidableEq

/-- A named schema with a version, behind the one before. -/
def acceptSchema (previous : ByteString) (providerId : ByteString) (schemaVersion : UInt32) :
    Option CheckpointSchema :=
  if providerId = [] ∨ schemaVersion = 0 ∨ previous ≠ [] ∧ ¬ previous < providerId then none
  else some ⟨providerId, schemaVersion⟩

section Codec

variable (formats : Formats)

def encodeWorldCheckpoint (world : UInt64) (branch : BranchId) (anchor : CheckpointAnchor)
    (checkpointContentHash : UInt64) (blocks : List CheckpointBlock) : ByteString :=
  formats.buildWorldCheckpoint {
    formatVersion := 1
    worldId := world
    branchId := some branch.toList
    anchor := anchor
    blocks := some (blocks.map fun block => {
      providerId := some block.schema.providerId
      schemaVersion := block.schema.schemaVersion
      payload := some block.payload
      payloadCrc32c := formats.crc32c block.payload })
    checkpointContentHash := checkpointContentHash }

/-- The blocks in turn, in strictly ascending order of their providers. -/
def decodeBlocks : ByteString → List ProviderBlockTable →
    Except PersistenceError (List CheckpointBlock)
  | _, [] => .ok []
  | previous, block :: rest =>
    match block.providerId, block.payload with
    | some providerId, some payload =>
      match acceptSchema previous providerId block.schemaVersion with
      | none => .error .checkpointInvalid
      | some schema =>
        if formats.crc32c payload ≠ block.payloadCrc32c then .error .checksumMismatch
        else (decodeBlocks providerId rest).map (⟨schema, payload⟩ :: ·)
    | _, _ => .error .checkpointInvalid

def decodeWorldCheckpoint (bytes : ByteString) :
    Except PersistenceError DecodedCheckpointData :=
  if bytes = [] ∨ maxCheckpointBytes < bytes.length then .error .checkpointInvalid
  else match formats.readWorldCheckpoint bytes with
    | none => .error .checkpointInvalid
    | some table =>
      match fromBranchBytes table.branchId, table.blocks with
      | some branch, some blocks =>
        if table.formatVersion ≠ 1 ∨ maxProviderBlocks < blocks.length then
          .error .checkpointInvalid
        else (decodeBlocks formats [] blocks).map fun blocks =>
          ⟨table.anchor, table.checkpointContentHash, table.worldId, branch, blocks⟩
      | _, _ => .error .checkpointInvalid

def encodeCheckpointManifest (world : UInt64) (branch : BranchId) (anchor : CheckpointAnchor)
    (checkpointContentHash : UInt64) (providerSchemas : List CheckpointSchema)
    (dataFile : FileName) (dataLength : Nat) (dataCrc32c : UInt32)
    (dataUncompressedLength : Nat) (zstdCompressed : Bool) : ByteString :=
  formats.buildCheckpointManifest {
    formatVersion := 1
    worldId := world
    branchId := some branch.toList
    anchor := anchor
    providerSchemas := some (providerSchemas.map fun schema =>
      ⟨some schema.providerId, schema.schemaVersion⟩)
    dataFile := some [dataFile]
    dataLength := UInt64.ofNat dataLength
    dataCrc32c := dataCrc32c
    dataUncompressedLength := UInt64.ofNat dataUncompressedLength
    compression := if zstdCompressed then .zstd else .none
    checkpointContentHash := checkpointContentHash }

def decodeSchemas : ByteString → List ProviderSchemaEntry →
    Except PersistenceError (List CheckpointSchema)
  | _, [] => .ok []
  | previous, entry :: rest =>
    match entry.providerId with
    | none => .error .manifestInvalid
    | some providerId =>
      match acceptSchema previous providerId entry.schemaVersion with
      | none => .error .manifestInvalid
      | some schema => (decodeSchemas providerId rest).map (schema :: ·)

/-- A manifest without a list of schemas has none; its data file is a plain file name. -/
def decodeManifestTable (table : CheckpointManifestTable) :
    Except PersistenceError DecodedManifest :=
  match fromBranchBytes table.branchId, table.dataFile with
  | some branch, some dataFile =>
    if table.formatVersion ≠ 1 ∨ maxProviderBlocks < (table.providerSchemas.getD []).length then
      .error .manifestInvalid
    else match decodeSchemas [] (table.providerSchemas.getD []), dataFile with
      | .error error, _ => .error error
      | .ok schemas, [name] =>
        if name = [] ∨ table.compression = .unknown ∨ table.dataUncompressedLength = 0 then
          .error .manifestInvalid
        else .ok {
          anchor := table.anchor
          checkpointContentHash := table.checkpointContentHash
          world := table.worldId
          branch := branch
          providerSchemas := schemas
          dataFile := name
          dataLength := table.dataLength.toNat
          dataCrc32c := table.dataCrc32c
          dataUncompressedLength := table.dataUncompressedLength.toNat
          zstdCompressed := table.compression = .zstd }
      | .ok _, _ => .error .manifestInvalid
  | _, _ => .error .manifestInvalid

def decodeCheckpointManifest (bytes : ByteString) : Except PersistenceError DecodedManifest :=
  if bytes = [] ∨ maxCheckpointBytes < bytes.length then .error .manifestInvalid
  else match formats.readCheckpointManifest bytes with
    | none => .error .manifestInvalid
    | some table => decodeManifestTable table

/-- The stored bytes as the manifest says they are packed. -/
def unpackData (manifest : DecodedManifest) (stored : ByteString) :
    Except PersistenceError ByteString :=
  if manifest.zstdCompressed then
    if maxCheckpointBytes < manifest.dataUncompressedLength then .error .checkpointInvalid
    else match formats.decompress manifest.dataUncompressedLength stored with
      | none => .error .checkpointInvalid
      | some bytes => .ok bytes
  else if manifest.dataUncompressedLength ≠ stored.length then .error .checkpointInvalid
  else .ok stored

def readManifest (world : UInt64) (branch : BranchId) (bytes : ByteString) :
    Except PersistenceError DecodedManifest :=
  match decodeCheckpointManifest formats bytes with
  | .error error => .error error
  | .ok manifest =>
    if manifest.world ≠ world ∨ manifest.branch ≠ branch then .error .configInvalid
    else .ok manifest

/-- The data file against its manifest. -/
def verifyData (manifest : DecodedManifest) (stored : ByteString) :
    Except PersistenceError VerifiedCheckpoint :=
  if stored.length ≠ manifest.dataLength then .error .checkpointInvalid
  else if formats.crc32c stored ≠ manifest.dataCrc32c then .error .checksumMismatch
  else match unpackData formats manifest stored with
    | .error error => .error error
    | .ok bytes =>
      match decodeWorldCheckpoint formats bytes with
      | .error error => .error error
      | .ok data =>
        if data.world ≠ manifest.world ∨ data.branch ≠ manifest.branch ∨
            data.anchor ≠ manifest.anchor ∨
            data.checkpointContentHash ≠ manifest.checkpointContentHash ∨
            data.blocks.map CheckpointBlock.schema ≠ manifest.providerSchemas ∨
            authoritativeCheckpointHash data.blocks ≠ manifest.checkpointContentHash then
          .error .checkpointInvalid
        else .ok ⟨manifest, data⟩

def verifyCheckpointPair (checkpointDir : Directory) (manifestPath : DiskPath) (world : UInt64)
    (branch : BranchId) : FileProgram (Except PersistenceError VerifiedCheckpoint) := do
  let manifestRead ← ask (.readFile manifestPath)
  match manifestRead with
  | .error error => return .error error
  | .ok bytes =>
    match readManifest formats world branch bytes with
    | .error error => return .error error
    | .ok manifest =>
      let dataRead ← ask (.readFile (checkpointDir.file manifest.dataFile))
      match dataRead with
      | .error error => return .error error
      | .ok stored => return verifyData formats manifest stored

theorem decodeManifestTable_fields {table : CheckpointManifestTable} {manifest : DecodedManifest}
    (decoded : decodeManifestTable table = .ok manifest) :
    manifest.anchor = table.anchor ∧ table.dataFile = some [manifest.dataFile] := by
  unfold decodeManifestTable at decoded
  split at decoded
  · rename_i branch dataFile _ file
    split at decoded
    · cases decoded
    · split at decoded
      · cases decoded
      · split at decoded
        · cases decoded
        · cases decoded
          exact ⟨rfl, file⟩
      · cases decoded
  · cases decoded

theorem decodeCheckpointManifest_table {bytes : ByteString} {manifest : DecodedManifest}
    (decoded : decodeCheckpointManifest formats bytes = .ok manifest) :
    ∃ table, formats.readCheckpointManifest bytes = some table ∧
      decodeManifestTable table = .ok manifest := by
  unfold decodeCheckpointManifest at decoded
  split at decoded
  · cases decoded
  · split at decoded
    · cases decoded
    · rename_i table read
      exact ⟨table, read, decoded⟩

/-- A manifest that is read back has the anchor and the data file it was written with. -/
theorem decodeCheckpointManifest_encode {world : UInt64} {branch : BranchId}
    {anchor : CheckpointAnchor} {contentHash : UInt64} {schemas : List CheckpointSchema}
    {dataFile : FileName} {dataLength dataUncompressedLength : Nat} {dataCrc32c : UInt32}
    {compressed : Bool} {manifest : DecodedManifest}
    (lawful : ∀ table, formats.readCheckpointManifest (formats.buildCheckpointManifest table) =
      some table)
    (decoded : decodeCheckpointManifest formats (encodeCheckpointManifest formats world branch
      anchor contentHash schemas dataFile dataLength dataCrc32c dataUncompressedLength
      compressed) = .ok manifest) :
    manifest.anchor = anchor ∧ manifest.dataFile = dataFile := by
  obtain ⟨table, read, decoded⟩ := decodeCheckpointManifest_table formats decoded
  obtain rfl := Option.some.inj ((lawful _).symm.trans read)
  obtain ⟨same, file⟩ := decodeManifestTable_fields decoded
  exact ⟨same, (List.cons.inj (Option.some.inj file)).1.symm⟩

/-- The same check on the contents of a directory, nothing failing. -/
def verifiedPair (contents : DiskPath → Option ByteString) (checkpointDir : Directory)
    (manifestPath : DiskPath) (world : UInt64) (branch : BranchId) : Option VerifiedCheckpoint :=
  (contents manifestPath).bind fun bytes =>
    match readManifest formats world branch bytes with
    | .error _ => none
    | .ok manifest =>
      (contents (checkpointDir.file manifest.dataFile)).bind fun stored =>
        (verifyData formats manifest stored).toOption

end Codec

end GeoWorld.Persistence
