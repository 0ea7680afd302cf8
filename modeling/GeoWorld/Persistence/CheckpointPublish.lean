import Mathlib
import GeoWorld.Persistence.Branch

/-!
Publication of a checkpoint: the data file first, its manifest as the commit point, then
the check of the published pair and only then retention, which removes the oldest
checkpoints that no branch is based on, and the pruning of covered log segments.
-/

namespace GeoWorld.Persistence

open WorldModel Library

structure CheckpointConfig where
  layout : DurableLayout
  world : UInt64
  branch : BranchId
  keepLastCheckpoints : Nat := 2
  pruneWalAfterPublish : Bool := false
  compressionEnabled : Bool := true
  compressionLevel : Int := 3
  compressionMinimumBytes : Nat := 64 * 1024

def CheckpointConfig.loader (config : CheckpointConfig) : CheckpointLoader where
  layout := config.layout
  world := config.world
  branch := config.branch

/-- A provider, as far as publication uses it. -/
structure CheckpointProvider (φ : Type) where
  schema : CheckpointSchema
  encode : φ → CheckpointBlock

structure CapturedCheckpoint (φ : Type) where
  anchor : CheckpointAnchor
  frozen : List φ
  schemas : List CheckpointSchema

structure PublishedCheckpoint where
  anchor : CheckpointAnchor
  checkpointContentHash : UInt64
  manifestPath : DiskPath
  dataLength : Nat

def checkpointFileStem (completedTick : UInt64) (generation : FileName) : FileName :=
  checkpointPrefix ++ paddedDecimal completedTick.toNat ++
    if generation = [] then [] else '-' :: generation

section Prune

/-- A log file by its name: the first LSN of a closed segment. -/
def closedSegment (path : DiskPath) : Option (Lsn × DiskPath) :=
  if activeSegmentSuffix.isSuffixOf path.name then none
  else if segmentExtension.isSuffixOf path.name then
    (parseSegmentFileName (path.name.rdrop segmentExtension.length)).map fun first => (first, path)
  else none

/-- The first LSN of the active segment listed last. -/
def activeFirst (files : List DiskPath) : Option Lsn :=
  (files.filter fun path => activeSegmentSuffix.isSuffixOf path.name).getLast?.bind fun path =>
    parseSegmentFileName (path.name.rdrop activeSegmentSuffix.length)

/-- Where the segment before these ends, as the next one shows it. -/
def nextFirst (active : Option Lsn) : List (Lsn × DiskPath) → Option Lsn
  | [] => active
  | (first, _) :: _ => some first

/-- The last LSN of the segment before these is covered; without a next one it is unknown. -/
def isCovered (active : Option Lsn) (includedLsn : Lsn) (rest : List (Lsn × DiskPath)) : Bool :=
  match nextFirst active rest with
  | none => false
  | some next => decide (0 < next ∧ next - 1 ≤ includedLsn)

def coveredSegments (active : Option Lsn) (includedLsn : Lsn) : List (Lsn × DiskPath) → List DiskPath
  | [] => []
  | (_, path) :: rest =>
    if isCovered active includedLsn rest then path :: coveredSegments active includedLsn rest
    else coveredSegments active includedLsn rest

/-- The files in turn; the number of those that were removed. -/
def removeFiles : List DiskPath → FileProgram Nat
  | [] => pure 0
  | path :: rest => do
    let error ← ask (.removeFile path)
    let removed ← removeFiles rest
    return if error = .none then removed + 1 else removed

def sortedByFirst {α β : Type} [LE α] [DecidableLE α] (entries : List (α × β)) : List (α × β) :=
  entries.insertionSort fun left right => decide (left.1 ≤ right.1)

def pruneCoveredSegments (walDir : Directory) (includedLsn : Lsn) : FileProgram Nat := do
  if ¬ includedLsn.valid then
    return 0
  let listed ← ask (.listFiles walDir)
  match listed with
  | .error _ => return 0
  | .ok files =>
    removeFiles (coveredSegments (activeFirst files) includedLsn
      (sortedByFirst (files.filterMap closedSegment)))

end Prune

section Retention

variable (formats : Formats)

def branchPrefix : FileName := "branch-".toList

/-- The base checkpoints that the branch manifests of these directories name. -/
def readPins : List Directory → FileProgram (Except PersistenceError (List Directory))
  | [] => pure (.ok [])
  | branchRoot :: rest => do
    if branchPrefix.isPrefixOf (branchRoot.getLastD []) then
      let manifest ← loadBranchManifest formats (branchManifestPath ⟨branchRoot⟩)
      match manifest with
      | .error error =>
        if error ≠ .notFound then
          return .error error
        readPins rest
      | .ok manifest =>
        let later ← readPins rest
        return later.map (lexicallyNormal manifest.baseCheckpoint :: ·)
    else
      readPins rest

def pinnedCheckpoints (layout : DurableLayout) :
    FileProgram (Except PersistenceError (List Directory)) := do
  let branches ← ask (.listDirectories layout.root.dropLast)
  match branches with
  | .error error => return .error error
  | .ok branches => readPins formats branches

/-- The manifests that the loop of retention removes: while there are too many, the first
removable one. -/
def retentionVictims (removable : DiskPath → Bool) (keep : Nat) :
    Nat → List (UInt64 × DiskPath) → List DiskPath
  | 0, _ => []
  | fuel + 1, manifests =>
    if manifests.length ≤ keep then []
    else match manifests.find? fun candidate => removable candidate.2 with
      | none => []
      | some oldest =>
        oldest.2 :: retentionVictims removable keep fuel (manifests.erase oldest)

/-- A checkpoint goes with its data, which is only known from a manifest that passes. -/
def removeCheckpoint (config : CheckpointConfig) (oldest : DiskPath) : FileProgram Unit := do
  let verified ← verifyCheckpointPair formats config.layout.checkpointDir oldest config.world
    config.branch
  match verified with
  | .error _ => pure ()
  | .ok verified =>
    let _ ← ask (.removeFile (config.layout.checkpointDir.file verified.manifest.dataFile))
  let _ ← ask (.removeFile oldest)

def removeCheckpoints (config : CheckpointConfig) : List DiskPath → FileProgram Unit
  | [] => pure ()
  | oldest :: rest => do
    removeCheckpoint formats config oldest
    removeCheckpoints config rest

def manifestEntry (path : DiskPath) : Option (UInt64 × DiskPath) :=
  (parseManifestTick path.name).map fun tick => (tick, path)

def isRemovable (manifestPath : DiskPath) (pinned : List Directory) (candidate : DiskPath) : Bool :=
  lexicallyNormal candidate.components ≠ lexicallyNormal manifestPath.components &&
    !pinned.contains (lexicallyNormal candidate.components)

def retention (config : CheckpointConfig) (manifestPath : DiskPath) : FileProgram Unit := do
  let listed ← ask (.listFiles config.layout.checkpointDir)
  match listed with
  | .error _ => pure ()
  | .ok files =>
    let manifests := sortedByFirst (files.filterMap manifestEntry)
    let pinned ← pinnedCheckpoints formats config.layout
    match pinned with
    | .error _ => pure ()
    | .ok pinned =>
      removeCheckpoints formats config (retentionVictims (isRemovable manifestPath pinned)
        config.keepLastCheckpoints manifests.length manifests)

end Retention

section Publish

variable {φ : Type} (formats : Formats)

def encodeBlock (registry : List (CheckpointProvider φ)) (schema : CheckpointSchema) (frozen : φ) :
    Except PersistenceError CheckpointBlock :=
  match registry.find? fun provider => provider.schema.providerId = schema.providerId with
  | none => .error .providerMissing
  | some provider =>
    let block := provider.encode frozen
    if block.schema ≠ schema then .error .checkpointInvalid else .ok block

def encodeBlocks (registry : List (CheckpointProvider φ)) (captured : CapturedCheckpoint φ) :
    Except PersistenceError (List CheckpointBlock) :=
  (captured.schemas.zip captured.frozen).mapM fun entry => encodeBlock registry entry.1 entry.2

/-- The data as stored, and whether it is compressed. -/
def packData (config : CheckpointConfig) (uncompressed : ByteString) : ByteString × Bool :=
  if config.compressionEnabled ∧ config.compressionMinimumBytes ≤ uncompressed.length ∧
      formats.minCompressionLevel ≤ config.compressionLevel ∧
      config.compressionLevel ≤ formats.maxCompressionLevel then
    match formats.compress config.compressionLevel uncompressed with
    | none => (uncompressed, false)
    | some candidate =>
      if candidate.length < uncompressed.length then (candidate, true) else (uncompressed, false)
  else (uncompressed, false)

/-- The two files of a checkpoint, with its content hash. -/
structure CheckpointFiles where
  contentHash : UInt64
  dataPath : DiskPath
  data : ByteString
  manifestPath : DiskPath
  manifest : ByteString

def checkpointFiles (config : CheckpointConfig) (captured : CapturedCheckpoint φ)
    (generation : FileName) (blocks : List CheckpointBlock) : CheckpointFiles :=
  let contentHash := authoritativeCheckpointHash blocks
  let uncompressed := encodeWorldCheckpoint formats config.world config.branch captured.anchor
    contentHash blocks
  let packed := packData formats config uncompressed
  let stem := checkpointFileStem captured.anchor.completedTick generation
  let dataName := stem ++ checkpointDataExtension ++ if packed.2 then ".zst".toList else []
  { contentHash := contentHash
    dataPath := config.layout.checkpointDir.file dataName
    data := packed.1
    manifestPath := config.layout.checkpointDir.file (stem ++ checkpointManifestExtension)
    manifest := encodeCheckpointManifest formats config.world config.branch captured.anchor
      contentHash captured.schemas dataName packed.1.length (formats.crc32c packed.1)
      uncompressed.length packed.2 }

/-- Data, then manifest; without its manifest the data is taken back. -/
def publishFiles (files : CheckpointFiles) : FileProgram PersistenceError := do
  let error ← atomicPublish files.dataPath files.data
  if error ≠ .none then
    return error
  let error ← atomicPublish files.manifestPath files.manifest
  if error ≠ .none then
    let _ ← ask (.removeFile files.dataPath)
  return error

/-- `CheckpointCoordinator::publish`; the generation is the random part of the names. -/
def publish (config : CheckpointConfig) (registry : List (CheckpointProvider φ))
    (generation : FileName) (captured : CapturedCheckpoint φ) :
    FileProgram (Except PersistenceError PublishedCheckpoint) := do
  let error ← ask (.createDirectories config.layout.checkpointDir)
  if error ≠ .none then
    return .error error
  match encodeBlocks registry captured with
  | .error error => return .error error
  | .ok blocks =>
    let files := checkpointFiles formats config captured generation blocks
    let error ← publishFiles files
    if error ≠ .none then
      return .error error
    let verified ← verifyCheckpointPair formats config.layout.checkpointDir files.manifestPath
      config.world config.branch
    match verified with
    | .error error => return .error error
    | .ok _ =>
      retention formats config files.manifestPath
      if config.pruneWalAfterPublish then
        let _ ← pruneCoveredSegments config.layout.walDir captured.anchor.includedLsn
      return .ok ⟨captured.anchor, files.contentHash, files.manifestPath, files.data.length⟩

end Publish

end GeoWorld.Persistence
