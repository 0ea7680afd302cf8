import Mathlib
import GeoWorld.Persistence.CheckpointLoader
import GeoWorld.Persistence.WalReader

/-!
Branch manifests, the fork of a branch at a checkpoint of its parent, and the plan of a
recovery: the checkpoint to start from, of the branch or else of its parent, and the log
records behind it.
-/

namespace GeoWorld.Persistence

open WorldModel Library

def currentComponent : FileName := ['.']

def parentComponent : FileName := ['.', '.']

def rootComponent : FileName := ['/']

/-- One more component behind the reversed components so far. -/
def normalStep (front : Directory) (component : FileName) : Directory :=
  if component = [] ∨ component = currentComponent then front
  else if component = parentComponent then
    match front with
    | [] => [component]
    | last :: rest =>
      if last = parentComponent then component :: front
      else if last = rootComponent then front
      else rest
  else component :: front

/-- `lexically_normal` of a path given by its components. -/
def lexicallyNormal (path : Directory) : Directory :=
  (path.foldl normalStep []).reverse

structure BranchManifestData where
  world : UInt64
  branch : BranchId
  parentBranch : BranchId
  forkTick : UInt64
  forkLsn : Lsn
  baseCheckpoint : Directory
  overlayWal : Directory
  sideEffectsEnabled : Bool := false
  deriving DecidableEq

def branchManifestPath (layout : DurableLayout) : DiskPath :=
  layout.manifestDir.file "branch.gwbm".toList

section Branch

variable (formats : Formats)

def encodeBranchManifest (manifest : BranchManifestData) : ByteString :=
  formats.buildBranchManifest {
    formatVersion := 1
    worldId := manifest.world
    branchId := some manifest.branch.toList
    parentBranchId := some manifest.parentBranch.toList
    forkTick := manifest.forkTick
    forkLsn := manifest.forkLsn
    baseCheckpoint := some manifest.baseCheckpoint
    overlayWal := some manifest.overlayWal
    sideEffectsEnabled := manifest.sideEffectsEnabled }

def decodeBranchManifest (bytes : ByteString) : Except PersistenceError BranchManifestData :=
  match formats.readBranchManifest bytes with
  | none => .error .manifestInvalid
  | some table =>
    match fromBranchBytes table.branchId, fromBranchBytes table.parentBranchId,
      table.baseCheckpoint, table.overlayWal with
    | some branch, some parentBranch, some baseCheckpoint, some overlayWal =>
      if table.formatVersion ≠ 1 ∨ table.worldId = 0 ∨ ¬ branch.valid ∨ ¬ parentBranch.valid ∨
          baseCheckpoint = [] ∨ overlayWal = [] then .error .manifestInvalid
      else .ok {
        world := table.worldId
        branch := branch
        parentBranch := parentBranch
        forkTick := table.forkTick
        forkLsn := table.forkLsn
        baseCheckpoint := baseCheckpoint
        overlayWal := overlayWal
        sideEffectsEnabled := table.sideEffectsEnabled }
    | _, _, _, _ => .error .manifestInvalid

/-- A complete branch manifest is read back as it was written. -/
theorem decodeBranchManifest_encode {manifest : BranchManifestData}
    (lawful : ∀ table, formats.readBranchManifest (formats.buildBranchManifest table) = some table)
    (world : manifest.world ≠ 0) (branch : manifest.branch.valid)
    (parentBranch : manifest.parentBranch.valid) (baseCheckpoint : manifest.baseCheckpoint ≠ [])
    (overlayWal : manifest.overlayWal ≠ []) :
    decodeBranchManifest formats (encodeBranchManifest formats manifest) = .ok manifest := by
  have bytes : ∀ branch : BranchId, fromBranchBytes (some branch.toList) = some branch := by
    intro branch
    cases branch with
    | mk data size => simp [fromBranchBytes, Vector.toList, size]
  unfold decodeBranchManifest encodeBranchManifest
  rw [lawful]
  simp [bytes, world, branch, parentBranch, baseCheckpoint, overlayWal]

def loadBranchManifest (path : DiskPath) :
    FileProgram (Except PersistenceError BranchManifestData) := do
  let read ← ask (.readFile path)
  match read with
  | .error error => return .error error
  | .ok bytes => return decodeBranchManifest formats bytes

def publishBranchManifest (layout : DurableLayout) (manifest : BranchManifestData) :
    FileProgram (Except PersistenceError DiskPath) := do
  if manifest.world = 0 ∨ ¬ manifest.branch.valid ∨ ¬ manifest.parentBranch.valid ∨
      manifest.baseCheckpoint = [] ∨ manifest.overlayWal = [] then
    return .error .configInvalid
  let error ← ask (.createDirectories layout.manifestDir)
  if error ≠ .none then
    return .error error
  let error ← atomicPublish (branchManifestPath layout) (encodeBranchManifest formats manifest)
  return if error = .none then .ok (branchManifestPath layout) else .error error

/-- The checkpoint of the given tick, or else the latest. -/
def selectCheckpoint (checkpointTick : Option UInt64) (checkpoints : List CheckpointInfo) :
    Option CheckpointInfo :=
  match checkpointTick with
  | some tick => checkpoints.find? fun candidate => candidate.anchor.completedTick = tick
  | none => checkpoints.getLast?

def forkManifest (childLayout : DurableLayout) (world : UInt64) (parent child : BranchId)
    (selected : CheckpointInfo) : BranchManifestData where
  world := world
  branch := child
  parentBranch := parent
  forkTick := selected.anchor.completedTick
  forkLsn := selected.anchor.includedLsn
  baseCheckpoint := selected.manifestPath.components
  overlayWal := childLayout.walDir

def forkBranchAtCheckpoint (parentLayout childLayout : DurableLayout) (world : UInt64)
    (parent child : BranchId) (checkpointTick : Option UInt64) :
    FileProgram (Except PersistenceError BranchManifestData) := do
  if world = 0 ∨ ¬ parent.valid ∨ ¬ child.valid ∨ parent = child then
    return .error .configInvalid
  let checkpoints ← listValid formats ⟨parentLayout, world, parent⟩
  match checkpoints with
  | .error error => return .error error
  | .ok checkpoints =>
    match selectCheckpoint checkpointTick checkpoints with
    | none => return .error .notFound
    | some selected =>
      let created ← ask (.createDirectories childLayout.walDir)
      if created ≠ .none then
        return .error created
      let manifest := forkManifest childLayout world parent child selected
      let published ← publishBranchManifest formats childLayout manifest
      match published with
      | .error error => return .error error
      | .ok _ => return .ok manifest

end Branch

structure RecoveryPlan where
  checkpoint : Option LoadedCheckpoint := none
  replayRecords : List ScannedRecord := []
  lastLsn : Lsn := 0

section Planner

variable (formats : Formats)

/-- The base checkpoint of a branch that has none of its own. -/
def branchBase (loader : CheckpointLoader) :
    FileProgram (Except PersistenceError (Option LoadedCheckpoint)) := do
  let manifest ← loadBranchManifest formats (branchManifestPath loader.layout)
  match manifest with
  | .error error => return if error = .notFound then .ok none else .error error
  | .ok manifest =>
    if manifest.world ≠ loader.world ∨ manifest.branch ≠ loader.branch then
      return .error .manifestInvalid
    let parentLoader : CheckpointLoader :=
      ⟨⟨manifest.baseCheckpoint.dropLast.dropLast⟩, loader.world, manifest.parentBranch⟩
    let checkpoints ← listValid formats parentLoader
    match checkpoints with
    | .error error => return .error error
    | .ok checkpoints =>
      let selected := checkpoints.find? fun candidate =>
        lexicallyNormal candidate.manifestPath.components = lexicallyNormal manifest.baseCheckpoint
      match selected with
      | none => return .error .checkpointInvalid
      | some selected =>
        if selected.anchor.completedTick ≠ manifest.forkTick ∨
            selected.anchor.includedLsn ≠ manifest.forkLsn then
          return .error .checkpointInvalid
        let loaded ← load formats parentLoader selected
        return loaded.map some

/-- The checkpoint a recovery starts from, if there is any. -/
def recoveryBase (loader : CheckpointLoader) :
    FileProgram (Except PersistenceError (Option LoadedCheckpoint)) := do
  let latest ← latestValid formats loader
  match latest with
  | .ok latest =>
    let loaded ← load formats loader latest
    return loaded.map some
  | .error error =>
    if error ≠ .notFound then
      return .error error
    branchBase formats loader

/-- The records of a scan behind what a checkpoint includes. -/
def planReplay (checkpoint : Option LoadedCheckpoint) (scan : WalScanResult) :
    Except PersistenceError RecoveryPlan :=
  let includedLsn := match checkpoint with
    | none => 0
    | some loaded => loaded.info.anchor.includedLsn
  let firstRequired := if includedLsn = 0 then some firstLsn else nextLsn includedLsn
  let gap := checkpoint.isSome && decide scan.firstLsn.valid &&
    match firstRequired with
    | none => true
    | some required => decide (required < scan.firstLsn)
  if scan.error ≠ .none then .error scan.error
  else if gap then .error .lsnDiscontinuity
  else if scan.lastLsn.valid ∧ scan.lastLsn < includedLsn then .error .lsnDiscontinuity
  else .ok {
    checkpoint := checkpoint
    replayRecords := scan.records.filter fun record => includedLsn < record.lsn
    lastLsn := scan.lastLsn }

/-- `RecoveryPlanner::build`; the scan of the log keeps its default record limit. -/
def buildRecoveryPlan (loader : CheckpointLoader) (tailPolicy : TailPolicy) :
    FileProgram (Except PersistenceError RecoveryPlan) := do
  let base ← recoveryBase formats loader
  match base with
  | .error error => return .error error
  | .ok checkpoint =>
    let scan ← scanWalDirectory formats.crc32c (4 * 1024 * 1024) loader.layout.walDir tailPolicy
      (if checkpoint.isSome then 0 else firstLsn)
    return planReplay checkpoint scan

end Planner

end GeoWorld.Persistence
