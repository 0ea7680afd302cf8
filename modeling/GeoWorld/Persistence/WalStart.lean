import Mathlib
import GeoWorld.Persistence.WalReader

/-!
Start of the log writer: the directories of the branch, the directory manifest that fixes
whose directory it is, and the scan that finds where the log goes on.
-/

namespace GeoWorld.Persistence

open WorldModel Library

def directoryManifestFormatVersion : Nat := 1

structure DirectoryManifest where
  formatVersion : Nat := directoryManifestFormatVersion
  world : UInt64
  branch : BranchId
  deriving DecidableEq

def manifestMagic : ByteString := asciiBytes "GWDM".toList

def manifestBodyBytes : Nat := 4 + 4 + 8 + 16

def manifestTotalBytes : Nat := manifestBodyBytes + 4

section Manifest

variable (crc32c : ByteString → UInt32)

def manifestBody (manifest : DirectoryManifest) : ByteString :=
  manifestMagic ++ bytesLE 4 manifest.formatVersion ++ bytesLE 8 manifest.world.toNat ++
    manifest.branch.toList

def encodeManifest (manifest : DirectoryManifest) : ByteString :=
  manifestBody manifest ++ bytesLE 4 (crc32c (manifestBody manifest)).toNat

def decodeManifest (bytes : ByteString) : Except PersistenceError DirectoryManifest :=
  if bytes.length ≠ manifestTotalBytes then .error .manifestInvalid
  else if bytes.take manifestMagic.length ≠ manifestMagic then .error .manifestInvalid
  else if readLE 4 manifestBodyBytes bytes ≠ (crc32c (bytes.take manifestBodyBytes)).toNat then
    .error .checksumMismatch
  else
    let manifest : DirectoryManifest := {
      formatVersion := readLE 4 4 bytes
      world := UInt64.ofNat (readLE 8 8 bytes)
      branch := Vector.ofFn fun index => bytes.getD (16 + index.val) 0 }
    if manifest.formatVersion ≠ directoryManifestFormatVersion then .error .manifestInvalid
    else if manifest.world = 0 ∨ ¬ manifest.branch.valid then .error .manifestInvalid
    else .ok manifest

@[simp] theorem manifestBody_length (manifest : DirectoryManifest) :
    (manifestBody manifest).length = manifestBodyBytes := by
  simp [manifestBody, manifestMagic, asciiBytes, manifestBodyBytes]

@[simp] theorem manifestMagic_length : manifestMagic.length = 4 := by
  simp [manifestMagic, asciiBytes]

/-- A written manifest is read back. -/
theorem decodeManifest_encode {manifest : DirectoryManifest}
    (current : manifest.formatVersion = directoryManifestFormatVersion)
    (known : manifest.world ≠ 0) (valid : manifest.branch.valid) :
    decodeManifest crc32c (encodeManifest crc32c manifest) = .ok manifest := by
  obtain ⟨crc, checked⟩ : ∃ crc, (crc32c (manifestBody manifest)).toNat = crc := ⟨_, rfl⟩
  have small : crc < 256 ^ 4 := checked ▸ UInt32.toNat_lt _
  obtain ⟨bytes, encoded⟩ : ∃ bytes, encodeManifest crc32c manifest = bytes := ⟨_, rfl⟩
  have whole : bytes = manifestBody manifest ++ (bytesLE 4 crc ++ []) := by
    simp [← encoded, ← checked, encodeManifest]
  have fields : bytes = manifestMagic ++ (bytesLE 4 manifest.formatVersion ++
      (bytesLE 8 manifest.world.toNat ++ (manifest.branch.toList ++ bytesLE 4 crc))) := by
    simp [whole, manifestBody, List.append_assoc]
  have length : bytes.length = manifestTotalBytes := by
    simp [whole, manifestTotalBytes]
  have lead : bytes.take manifestMagic.length = manifestMagic := by
    rw [fields, List.take_left]
  have head : bytes.take manifestBodyBytes = manifestBody manifest := by
    rw [whole, ← manifestBody_length manifest, List.take_left]
  have checksum : readLE 4 manifestBodyBytes bytes = crc := by
    rw [whole, ← manifestBody_length manifest]
    exact readLE_bytesLE _ _ small
  have version : readLE 4 4 bytes = manifest.formatVersion := by
    rw [fields, ← manifestMagic_length]
    exact readLE_bytesLE _ _ (by rw [current]; decide)
  have owner : readLE 8 8 bytes = manifest.world.toNat := by
    have start : (manifestMagic ++ bytesLE 4 manifest.formatVersion).length = 8 := by simp
    rw [fields, ← List.append_assoc]
    nth_rewrite 2 [← start]
    exact readLE_bytesLE _ _ manifest.world.toNat_lt
  have named : (Vector.ofFn fun index : Fin 16 => bytes.getD (16 + index.val) 0) =
      manifest.branch := by
    ext index inside
    have start : (manifestMagic ++ (bytesLE 4 manifest.formatVersion ++
        bytesLE 8 manifest.world.toNat)).length = 16 := by simp
    have shape : bytes = (manifestMagic ++ (bytesLE 4 manifest.formatVersion ++
        bytesLE 8 manifest.world.toNat)) ++ (manifest.branch.toList ++ bytesLE 4 crc) := by
      simp [fields, List.append_assoc]
    have field : bytes[16 + index]? = some manifest.branch[index] := by
      rw [shape, List.getElem?_append_right (by omega), start, Nat.add_sub_cancel_left,
        List.getElem?_append_left (by simpa using inside)]
      simp
    simp [List.getD_eq_getElem?_getD, field]
  rw [encoded]
  unfold decodeManifest
  simp only [length, lead, head, checksum, checked, version, owner, named, current,
    UInt64.ofNat_toNat, known, valid, ne_eq, not_true_eq_false, if_false, or_self]
  rw [← current]

def loadDirectoryManifest (manifestPath : DiskPath) :
    FileProgram (Except PersistenceError DirectoryManifest) := do
  let read ← ask (.readFile manifestPath)
  match read with
  | .error error => return .error error
  | .ok bytes => return decodeManifest crc32c bytes

def publishDirectoryManifest (manifestPath : DiskPath) (manifest : DirectoryManifest) :
    FileProgram PersistenceError :=
  atomicPublish manifestPath (encodeManifest crc32c manifest)

end Manifest

/-- `WalConfig` without its time limits. -/
structure WalConfig where
  durableRoot : Directory
  world : UInt64
  branch : BranchId
  queueMaxRecords : Nat := 4096
  queueMaxBytes : Nat := 64 * 1024 * 1024
  groupCommitMaxRecords : Nat := 256
  groupCommitMaxBytes : Nat := 4 * 1024 * 1024
  segmentMaxBytes : Nat := 64 * 1024 * 1024
  maxRecordBytes : Nat := 4 * 1024 * 1024
  allowRelaxed : Bool := false
  recoveryFloorLsn : Lsn := 0

/-- What `start` accepts. -/
structure WalConfig.Valid (config : WalConfig) : Prop where
  world : config.world ≠ 0
  branch : config.branch.valid
  durableRoot : config.durableRoot ≠ []
  groupCommitMaxRecords : config.groupCommitMaxRecords ≠ 0
  groupCommitMaxBytes : config.groupCommitMaxBytes ≠ 0
  queueMaxRecords : config.queueMaxRecords ≠ 0
  queueMaxBytes : config.queueMaxBytes ≠ 0
  maxRecordBytes : config.maxRecordBytes ≠ 0
  segmentMaxBytes : config.maxRecordBytes ≤ config.segmentMaxBytes

theorem WalConfig.valid_iff (config : WalConfig) : config.Valid ↔
    config.world ≠ 0 ∧ config.branch.valid ∧ config.durableRoot ≠ [] ∧
      config.groupCommitMaxRecords ≠ 0 ∧ config.groupCommitMaxBytes ≠ 0 ∧
      config.queueMaxRecords ≠ 0 ∧ config.queueMaxBytes ≠ 0 ∧ config.maxRecordBytes ≠ 0 ∧
      config.maxRecordBytes ≤ config.segmentMaxBytes :=
  ⟨fun valid => ⟨valid.1, valid.2, valid.3, valid.4, valid.5, valid.6, valid.7, valid.8, valid.9⟩,
    fun ⟨a, b, c, d, e, f, g, h, i⟩ => ⟨a, b, c, d, e, f, g, h, i⟩⟩

instance (config : WalConfig) : Decidable config.Valid :=
  decidable_of_iff' _ config.valid_iff

def WalConfig.layout (config : WalConfig) : DurableLayout :=
  makeDurableLayout config.durableRoot config.world config.branch

structure ActiveSegment where
  path : DiskPath
  firstLsn : Lsn
  bytes : Nat
  deriving DecidableEq

/-- What the writer thread works on. -/
structure WalWriter where
  started : Bool := false
  fault : Bool := false
  lsnExhausted : Bool := false
  lastDurable : Lsn := 0
  nextLsnValue : Lsn := firstLsn
  activeSegment : Option ActiveSegment := none
  unsyncedWrites : Bool := false
  deriving DecidableEq

/-- The scan result against the recovery floor, which alone may move the start of an empty
log. The flag says that no LSN is left. -/
def floorScan (config : WalConfig) (scan : WalScanResult) :
    Except PersistenceError (WalScanResult × Bool) :=
  if config.recoveryFloorLsn.valid then
    match nextLsn config.recoveryFloorLsn with
    | none => .ok (scan, true)
    | some afterFloor =>
      if scan.firstLsn.valid ∧ afterFloor < scan.firstLsn then .error .lsnDiscontinuity
      else if ¬ scan.nextLsn.valid then .ok ({ scan with nextLsn := afterFloor }, false)
      else .ok (scan, false)
  else .ok (scan, false)

/-- The LSN position a scan leaves the writer with. -/
def WalWriter.positioned (scan : WalScanResult) (exhausted : Bool) : WalWriter where
  nextLsnValue := if scan.nextLsn.valid then scan.nextLsn else firstLsn
  lsnExhausted := exhausted ∨ scan.lastLsn.valid ∧ ¬ scan.nextLsn.valid
  lastDurable := if scan.lastLsn.valid then scan.lastLsn else 0

/-- Appending to the active segment goes on; an empty one gets its header again. -/
def openActive (writer : WalWriter) (path : DiskPath) :
    FileProgram (PersistenceError × WalWriter) := do
  let opened ← ask (.openAppend path)
  match opened with
  | .error error => return (error, writer)
  | .ok size =>
    let first := (parseSegmentFileName (path.name.rdrop activeSegmentSuffix.length)).getD
      writer.nextLsnValue
    if size = 0 then
      let header := encodeSegmentHeader first
      let error ← ask (.write path header)
      return (error, { writer with
        activeSegment := some ⟨path, first, if error = .none then header.length else 0⟩ })
    else
      return (.none, { writer with activeSegment := some ⟨path, first, size⟩ })

section Start

variable (crc32c : ByteString → UInt32)

/-- The manifest freezes the identity: a missing one is published, another must match. -/
def freezeIdentity (config : WalConfig) : FileProgram PersistenceError := do
  let manifestPath := config.layout.directoryManifestPath
  let manifest ← loadDirectoryManifest crc32c manifestPath
  match manifest with
  | .error .notFound =>
    publishDirectoryManifest crc32c manifestPath { world := config.world, branch := config.branch }
  | .error error => return error
  | .ok manifest =>
    return if manifest.world ≠ config.world ∨ manifest.branch ≠ config.branch then .configInvalid
      else .none

def prepareDirectory (config : WalConfig) : FileProgram PersistenceError := do
  let layout := config.layout
  let error ← ask (.createDirectories layout.walDir)
  let error ← afterNone error (ask (.createDirectories layout.manifestDir))
  let error ← afterNone error (ask (.createDirectories layout.checkpointDir))
  afterNone error (freezeIdentity crc32c config)

def WalWriter.start (config : WalConfig) : FileProgram (PersistenceError × WalWriter) := do
  if ¬ config.Valid then
    return (.configInvalid, {})
  let error ← prepareDirectory crc32c config
  if error ≠ .none then
    return (error, {})
  let scan ← scanWalDirectory crc32c config.maxRecordBytes config.layout.walDir .trimActiveTail
    (if config.recoveryFloorLsn.valid then 0 else firstLsn)
  if scan.error ≠ .none then
    return (scan.error, {})
  match floorScan config scan with
  | .error error => return (error, {})
  | .ok (scan, exhausted) =>
    let writer := WalWriter.positioned scan exhausted
    let (error, writer) ← match scan.activeSegment with
      | none => pure (.none, writer)
      | some path => openActive writer path
    return (error, { writer with started := error = .none })

end Start

end GeoWorld.Persistence
