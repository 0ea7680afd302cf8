import Mathlib
import GeoWorld.Library.CrashDisk
import GeoWorld.Library.EffectProgram
import GeoWorld.WorldModel.Object

/-!
The narrow file interface of the durable store (`FileOps`), a machine that carries it
out, the ways its calls can fail, and atomic publication of a file.
A file handle is its path: no handle is used after its file was renamed. Directories
outlive crashes. The counter of temporary names belongs to the process.
-/

namespace GeoWorld.Persistence

open WorldModel Library

inductive PersistenceError where
  | none
  | recordInvalid
  | lsnDiscontinuity
  | checksumMismatch
  | segmentCorrupted
  | ioFailure
  | syncFailed
  | noSpaceOrPermission
  | queueFull
  | faultReadOnly
  | configInvalid
  | lsnOverflow
  | manifestInvalid
  | notFound
  | shuttingDown
  | relaxedNotAllowed
  | providerMissing
  | providerUnknown
  | providerVersionMismatch
  | checkpointInvalid
  | checkpointIncomplete
  deriving DecidableEq

/-- A log sequence number; zero is invalid. -/
abbrev Lsn := UInt64

def Lsn.valid (lsn : Lsn) : Prop := lsn ≠ 0

instance (lsn : Lsn) : Decidable lsn.valid :=
  inferInstanceAs (Decidable (lsn ≠ 0))

def firstLsn : Lsn := 1

def nextLsn (current : Lsn) : Option Lsn :=
  if ¬ current.valid ∨ current = UInt64.ofNat (UInt64.size - 1) then none else some (current + 1)

/-- The bytes of a branch. -/
abbrev BranchId := Vector UInt8 16

def BranchId.valid (branch : BranchId) : Prop := ∃ byte ∈ branch.toList, byte ≠ 0

instance (branch : BranchId) : Decidable branch.valid :=
  inferInstanceAs (Decidable (∃ byte ∈ branch.toList, byte ≠ 0))

abbrev FileName := List Char

abbrev Directory := List FileName

structure DiskPath where
  directory : Directory
  name : FileName
  deriving DecidableEq

def Directory.file (directory : Directory) (name : FileName) : DiskPath :=
  ⟨directory, name⟩

/-- The path from the root. -/
def DiskPath.components (path : DiskPath) : Directory :=
  path.directory ++ [path.name]

abbrev DiskPath.cmp : DiskPath → DiskPath → Ordering :=
  compareFields DiskPath.directory DiskPath.name

instance : Std.TransCmp DiskPath.cmp :=
  inferInstance

instance : Std.LawfulEqCmp DiskPath.cmp := by
  refine compareFields_lawful _ _ fun a b directory name => ?_
  cases a
  cases b
  simp_all

abbrev FileSystem := Disk DiskPath DiskPath.cmp

inductive FileOp where
  | openAppend (path : DiskPath)
  | createExclusive (path : DiskPath)
  | write (path : DiskPath) (data : ByteString)
  | sync (path : DiskPath)
  | renameFile (source target : DiskPath)
  | syncDirectory (directory : Directory)
  | truncateFile (path : DiskPath) (size : Nat)
  | removeFile (path : DiskPath)
  | createDirectories (directory : Directory)
  | readFile (path : DiskPath)
  | listFiles (directory : Directory)
  | listDirectories (directory : Directory)
  | nextTempCounter

/-- `PersistenceError` and `Result`; an opened file answers its size, the counter its new
value. -/
abbrev FileOp.Answer : FileOp → Type
  | .openAppend _ => Except PersistenceError Nat
  | .readFile _ => Except PersistenceError ByteString
  | .listFiles _ => Except PersistenceError (List DiskPath)
  | .listDirectories _ => Except PersistenceError (List Directory)
  | .nextTempCounter => Nat
  | _ => PersistenceError

abbrev FileProgram := Program FileOp FileOp.Answer

def ask (operation : FileOp) : FileProgram operation.Answer :=
  Program.perform operation

/-- A disk and the process on it. -/
structure Machine where
  disk : FileSystem := {}
  directories : List Directory := []
  tempCounter : Nat := 0

namespace Machine

def filesIn (machine : Machine) (directory : Directory) : List DiskPath :=
  machine.disk.live.keys.filter fun path => path.directory = directory

/-- A directory was created, or a file lies in it. -/
def hasDirectory (machine : Machine) (directory : Directory) : Bool :=
  machine.directories.contains directory || machine.filesIn directory ≠ []

theorem hasDirectory_of_contains {machine : Machine} {directory : Directory}
    (created : machine.directories.contains directory) : machine.hasDirectory directory := by
  rw [hasDirectory, created, Bool.true_or]

def directoriesIn (machine : Machine) (directory : Directory) : List Directory :=
  machine.directories.filter fun inner => inner ≠ [] ∧ inner.dropLast = directory

/-- A directory with all that it lies in. -/
def withParents (directory : Directory) : List Directory :=
  directory.inits.filter fun prefixed => prefixed ≠ []

def setDisk (machine : Machine) (disk : FileSystem) : Machine :=
  { machine with disk := disk }

/-- The call succeeds, as far as the disk lets it. -/
def perform : (operation : FileOp) → Machine → operation.Answer × Machine
  | .openAppend path, machine =>
    (match machine.disk.contents path with
      | none => .error .ioFailure
      | some bytes => .ok bytes.length, machine)
  | .createExclusive path, machine =>
    if (machine.disk.live[path]?).isSome then (.ioFailure, machine)
    else (.none, machine.setDisk (machine.disk.create path))
  | .write path data, machine => (.none, machine.setDisk (machine.disk.write path data))
  | .sync path, machine => (.none, machine.setDisk (machine.disk.sync path))
  | .renameFile source target, machine =>
    match machine.disk.rename source target with
    | none => (.ioFailure, machine)
    | some disk => (.none, machine.setDisk disk)
  | .syncDirectory directory, machine =>
    (.none, machine.setDisk (Disk.syncDirectory DiskPath.directory machine.disk directory))
  | .truncateFile path size, machine =>
    if (machine.disk.live[path]?).isSome then
      (.none, machine.setDisk (machine.disk.truncate path size))
    else (.ioFailure, machine)
  | .removeFile path, machine =>
    if (machine.disk.live[path]?).isSome then
      (.none, machine.setDisk (machine.disk.remove path))
    else (.none, machine)
  | .createDirectories directory, machine =>
    (.none, { machine with
      directories := machine.directories ++
        (withParents directory).filter fun made => !machine.directories.contains made })
  | .readFile path, machine =>
    (match machine.disk.contents path with
      | none => .error .notFound
      | some bytes => .ok bytes, machine)
  | .listFiles directory, machine =>
    (if machine.hasDirectory directory then .ok (machine.filesIn directory)
      else .error .notFound, machine)
  | .listDirectories directory, machine =>
    (if machine.hasDirectory directory then .ok (machine.directoriesIn directory)
      else .error .notFound, machine)
  | .nextTempCounter, machine =>
    (machine.tempCounter + 1, { machine with tempCounter := machine.tempCounter + 1 })

/-- An error that a failing system call is mapped to. -/
def IsFault (error : PersistenceError) : Prop :=
  error = .ioFailure ∨ error = .syncFailed ∨ error = .noSpaceOrPermission

/-- The call fails: it changes nothing, except that a write may leave a part. -/
def Fails (machine : Machine) : (operation : FileOp) → operation.Answer → Machine → Prop
  | .write path data, error, after => IsFault error ∧
    ∃ written, written <+: data ∧ after = machine.setDisk (machine.disk.write path written)
  | .openAppend _, answer, after => after = machine ∧ ∃ error, IsFault error ∧ answer = .error error
  | .readFile _, answer, after => after = machine ∧ ∃ error, IsFault error ∧ answer = .error error
  | .listFiles _, answer, after => after = machine ∧ ∃ error, IsFault error ∧ answer = .error error
  | .listDirectories _, answer, after =>
    after = machine ∧ ∃ error, IsFault error ∧ answer = .error error
  | .nextTempCounter, _, _ => False
  | .createExclusive _, error, after => after = machine ∧ IsFault error
  | .sync _, error, after => after = machine ∧ IsFault error
  | .renameFile _ _, error, after => after = machine ∧ IsFault error
  | .syncDirectory _, error, after => after = machine ∧ IsFault error
  | .truncateFile _ _, error, after => after = machine ∧ IsFault error
  | .removeFile _, error, after => after = machine ∧ IsFault error
  | .createDirectories _, error, after => after = machine ∧ IsFault error

/-- Listings come in no particular order. -/
def Succeeds (machine : Machine) (operation : FileOp) (answer : operation.Answer)
    (after : Machine) : Prop :=
  (answer, after) = perform operation machine ∨
  match operation, answer with
  | .listFiles directory, .ok files =>
    after = machine ∧ machine.hasDirectory directory ∧
      files.Perm (machine.filesIn directory)
  | .listDirectories directory, .ok found =>
    after = machine ∧ machine.hasDirectory directory ∧
      found.Perm (machine.directoriesIn directory)
  | _, _ => False

/-- Any call may succeed or fail. -/
def Allowed : Program.Environment FileOp FileOp.Answer Machine :=
  fun machine operation answer after =>
    Succeeds machine operation answer after ∨ Fails machine operation answer after

/-- A crash and a restart: the disk keeps what it kept, the process starts over. -/
def Restarts (machine after : Machine) : Prop :=
  machine.disk.CrashesTo after.disk ∧ after.directories = machine.directories ∧
    after.tempCounter = 0

/-- A machine with these directories and these safely stored files. -/
def holding (directories : List Directory) (files : List (DiskPath × ByteString)) : Machine where
  disk := Disk.ofFiles (Std.ExtTreeMap.ofList files DiskPath.cmp)
  directories := directories

theorem holding_durable (directories : List Directory) (files : List (DiskPath × ByteString))
    (path : DiskPath) :
    (holding directories files).disk.Durable path
      ((holding directories files).disk.contents path) := by
  have durable := Disk.ofFiles_durable (Std.ExtTreeMap.ofList files DiskPath.cmp) path
  exact durable.now.symm ▸ durable

theorem holding_listed {directories : List Directory} {files : List (DiskPath × ByteString)}
    {path : DiskPath} (found : (holding directories files).disk.contents path ≠ none) :
    path ∈ files.map Prod.fst := by
  have durable := Disk.ofFiles_durable (Std.ExtTreeMap.ofList files DiskPath.cmp) path
  have stored : (Std.ExtTreeMap.ofList files DiskPath.cmp)[path]? ≠ none := durable.now ▸ found
  by_contra missing
  exact stored (Std.ExtTreeMap.getElem?_ofList_of_contains_eq_false (by simpa using missing))

end Machine

def tempFilePrefix : FileName := ['t', 'm', 'p', '-']

/-- `std::to_string`. -/
def decimal (value : Nat) : FileName :=
  Nat.toDigits 10 value

def tempPath (finalPath : DiskPath) (counter : Nat) : DiskPath :=
  { finalPath with name := tempFilePrefix ++ finalPath.name ++ ['-'] ++ decimal counter }

/-- A step of a sequence that stops at the first error. -/
def afterNone (error : PersistenceError) (next : FileProgram PersistenceError) :
    FileProgram PersistenceError :=
  if error = .none then next else pure error

def atomicPublish (finalPath : DiskPath) (contents : ByteString) :
    FileProgram PersistenceError := do
  let counter ← ask .nextTempCounter
  let temp := tempPath finalPath counter
  let created ← ask (.createExclusive temp)
  if created ≠ .none then
    return created
  let error ← ask (.write temp contents)
  let error ← afterNone error (ask (.sync temp))
  let error ← afterNone error (ask (.renameFile temp finalPath))
  let error ← afterNone error (ask (.syncDirectory finalPath.directory))
  if error ≠ .none then
    let _ ← ask (.removeFile temp)
  return error

/-- The directories of one branch. -/
structure DurableLayout where
  root : Directory
  deriving DecidableEq

namespace DurableLayout

def walDir (layout : DurableLayout) : Directory := layout.root ++ ["wal".toList]

def manifestDir (layout : DurableLayout) : Directory := layout.root ++ ["manifests".toList]

def checkpointDir (layout : DurableLayout) : Directory := layout.root ++ ["checkpoints".toList]

def directoryManifestPath (layout : DurableLayout) : DiskPath :=
  layout.manifestDir.file "directory.gwmanifest".toList

end DurableLayout

def hexDigits : List Char := "0123456789abcdef".toList

def hexByte (byte : UInt8) : FileName :=
  [hexDigits.getD (byte.toNat / 16) '0', hexDigits.getD (byte.toNat % 16) '0']

def makeDurableLayout (durableRoot : Directory) (world : UInt64) (branch : BranchId) :
    DurableLayout :=
  ⟨durableRoot ++ ["world-".toList ++ decimal world.toNat,
    "branch-".toList ++ branch.toList.flatMap hexByte]⟩

end GeoWorld.Persistence
