import Mathlib
import GeoWorld.Library.EffectProgram
import GeoWorld.Persistence.Branch
import GeoWorld.Persistence.WalScan

/-!
What a recovery reads. On two machines that hold the same files under the names seen, the
search for checkpoints, the scan of the log and the choice of a base answer alike.
-/

namespace GeoWorld.Persistence

open WorldModel Library

/-- Two machines on which the files of these names are the same. -/
def AgreeOn (seen : DiskPath → Prop) (one other : Machine) : Prop :=
  ∀ path, seen path → one.disk.contents path = other.disk.contents path

theorem AgreeOn.symm {seen : DiskPath → Prop} {one other : Machine}
    (agree : AgreeOn seen one other) : AgreeOn seen other one :=
  fun path sees => (agree path sees).symm

/-- All files of a directory are among the names. -/
def SeesIn (seen : DiskPath → Prop) (directory : Directory) : Prop :=
  ∀ path : DiskPath, path.directory = directory → seen path

section Reading

variable {seen : DiskPath → Prop} {formats : Formats}

/-- Files are listed in the order of their names, whatever was written first. -/
theorem filesIn_agree {one other : Machine} {directory : Directory}
    (agree : AgreeOn seen one other) (sees : SeesIn seen directory) :
    one.filesIn directory = other.filesIn directory := by
  have members : ∀ path, path ∈ one.filesIn directory ↔ path ∈ other.filesIn directory := by
    intro path
    rw [mem_filesIn, mem_filesIn]
    by_cases inside : path.directory = directory
    · rw [agree path (sees path inside)]
    · simp [inside]
  have ordered : ∀ machine : Machine, (machine.filesIn directory).Pairwise fun left right =>
      DiskPath.cmp left right = .lt :=
    fun machine => Std.ExtTreeMap.ordered_keys.filter _
  have same : (one.filesIn directory).Perm (other.filesIn directory) :=
    (List.perm_ext_iff_of_nodup (filesIn_nodup one directory) (filesIn_nodup other directory)).mpr
      members
  refine same.eq_of_pairwise (fun left right _ _ before after => ?_) (ordered one) (ordered other)
  have both := Std.OrientedCmp.gt_of_lt before
  rw [after] at both
  cases both

/-- A program that answers alike on machines with the same files under the names seen. -/
abbrev ReadsAlike {α : Type} (seen : DiskPath → Prop) (known : α → Prop)
    (program : FileProgram α) : Prop :=
  Program.Alike Machine.perform (AgreeOn seen) known program

theorem readFile_alike {path : DiskPath} (sees : seen path) :
    ReadsAlike seen (fun _ => True) (ask (.readFile path)) := by
  refine .perform fun one other agree => ⟨?_, agree⟩
  simp only [Machine.perform]
  rw [agree path sees]

theorem verifyCheckpointPair_alike {checkpointDir : Directory} {manifestPath : DiskPath}
    {world : UInt64} {branch : BranchId} (inside : manifestPath.directory = checkpointDir)
    (sees : SeesIn seen checkpointDir) :
    ReadsAlike seen (fun _ => True)
      (verifyCheckpointPair formats checkpointDir manifestPath world branch) := by
  unfold verifyCheckpointPair
  refine (readFile_alike (sees manifestPath inside)).bind fun read _ => ?_
  cases read with
  | error error => exact .pure trivial
  | ok bytes =>
    simp only
    cases readManifest formats world branch bytes with
    | error error => exact .pure trivial
    | ok manifest =>
      simp only
      refine (readFile_alike (sees _ rfl)).bind fun stored _ => ?_
      cases stored with
      | error error => exact .pure trivial
      | ok stored => exact .pure trivial

variable {loader : CheckpointLoader}

/-- The checkpoint lies in the directory of the loader. -/
def LiesIn (loader : CheckpointLoader) (info : CheckpointInfo) : Prop :=
  info.manifestPath.directory = loader.layout.checkpointDir

/-- What was listed lies in the directory of the loader. -/
def ListsInside (loader : CheckpointLoader)
    (valid : Except PersistenceError (List CheckpointInfo)) : Prop :=
  ∀ found, valid = .ok found → ∀ info ∈ found, LiesIn loader info

theorem verifyFiles_alike {files : List DiskPath}
    (inside : ∀ file ∈ files, file.directory = loader.layout.checkpointDir)
    (sees : SeesIn seen loader.layout.checkpointDir) :
    ReadsAlike seen (fun found => ∀ info ∈ found, LiesIn loader info)
      (verifyFiles formats loader files) := by
  induction files with
  | nil => exact .pure (by simp)
  | cons file rest ih =>
    have later := ih fun other member => inside other (by simp [member])
    have place := inside file (by simp)
    unfold verifyFiles
    split
    · refine (verifyCheckpointPair_alike place sees).bind fun verified _ => ?_
      refine later.bind fun found places => ?_
      cases verified with
      | error error => exact .pure places
      | ok verified =>
        refine .pure fun info member => ?_
        rcases List.mem_cons.mp member with rfl | old
        · exact place
        · exact places info old
    · exact later

/-- A directory that is missing is read as an empty one. -/
theorem run_listValid (loader : CheckpointLoader) (machine : Machine) :
    (listValid formats loader).run Machine.perform machine =
      (verifyFiles formats loader (machine.filesIn loader.layout.checkpointDir) >>= fun found =>
        pure (.ok (found.insertionSort fun left right => earlier left right))).run Machine.perform
          machine := by
  unfold listValid
  rw [ask, Program.run_perform_bind]
  by_cases present : machine.hasDirectory loader.layout.checkpointDir
  · simp only [Machine.perform, present, if_true]
  · have empty : machine.filesIn loader.layout.checkpointDir = [] := by
      simp only [Machine.hasDirectory, Bool.or_eq_true, decide_eq_true_eq, not_or, not_not]
        at present
      exact present.2
    simp [Machine.perform, present, empty, verifyFiles]

theorem listValid_alike (sees : SeesIn seen loader.layout.checkpointDir) :
    ReadsAlike seen (ListsInside loader) (listValid formats loader) := by
  intro one other agree
  have inside : ∀ file ∈ other.filesIn loader.layout.checkpointDir,
      file.directory = loader.layout.checkpointDir :=
    fun file member => (mem_filesIn.mp member).2
  have alike : ReadsAlike seen (ListsInside loader) (verifyFiles formats loader (other.filesIn loader.layout.checkpointDir) >>= fun found =>
        pure (.ok (found.insertionSort fun left right => earlier left right))) := by
    refine (verifyFiles_alike inside sees).bind fun found places => .pure ?_
    intro sorted same info member
    rw [← Except.ok.inj same] at member
    exact places info ((List.mem_insertionSort _).mp member)
  rw [run_listValid, run_listValid, filesIn_agree agree sees]
  exact alike one other agree

theorem latestValid_alike (sees : SeesIn seen loader.layout.checkpointDir) :
    ReadsAlike seen (fun latest => ∀ info, latest = .ok info → LiesIn loader info)
      (latestValid formats loader) := by
  refine (listValid_alike sees).bind fun valid places => ?_
  cases valid with
  | error error => exact .pure (by simp)
  | ok found =>
    refine .pure fun info latest => ?_
    cases last : found.getLast? with
    | none => simp [last] at latest
    | some chosen =>
      obtain rfl : chosen = info := by simpa [last] using latest
      exact places found rfl chosen (List.mem_of_getLast? last)

theorem load_alike {info : CheckpointInfo} (lies : LiesIn loader info)
    (sees : SeesIn seen loader.layout.checkpointDir) :
    ReadsAlike seen (fun _ => True) (load formats loader info) := by
  refine (verifyCheckpointPair_alike lies sees).bind fun verified _ => ?_
  cases verified with
  | error error => exact .pure trivial
  | ok verified => exact .pure trivial

theorem loadBranchManifest_alike {path : DiskPath} (sees : seen path) :
    ReadsAlike seen (fun _ => True) (loadBranchManifest formats path) := by
  refine (readFile_alike sees).bind fun read _ => ?_
  cases read with
  | error error => exact .pure trivial
  | ok bytes => exact .pure trivial

/-- Every checkpoint directory is seen, and the manifest of the branch. -/
theorem branchBase_alike (manifest : seen (branchManifestPath loader.layout))
    (sees : ∀ layout : DurableLayout, SeesIn seen layout.checkpointDir) :
    ReadsAlike seen (fun _ => True) (branchBase formats loader) := by
  refine (loadBranchManifest_alike manifest).bind fun decoded _ => ?_
  cases decoded with
  | error error => exact .pure trivial
  | ok manifest =>
    simp only
    split
    · exact .pure trivial
    refine (listValid_alike (sees _)).bind fun valid places => ?_
    cases valid with
    | error error => exact .pure trivial
    | ok found =>
      simp only
      split
      · exact .pure trivial
      rename_i selected chosen
      split
      · exact .pure trivial
      refine (load_alike (places found rfl selected (List.mem_of_find?_eq_some chosen))
        (sees _)).bind fun loaded _ => .pure trivial

theorem recoveryBase_alike (manifest : seen (branchManifestPath loader.layout))
    (sees : ∀ layout : DurableLayout, SeesIn seen layout.checkpointDir) :
    ReadsAlike seen (fun _ => True) (recoveryBase formats loader) := by
  refine (latestValid_alike (sees _)).bind fun latest places => ?_
  cases latest with
  | ok info => exact (load_alike (places info rfl) (sees _)).bind fun loaded _ => .pure trivial
  | error error =>
    simp only
    split
    · exact .pure trivial
    · exact branchBase_alike manifest sees

end Reading

section Scanning

variable {seen : DiskPath → Prop} {crc32c : ByteString → UInt32} {maxRecordBytes : Nat}
  {policy : TailPolicy}

theorem truncate_contents (disk : FileSystem) (path : DiskPath) (size : Nat) :
    (disk.truncate path size).contents path = (disk.contents path).map fun bytes =>
      bytes.take size := by
  cases held : disk.live[path]? with
  | none => simp [Disk.truncate, Disk.contents, held]
  | some file => simp [Disk.truncate, Disk.contents, Disk.setFile, held]

theorem truncateFile_alike {path : DiskPath} {size : Nat} (sees : seen path) :
    ReadsAlike seen (fun _ => True) (ask (.truncateFile path size)) := by
  refine .perform fun one other agree => ?_
  have same := agree path sees
  have stored : ∀ disk : FileSystem, (disk.live[path]?).isSome = (disk.contents path).isSome := by
    intro disk
    simp [Disk.contents]
  simp only [Machine.perform, stored, same]
  split
  · refine ⟨rfl, fun there known => ?_⟩
    by_cases cut : there = path
    · subst cut
      simp only [Machine.setDisk, truncate_contents, same]
    · have kept : ∀ disk : FileSystem,
          (disk.truncate path size).contents there = disk.contents there :=
        fun disk => (Disk.truncate_keeps cut size).contents
      simp only [Machine.setDisk, kept, agree there known]
  · exact ⟨rfl, agree⟩

theorem trimActiveTail_alike {result : WalScanResult} {segment : SegmentEntry} {goodOffset : Nat}
    (sees : seen segment.path) :
    ReadsAlike seen (fun _ => True) (trimActiveTail result segment goodOffset) :=
  (readFile_alike sees).bind fun _ _ => (truncateFile_alike sees).bind fun _ _ => .pure trivial

theorem trimmed_alike {result : WalScanResult} {segment : SegmentEntry} {goodOffset : Nat}
    {expected : Lsn} (sees : seen segment.path) :
    ReadsAlike seen (fun _ => True) (do
      let trimmed ← trimActiveTail result segment goodOffset
      return (trimmed, expected, true)) :=
  (trimActiveTail_alike sees).bind fun _ _ => .pure trivial

theorem scanSegment_alike {result : WalScanResult} {segment : SegmentEntry} {expected : Lsn}
    (sees : seen segment.path) :
    ReadsAlike seen (fun _ => True)
      (scanSegment crc32c maxRecordBytes result segment policy expected) := by
  unfold scanSegment
  refine (readFile_alike sees).bind fun mapped _ => ?_
  cases mapped with
  | error error => exact .pure trivial
  | ok bytes =>
    simp only
    split
    · -- the file is shorter than a header
      split
      · split
        · exact .pure trivial
        · exact .pure trivial
      · split
        · exact trimmed_alike sees
        · exact .pure trivial
    split
    · split
      · exact trimmed_alike sees
      · exact .pure trivial
    split
    · exact .pure trivial
    split
    · exact .pure trivial
    · exact .pure trivial
    · split
      · exact trimmed_alike sees
      · exact .pure trivial

theorem scanSegments_alike {segments : List SegmentEntry} {result : WalScanResult}
    {expected : Lsn} (sees : ∀ segment ∈ segments, seen segment.path) :
    ReadsAlike seen (fun _ => True)
      (scanSegments crc32c maxRecordBytes policy segments result expected) := by
  induction segments generalizing result expected with
  | nil => exact .pure trivial
  | cons segment rest ih =>
    unfold scanSegments
    refine (scanSegment_alike (sees segment (by simp))).bind fun outcome _ => ?_
    obtain ⟨result, expected, goOn⟩ := outcome
    cases goOn
    · exact .pure trivial
    · exact ih fun other member => sees other (by simp [member])

/-- The scan of the segments of these files. -/
def scanFiles (crc32c : ByteString → UInt32) (maxRecordBytes : Nat) (policy : TailPolicy)
    (firstExpected : Lsn) (files : List DiskPath) : FileProgram WalScanResult :=
  let segments := (files.filterMap segmentEntry).insertionSort fun left right => left.before right
  let first := (segments.head?.map SegmentEntry.firstLsn).getD 0
  let expected := if firstExpected.valid then firstExpected else first
  if segments = [] ∧ ¬ expected.valid then
    pure {}
  else do
    let (result, ended, complete) ←
      scanSegments crc32c maxRecordBytes policy segments { firstLsn := first } expected
    if complete then
      return { result with
        lastLsn := if ended.valid ∧ expected < ended then ended - 1 else 0
        nextLsn := ended }
    else
      return result

theorem scanFiles_alike {firstExpected : Lsn} {files : List DiskPath}
    (sees : ∀ file ∈ files, seen file) :
    ReadsAlike seen (fun _ => True)
      (scanFiles crc32c maxRecordBytes policy firstExpected files) := by
  unfold scanFiles
  simp only
  generalize (if firstExpected.valid then firstExpected else _) = expected
  split
  · exact .pure trivial
  refine (scanSegments_alike fun segment member => ?_).bind fun outcome _ => ?_
  · obtain ⟨file, listed, entry⟩ := List.mem_filterMap.mp ((List.mem_insertionSort _).mp member)
    rw [segmentEntry_path entry]
    exact sees file listed
  · obtain ⟨result, ended, complete⟩ := outcome
    cases complete
    · exact .pure trivial
    · exact .pure trivial

/-- A plan does not depend on whether an empty log directory was ever created. -/
theorem planReplay_scan (checkpoint : Option LoadedCheckpoint) (walDir : Directory)
    (firstExpected : Lsn) (machine : Machine) :
    planReplay checkpoint ((scanWalDirectory crc32c maxRecordBytes walDir policy
        firstExpected).run Machine.perform machine).1 =
      planReplay checkpoint ((scanFiles crc32c maxRecordBytes policy firstExpected
        (machine.filesIn walDir)).run Machine.perform machine).1 := by
  unfold scanWalDirectory
  rw [ask, Program.run_perform_bind]
  by_cases present : machine.hasDirectory walDir
  · simp only [Machine.perform, present, if_true]
    rfl
  · have empty : machine.filesIn walDir = [] := by
      simp only [Machine.hasDirectory, Bool.or_eq_true, decide_eq_true_eq, not_or, not_not]
        at present
      exact present.2
    simp only [Machine.perform, present, empty, scanFiles, Bool.false_eq_true, if_false, if_true,
      Program.run_pure]
    by_cases valid : firstExpected.valid
    · simp [valid, scanSegments, planReplay]
    · simp [valid, show ¬ Lsn.valid 0 by decide]

theorem planReplay_alike {checkpoint : Option LoadedCheckpoint} {walDir : Directory}
    {firstExpected : Lsn} {one other : Machine} (agree : AgreeOn seen one other)
    (sees : SeesIn seen walDir) :
    planReplay checkpoint ((scanWalDirectory crc32c maxRecordBytes walDir policy
        firstExpected).run Machine.perform one).1 =
      planReplay checkpoint ((scanWalDirectory crc32c maxRecordBytes walDir policy
        firstExpected).run Machine.perform other).1 := by
  have inside : ∀ file ∈ other.filesIn walDir, seen file :=
    fun file member => sees file (mem_filesIn.mp member).2
  rw [planReplay_scan, planReplay_scan, filesIn_agree agree sees,
    (scanFiles_alike inside).same agree]

end Scanning

end GeoWorld.Persistence
