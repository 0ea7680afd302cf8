import Mathlib
import GeoWorld.Persistence.PublishSteps

/-!
Publication of a checkpoint against crashes. Whatever call fails and wherever a crash stops
it, the latest valid checkpoint found afterwards is one that could be found before or the
new one; a publication that succeeds leaves the new checkpoint and those that branches
are based on.
-/

namespace GeoWorld.Persistence

open WorldModel Library

section Names

/-- The names of a new pair of files. -/
structure NamedFiles (config : CheckpointConfig) (files : CheckpointFiles) : Prop where
  dataDirectory : files.dataPath.directory = config.layout.checkpointDir
  manifestDirectory : files.manifestPath.directory = config.layout.checkpointDir
  dataPlain : parseManifestTick files.dataPath.name = none
  dataKept : ¬ tempFilePrefix.isPrefixOf files.dataPath.name
  candidate : manifestCandidate files.manifestPath.name

/-- A name that only the new publication uses. -/
def IsNew (files : CheckpointFiles) (path : DiskPath) : Prop :=
  path = files.dataPath ∨ path = files.manifestPath ∨
    ∃ counter, path = tempPath files.dataPath counter ∨ path = tempPath files.manifestPath counter

theorem tempPath_prefixed (finalPath : DiskPath) (counter : Nat) :
    tempFilePrefix.isPrefixOf (tempPath finalPath counter).name := by
  rw [List.isPrefixOf_iff_prefix]
  simp [tempPath, List.append_assoc]

theorem candidate_kept {name : FileName} (candidate : manifestCandidate name) :
    ¬ tempFilePrefix.isPrefixOf name := by
  simp only [manifestCandidate, Bool.and_eq_true, Bool.not_eq_true'] at candidate
  simp [candidate.1]

variable {config : CheckpointConfig} {files : CheckpointFiles}

theorem NamedFiles.data_ne_manifest (named : NamedFiles config files) :
    files.dataPath ≠ files.manifestPath := by
  intro same
  have candidate := named.candidate
  rw [← same] at candidate
  simp [manifestCandidate, named.dataPlain] at candidate

theorem NamedFiles.data_ne_temp (named : NamedFiles config files) (path : DiskPath) (counter : Nat) :
    files.dataPath ≠ tempPath path counter :=
  fun same => named.dataKept (same ▸ tempPath_prefixed path counter)

theorem NamedFiles.manifest_ne_temp (named : NamedFiles config files) (path : DiskPath)
    (counter : Nat) : files.manifestPath ≠ tempPath path counter :=
  fun same => candidate_kept named.candidate (same ▸ tempPath_prefixed path counter)

/-- Of the new names only that of the manifest can be a manifest's. -/
theorem NamedFiles.new_candidate (named : NamedFiles config files) {path : DiskPath}
    (new : IsNew files path) (parsed : (parseManifestTick path.name).isSome)
    (kept : ¬ tempFilePrefix.isPrefixOf path.name) : path = files.manifestPath := by
  rcases new with rfl | rfl | ⟨counter, rfl | rfl⟩
  · simp [named.dataPlain] at parsed
  · rfl
  · exact absurd (tempPath_prefixed _ _) kept
  · exact absurd (tempPath_prefixed _ _) kept

theorem parsed_kept {name : FileName} (parsed : (parseManifestTick name).isSome) :
    ¬ tempFilePrefix.isPrefixOf name := by
  intro temporary
  unfold parseManifestTick at parsed
  split at parsed
  · cases parsed
  · rename_i fits
    simp only [not_or, not_not] at fits
    obtain ⟨tail, temporary⟩ := List.isPrefixOf_iff_prefix.mp temporary
    obtain ⟨rest, started⟩ := List.isPrefixOf_iff_prefix.mp fits.2.1
    have heads := congrArg List.head? (temporary.trans started.symm)
    simp [tempFilePrefix, checkpointPrefix] at heads

end Names

section Phases

variable (formats : Formats) (config : CheckpointConfig) (before : Machine)
variable (files : CheckpointFiles)

/-- No name of the new publication was used before, nor named by a manifest. -/
structure Unused : Prop where
  absent : ∀ path, IsNew files path → before.disk.Durable path none
  unnamed : ∀ path bytes manifest, path.directory = config.layout.checkpointDir →
    before.disk.MayLeave path (some bytes) →
      readManifest formats config.world config.branch bytes = .ok manifest →
        ¬ IsNew files (config.layout.checkpointDir.file manifest.dataFile)

/-- A checkpoint that a branch is based on and that shares no file with another. -/
structure PinnedCheckpoint (info : CheckpointInfo) : Prop where
  valid : ValidCheckpoint formats config.loader before.disk.contents info
  pinned : PinnedBy formats before (before.directoriesIn config.layout.root.dropLast)
    info.manifestPath.components
  plainData : parseManifestTick info.dataPath.name = none
  unshared : ∀ other verified, other ≠ info.manifestPath →
    other.directory = config.layout.checkpointDir → (parseManifestTick other.name).isSome →
    verifiedPair formats before.disk.contents config.layout.checkpointDir other config.world
      config.branch = some verified →
    config.layout.checkpointDir.file verified.manifest.dataFile ≠ info.dataPath ∧
      config.layout.checkpointDir.file verified.manifest.dataFile ≠ info.manifestPath

def Spared (path : DiskPath) : Prop :=
  ∃ info, PinnedCheckpoint formats config before info ∧
    (path = info.manifestPath ∨ path = info.dataPath)

/-- Until the published pair is checked. -/
structure Committing (now : Machine) : Prop where
  kept : ∀ path, ¬ IsNew files path → Disk.KeepsAt before.disk now.disk path
  manifest : now.disk.Settles files.manifestPath fun bytes =>
    bytes = none ∨ bytes = some files.manifest
  directories : ∀ root ∈ before.directories, root ∈ now.directories

/-- The published pair stands; the rest of the directory holds what it held or nothing. -/
structure Retaining (now : Machine) : Prop where
  data : now.disk.Durable files.dataPath (some files.data)
  manifest : now.disk.Durable files.manifestPath (some files.manifest)
  live : ∀ path, path.directory = config.layout.checkpointDir → ¬ IsNew files path →
    now.disk.contents path = none ∨ now.disk.contents path = before.disk.contents path
  left : ∀ path bytes, path.directory = config.layout.checkpointDir → ¬ IsNew files path →
    now.disk.MayLeave path bytes → bytes = none ∨ before.disk.MayLeave path bytes
  spared : ∀ path, Spared formats config before path →
    Disk.KeepsAt before.disk now.disk path

variable {formats config before files}

theorem Committing.of_disk {now other : Machine} (committing : Committing before files now)
    (same : other.disk = now.disk) (more : ∀ root ∈ now.directories, root ∈ other.directories) :
    Committing before files other where
  kept path old := same ▸ committing.kept path old
  manifest := same ▸ committing.manifest
  directories root known := more root (committing.directories root known)

theorem Unused.committing (unused : Unused formats config before files) :
    Committing before files before where
  kept path _ := .refl _ path
  manifest := (unused.absent _ (.inr (.inl rfl))).mono fun _ => .inl
  directories _ known := known

theorem Committing.publishData (named : NamedFiles config files) {middle now : Machine}
    (committing : Committing before files middle)
    (publishing : Publishing middle files.dataPath files.data now) :
    Committing before files now where
  kept path old := by
    refine (committing.kept path old).trans (publishing.others path ?_ ?_)
    · exact fun same => old (.inl same)
    · exact fun same => old (.inr (.inr ⟨_, .inl same⟩))
  manifest := (publishing.others _ named.data_ne_manifest.symm
    (named.manifest_ne_temp _ _)).settles committing.manifest
  directories root known := publishing.directories ▸ committing.directories root known

theorem Committing.publishManifest {middle now : Machine}
    (committing : Committing before files middle)
    (publishing : Publishing middle files.manifestPath files.manifest now) :
    Committing before files now where
  kept path old := by
    refine (committing.kept path old).trans (publishing.others path ?_ ?_)
    · exact fun same => old (.inr (.inl same))
    · exact fun same => old (.inr (.inr ⟨_, .inr same⟩))
  manifest := (publishing.settles committing.manifest).mono fun bytes outcome =>
    outcome.elim id .inr
  directories root known := publishing.directories ▸ committing.directories root known

theorem Committing.removeData (named : NamedFiles config files) {now : Machine}
    (committing : Committing before files now) :
    Committing before files (now.setDisk (now.disk.remove files.dataPath)) where
  kept path old := (committing.kept path old).trans
    (Disk.setEntry_keeps (fun same => old (.inl same)) none)
  manifest := (Disk.setEntry_keeps named.data_ne_manifest.symm none).settles committing.manifest
  directories := committing.directories

theorem publishFiles_ensures (named : NamedFiles config files) {machine : Machine}
    (committing : Committing before files machine) :
    Program.Ensures Machine.Allowed (Committing before files)
      (fun error now => error = .none → now.disk.Durable files.dataPath (some files.data) ∧
        now.disk.Durable files.manifestPath (some files.manifest))
      (publishFiles files) machine := by
  unfold publishFiles
  have published := (atomicPublish_ensures machine files.dataPath files.data).mono
    (fun _ publishing => committing.publishData named publishing) fun _ _ _ durable => durable
  refine published.bind fun error middle committing durable => ?_
  split
  · rename_i failed
    exact ⟨committing, fun none => absurd none failed⟩
  rename_i succeeded
  have held := durable (not_not.mp succeeded)
  have published : Program.Ensures Machine.Allowed (Committing before files)
      (fun error now => error = .none → now.disk.Durable files.dataPath (some files.data) ∧
        now.disk.Durable files.manifestPath (some files.manifest))
      (atomicPublish files.manifestPath files.manifest) middle := by
    refine (atomicPublish_ensures middle files.manifestPath files.manifest).mono
      (fun _ publishing => committing.publishManifest publishing)
      fun error now publishing durable none => ⟨?_, durable none⟩
    exact (publishing.others _ named.data_ne_manifest (named.data_ne_temp _ _)).settles held
  refine published.bind fun error now committing durable => ?_
  split
  · rename_i failed
    refine (removeFile_ensures committing (committing.removeData named)).bind
      fun _ after _ committing => ?_
    exact ⟨committing, fun none => absurd none failed⟩
  · exact ⟨committing, durable⟩

/-- The two files of a checkpoint that passes. -/
theorem ValidCheckpoint.pair {loader : CheckpointLoader} {contents : DiskPath → Option ByteString}
    {info : CheckpointInfo} (valid : ValidCheckpoint formats loader contents info) :
    ∃ bytes manifest stored, contents info.manifestPath = some bytes ∧
      readManifest formats loader.world loader.branch bytes = .ok manifest ∧
      info.dataPath = loader.layout.checkpointDir.file manifest.dataFile ∧
      contents info.dataPath = some stored := by
  obtain ⟨verified, passed, same⟩ := Option.map_eq_some_iff.mp valid.2.2
  obtain ⟨bytes, manifest, stored, found, read, held, checked⟩ := verifiedPair_eq_some.mp passed
  have place : info.dataPath = loader.layout.checkpointDir.file manifest.dataFile := by
    rw [← verifyData_manifest checked, ← same]
    rfl
  exact ⟨bytes, manifest, stored, found, read, place, place ▸ held⟩

theorem Spared.directory {path : DiskPath} (spared : Spared formats config before path) :
    path.directory = config.layout.checkpointDir := by
  obtain ⟨info, pinned, rfl | rfl⟩ := spared
  · exact pinned.valid.1
  · obtain ⟨_, _, _, _, _, place, _⟩ := pinned.valid.pair
    rw [place]
    rfl

theorem Unused.old (unused : Unused formats config before files) {path : DiskPath}
    {bytes : ByteString} (found : before.disk.contents path = some bytes) : ¬ IsNew files path := by
  intro new
  rw [(unused.absent path new).now] at found
  cases found

theorem Spared.old (unused : Unused formats config before files) {path : DiskPath}
    (spared : Spared formats config before path) : ¬ IsNew files path := by
  obtain ⟨info, pinned, same⟩ := spared
  obtain ⟨bytes, _, stored, found, _, _, held⟩ := pinned.valid.pair
  rcases same with rfl | rfl
  · exact unused.old found
  · exact unused.old held

theorem Committing.retaining (unused : Unused formats config before files) {now : Machine}
    (committing : Committing before files now)
    (data : now.disk.Durable files.dataPath (some files.data))
    (manifest : now.disk.Durable files.manifestPath (some files.manifest)) :
    Retaining formats config before files now where
  data := data
  manifest := manifest
  live path _ old := .inr (committing.kept path old).contents
  left path _ _ old may := .inr ((committing.kept path old).mayLeave may)
  spared path spared := committing.kept path (spared.old unused)

/-- Retention may remove what is neither new nor spared. -/
theorem Retaining.remove {now : Machine} (retaining : Retaining formats config before files now)
    {path : DiskPath} (data : path ≠ files.dataPath) (manifest : path ≠ files.manifestPath)
    (free : ¬ Spared formats config before path) :
    Retaining formats config before files (now.setDisk (now.disk.remove path)) where
  data := (Disk.setEntry_keeps data.symm none).settles retaining.data
  manifest := (Disk.setEntry_keeps manifest.symm none).settles retaining.manifest
  live other inside old := by
    by_cases same : other = path
    · subst same
      exact .inl (Disk.contents_eq_none.mpr ((Disk.live_setEntry _ _ _ none).trans (if_pos rfl)))
    · have kept : (now.disk.remove path).contents other = now.disk.contents other :=
        (Disk.setEntry_keeps same none).contents
      exact kept ▸ retaining.live other inside old
  left other bytes inside old may := (Disk.mayLeave_remove may).elim .inl
    (retaining.left other bytes inside old)
  spared other spared := (retaining.spared other spared).trans
    (Disk.setEntry_keeps (fun same : other = path => free (same ▸ spared)) none)

theorem Committing.pinnedBy (unused : Unused formats config before files) {now : Machine}
    (committing : Committing before files now) {base parent : Directory}
    (pinned : PinnedBy formats before (before.directoriesIn parent) base) :
    PinnedBy formats now (now.directoriesIn parent) base := by
  obtain ⟨root, member, named, bytes, manifest, held, decoded, based⟩ := pinned
  obtain ⟨known, inside⟩ := List.mem_filter.mp member
  have old := unused.old held
  refine ⟨root, List.mem_filter.mpr ⟨committing.directories root known, inside⟩, named, bytes,
    manifest, ?_, decoded, based⟩
  exact (committing.kept _ old).contents.trans held

section Retention

variable {start : Machine} {victim : DiskPath}

theorem Victim.ne_manifest (chosen : Victim formats config files.manifestPath start victim) :
    victim ≠ files.manifestPath :=
  fun same => chosen.apart (same ▸ rfl)

theorem Victim.old (named : NamedFiles config files)
    (chosen : Victim formats config files.manifestPath start victim) : ¬ IsNew files victim :=
  fun new => chosen.ne_manifest (named.new_candidate new chosen.named (parsed_kept chosen.named))

theorem Victim.unpinned_manifest (unused : Unused formats config before files)
    (committing : Committing before files start)
    (chosen : Victim formats config files.manifestPath start victim) {info : CheckpointInfo}
    (pinned : PinnedCheckpoint formats config before info) : victim ≠ info.manifestPath :=
  fun same => chosen.unpinned _ (committing.pinnedBy unused pinned.pinned) (same ▸ rfl)

theorem Victim.free (unused : Unused formats config before files)
    (committing : Committing before files start)
    (chosen : Victim formats config files.manifestPath start victim) :
    ¬ Spared formats config before victim := by
  rintro ⟨info, pinned, same | same⟩
  · exact chosen.unpinned_manifest unused committing pinned same
  · have named := chosen.named
    rw [same, pinned.plainData] at named
    cases named

/-- A manifest that still passes passed before, on files that are neither new nor spared. -/
theorem Retaining.victim_data (named : NamedFiles config files)
    (unused : Unused formats config before files) (committing : Committing before files start)
    (chosen : Victim formats config files.manifestPath start victim) {now : Machine}
    (retaining : Retaining formats config before files now) {verified : VerifiedCheckpoint}
    (passed : verifiedPair formats now.disk.contents config.layout.checkpointDir victim config.world
      config.branch = some verified) :
    Retaining formats config before files (now.setDisk (now.disk.remove
      (config.layout.checkpointDir.file verified.manifest.dataFile))) := by
  obtain ⟨bytes, manifest, stored, found, read, held, checked⟩ := verifiedPair_eq_some.mp passed
  have earlier : ∀ path : DiskPath, path.directory = config.layout.checkpointDir →
      ¬ IsNew files path → ∀ bytes : ByteString, now.disk.contents path = some bytes →
        before.disk.contents path = some bytes := by
    intro path inside old bytes found
    rcases retaining.live path inside old with gone | same
    · rw [gone] at found
      cases found
    · exact same ▸ found
  have was := earlier victim chosen.directory (chosen.old named) bytes found
  have oldData := unused.unnamed victim bytes manifest chosen.directory
    (was ▸ Disk.mayLeave_contents before.disk victim) read
  have passedBefore : verifiedPair formats before.disk.contents config.layout.checkpointDir victim
      config.world config.branch = some verified :=
    verifiedPair_eq_some.mpr ⟨bytes, manifest, stored, was, read, earlier _ rfl oldData _ held,
      checked⟩
  have same := verifyData_manifest checked
  rw [← same] at oldData
  refine retaining.remove (fun new => oldData (.inl new)) (fun new => oldData (.inr (.inl new))) ?_
  rintro ⟨info, pinned, shared⟩
  obtain ⟨notData, notManifest⟩ := pinned.unshared victim verified
    (chosen.unpinned_manifest unused committing pinned) chosen.directory chosen.named passedBefore
  rcases shared with shared | shared
  · exact notManifest shared
  · exact notData shared

end Retention

/-- A publication is committing until its check, and retaining from then on. -/
theorem published_ensures (named : NamedFiles config files)
    (unused : Unused formats config before files) {start : Machine}
    (committing : Committing before files start)
    (data : start.disk.Durable files.dataPath (some files.data))
    (manifest : start.disk.Durable files.manifestPath (some files.manifest)) :
    Program.Ensures Machine.Allowed (Retaining formats config before files)
      (fun _ now => Retaining formats config before files now)
      (retention formats config files.manifestPath) start := by
  refine retention_ensures (committing.retaining unused data manifest) ?_ ?_
  · intro victim chosen now retaining
    refine retaining.remove ?_ chosen.ne_manifest (chosen.free unused committing)
    exact fun same => chosen.old named (.inl same)
  · exact fun victim chosen now verified retaining passed =>
      retaining.victim_data named unused committing chosen passed

end Phases

section Found

variable {formats : Formats} {config : CheckpointConfig} {before : Machine}
variable {files : CheckpointFiles} {view : DiskPath → Option ByteString}

/-- Contents of the directory that a crash before the publication could have left. -/
def Possible (config : CheckpointConfig) (before : Machine) (view : DiskPath → Option ByteString) :
    Prop :=
  ∀ path, path.directory = config.layout.checkpointDir → before.disk.MayLeave path (view path)

/-- The new pair passes wherever both of its files are. -/
def FilesPass (formats : Formats) (config : CheckpointConfig) (files : CheckpointFiles) : Prop :=
  ∃ verified, ∀ contents : DiskPath → Option ByteString,
    contents files.manifestPath = some files.manifest → contents files.dataPath = some files.data →
      verifiedPair formats contents config.layout.checkpointDir files.manifestPath config.world
        config.branch = some verified

/-- Validity only depends on the two files. -/
theorem ValidCheckpoint.congr {loader : CheckpointLoader}
    {contents other : DiskPath → Option ByteString} {info : CheckpointInfo}
    (valid : ValidCheckpoint formats loader contents info)
    (manifest : other info.manifestPath = contents info.manifestPath)
    (data : other info.dataPath = contents info.dataPath) :
    ValidCheckpoint formats loader other info := by
  refine ⟨valid.1, valid.2.1, ?_⟩
  obtain ⟨verified, passed, same⟩ := Option.map_eq_some_iff.mp valid.2.2
  refine Option.map_eq_some_iff.mpr ⟨verified, ?_, same⟩
  obtain ⟨bytes, table, stored, found, read, held, checked⟩ := verifiedPair_eq_some.mp passed
  have place : info.dataPath = loader.layout.checkpointDir.file table.dataFile := by
    rw [← verifyData_manifest checked, ← same]
    rfl
  exact verifiedPair_eq_some.mpr ⟨bytes, table, stored, manifest.trans found, read,
    place ▸ data.trans (place ▸ held), checked⟩

/-- Before its check a publication adds at most itself to what could be found. -/
theorem committing_outcome (named : NamedFiles config files)
    (unused : Unused formats config before files)
    (kept : ∀ path, path.directory = config.layout.checkpointDir → ¬ IsNew files path →
      before.disk.MayLeave path (view path))
    {latest : Except PersistenceError CheckpointInfo}
    (found : LatestOutcome formats config.loader view latest) :
    (∃ info, latest = .ok info ∧ info.manifestPath = files.manifestPath ∧
        ValidCheckpoint formats config.loader view info) ∨
      ∃ base, Possible config before base ∧ LatestOutcome formats config.loader base latest := by
  classical
  let base : DiskPath → Option ByteString := fun path =>
    if IsNew files path then none else view path
  have same : ∀ path, ¬ IsNew files path → base path = view path := fun path old => if_neg old
  have possible : Possible config before base := by
    intro path inside
    by_cases new : IsNew files path
    · have absent := unused.absent path new
      have none_there : base path = none := if_pos new
      rw [none_there, ← absent.now]
      exact Disk.mayLeave_contents _ _
    · rw [same path new]
      exact kept path inside new
  have old_of_some : ∀ {path bytes}, base path = some bytes → ¬ IsNew files path := by
    intro path bytes found new
    simp [base, new] at found
  have valid_view : ∀ info, ValidCheckpoint formats config.loader base info →
      ValidCheckpoint formats config.loader view info := by
    intro info valid
    obtain ⟨_, _, _, manifest, _, _, data⟩ := valid.pair
    exact valid.congr (same _ (old_of_some manifest)).symm (same _ (old_of_some data)).symm
  have valid_base : ∀ info, ValidCheckpoint formats config.loader view info →
      ¬ IsNew files info.manifestPath → ValidCheckpoint formats config.loader base info := by
    intro info valid old
    obtain ⟨bytes, manifest, stored, found, read, place, _⟩ := valid.pair
    have may := kept info.manifestPath valid.1 old
    rw [found] at may
    have oldData := unused.unnamed _ _ _ valid.1 may read
    exact valid.congr (same _ old) (same _ (place ▸ oldData))
  rcases found with ⟨info, rfl, latest⟩ | ⟨rfl, none_valid⟩
  · by_cases new : IsNew files info.manifestPath
    · have candidate := latest.valid.2.1
      have kept := candidate_kept candidate
      simp only [manifestCandidate, Bool.and_eq_true] at candidate
      exact .inl ⟨info, rfl, named.new_candidate new candidate.2 kept, latest.valid⟩
    · refine .inr ⟨base, possible, .inl ⟨info, rfl, valid_base info latest.valid new, ?_⟩⟩
      exact fun other valid => latest.latest other (valid_view other valid)
  · exact .inr ⟨base, possible, .inr ⟨rfl, fun info valid => none_valid info (valid_view info valid)⟩⟩

/-- After its check the new checkpoint can be found, and nothing newer than it. -/
theorem retaining_outcome (named : NamedFiles config files)
    (unused : Unused formats config before files) (passes : FilesPass formats config files)
    (data : view files.dataPath = some files.data)
    (manifest : view files.manifestPath = some files.manifest)
    (left : ∀ path, path.directory = config.layout.checkpointDir → ¬ IsNew files path →
      view path = none ∨ before.disk.MayLeave path (view path))
    (largest : ∀ base, Possible config before base → ∀ other new,
      ValidCheckpoint formats config.loader base other →
      ValidCheckpoint formats config.loader view new → new.manifestPath = files.manifestPath →
        other.anchor.completedTick ≤ new.anchor.completedTick)
    {latest : Except PersistenceError CheckpointInfo}
    (found : LatestOutcome formats config.loader view latest) :
    (∃ info, latest = .ok info ∧ info.manifestPath = files.manifestPath ∧
        ValidCheckpoint formats config.loader view info) ∨
      ∃ base, Possible config before base ∧ LatestOutcome formats config.loader base latest := by
  classical
  obtain ⟨verified, passes⟩ := passes
  have newValid : ValidCheckpoint formats config.loader view
      (checkpointInfo config.layout.checkpointDir files.manifestPath verified) :=
    ⟨named.manifestDirectory, named.candidate,
      Option.map_eq_some_iff.mpr ⟨verified, passes view manifest data, rfl⟩⟩
  rcases found with ⟨info, rfl, latest⟩ | ⟨rfl, none_valid⟩
  swap
  · exact absurd newValid (none_valid _)
  by_cases new : IsNew files info.manifestPath
  · have candidate := latest.valid.2.1
    have kept := candidate_kept candidate
    simp only [manifestCandidate, Bool.and_eq_true] at candidate
    exact .inl ⟨info, rfl, named.new_candidate new candidate.2 kept, latest.valid⟩
  obtain ⟨bytes, table, stored, found, read, place, held⟩ := latest.valid.pair
  have may : before.disk.MayLeave info.manifestPath (some bytes) := by
    rcases left _ latest.valid.1 new with gone | may
    · rw [found] at gone
      cases gone
    · rwa [found] at may
  have oldData : ¬ IsNew files info.dataPath :=
    place ▸ unused.unnamed _ _ _ latest.valid.1 may read
  have mayData : before.disk.MayLeave info.dataPath (some stored) := by
    rcases left _ (by rw [place]; rfl) oldData with gone | may
    · rw [held] at gone
      cases gone
    · rwa [held] at may
  let base : DiskPath → Option ByteString := fun path =>
    if path = info.manifestPath ∨ path = info.dataPath then view path
    else before.disk.contents path
  have possible : Possible config before base := by
    intro path _
    by_cases chosen : path = info.manifestPath ∨ path = info.dataPath
    · have same : base path = view path := if_pos chosen
      rw [same]
      rcases chosen with rfl | rfl
      · exact found ▸ may
      · exact held ▸ mayData
    · have same : base path = before.disk.contents path := if_neg chosen
      rw [same]
      exact Disk.mayLeave_contents _ _
  have valid : ValidCheckpoint formats config.loader base info :=
    latest.valid.congr (if_pos (.inl rfl)) (if_pos (.inr rfl))
  refine .inr ⟨base, possible, .inl ⟨info, rfl, valid, fun other otherValid => ?_⟩⟩
  exact UInt64.le_trans (largest base possible other _ otherValid newValid rfl)
    (latest.latest _ newValid)

end Found

end GeoWorld.Persistence
