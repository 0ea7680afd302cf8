import Mathlib
import GeoWorld.Persistence.AtomicPublish
import GeoWorld.Persistence.WalStart

/-!
Publishing again after a crash. A restarted process numbers its temporary files from one,
and none is cleaned up at start, so a publication finds its name taken by the file that
a crashed one left under the same number. The first publication of a directory is that of
its manifest; when it leaves its file behind, no later start gets past it.
-/

namespace GeoWorld.Persistence

open WorldModel Library

/-- A program was stopped somewhere by a crash and the process restarted. -/
def CrashedIn {α : Type} (program : FileProgram α) (before restarted : Machine) : Prop :=
  ∃ (stopped : FileProgram α) (now : Machine),
    Program.Reaches Machine.Allowed program before stopped now ∧ now.Restarts restarted

/-- With healthy storage a publication succeeds and puts exactly the new contents there. -/
def Publishes (machine : Machine) (finalPath : DiskPath) (contents : ByteString) : Prop :=
  (Program.run Machine.perform (atomicPublish finalPath contents) machine).1 = .none ∧
    (Program.run Machine.perform (atomicPublish finalPath contents) machine).2.disk.Durable
      finalPath (some contents)

/-- The name that the next publication writes to first. -/
def Machine.nextTempPath (machine : Machine) (finalPath : DiskPath) : DiskPath :=
  tempPath finalPath (machine.tempCounter + 1)

theorem publishes_iff (machine : Machine) (finalPath : DiskPath) (contents : ByteString) :
    Publishes machine finalPath contents ↔
      machine.disk.live[machine.nextTempPath finalPath]? = none := by
  unfold Publishes Machine.nextTempPath
  by_cases free : machine.disk.live[tempPath finalPath (machine.tempCounter + 1)]? = none
  · rw [run_atomicPublish_free finalPath contents free]
    simp only [free, true_and, iff_true]
    exact durable_renamed _ _ (tempPath_ne _ _).symm
  · rw [run_atomicPublish_taken finalPath contents free]
    simp [free]

section Start

variable (crc32c : ByteString → UInt32) (config : WalConfig)

/-- Start after start, each in a process of its own, until one succeeds. -/
inductive StartsEventually : Machine → Prop where
  | now {machine : Machine}
      (succeeds : (Program.run Machine.perform (WalWriter.start crc32c config) machine).1.1 =
        .none) : StartsEventually machine
  | later {machine next : Machine}
      (restarts : (Program.run Machine.perform (WalWriter.start crc32c config)
        machine).2.Restarts next)
      (later : StartsEventually next) : StartsEventually machine

/-- The manifest that a start writes. -/
def identityBytes : ByteString :=
  encodeManifest crc32c { world := config.world, branch := config.branch }

/-- The directories of the branch as no start has yet left anything in them. -/
def Fresh (machine : Machine) : Prop :=
  machine.disk.Durable config.layout.directoryManifestPath none ∧
    ∀ path : DiskPath, path.directory = config.layout.walDir → machine.disk.Durable path none

/-- What a first start may have done. -/
structure Starting (now : Machine) : Prop where
  manifest : now.disk.Settles config.layout.directoryManifestPath fun bytes =>
    bytes = none ∨ bytes = some (identityBytes crc32c config)
  wal : ∀ path : DiskPath, path.directory = config.layout.walDir → now.disk.Durable path none

variable {crc32c config}

theorem Fresh.starting {machine : Machine} (fresh : Fresh config machine) :
    Starting crc32c config machine :=
  ⟨fresh.1.mono fun _ => .inl, fresh.2⟩

theorem Fresh.of_disk {machine other : Machine} (fresh : Fresh config machine)
    (same : other.disk = machine.disk) : Fresh config other := by
  unfold Fresh
  rw [same]
  exact fresh

theorem wal_ne_manifests (layout : DurableLayout) : layout.walDir ≠ layout.manifestDir := by
  simp [DurableLayout.walDir, DurableLayout.manifestDir]

theorem Fresh.publish {machine now : Machine} (fresh : Fresh config machine)
    (publishing : Publishing machine config.layout.directoryManifestPath
      (identityBytes crc32c config) now) : Starting crc32c config now where
  manifest := publishing.settles fresh.1
  wal path inside := by
    have elsewhere : ∀ target : DiskPath, target.directory = config.layout.manifestDir →
        path ≠ target := by
      intro target other same
      exact wal_ne_manifests config.layout (inside.symm.trans (same ▸ other))
    exact (publishing.others path (elsewhere _ rfl) (elsewhere _ rfl)).settles (fresh.2 path inside)

theorem Starting.of_disk {machine other : Machine} (starting : Starting crc32c config machine)
    (same : other.disk = machine.disk) : Starting crc32c config other where
  manifest := same ▸ starting.manifest
  wal := same ▸ starting.wal

theorem freezeIdentity_ensures {machine : Machine} (fresh : Fresh config machine) :
    Program.Ensures Machine.Allowed (Starting crc32c config) (fun _ _ => True)
      (freezeIdentity crc32c config) machine := by
  unfold freezeIdentity
  have loaded : Program.Ensures Machine.Allowed (Starting crc32c config)
      (fun _ now => Fresh config now)
      (loadDirectoryManifest crc32c config.layout.directoryManifestPath) machine := by
    refine Program.ensures_perform_bind.mpr ⟨fresh.starting, fun answer after asked => ?_⟩
    obtain ⟨rfl, _⟩ := allowed_readFile asked
    cases answer with
    | error error => exact ⟨fresh.starting, fresh⟩
    | ok bytes => exact ⟨fresh.starting, fresh⟩
  refine loaded.bind fun manifest now _ fresh => ?_
  split
  · exact (atomicPublish_ensures _ _ _).mono (fun _ publishing => fresh.publish publishing)
      fun _ _ _ _ => trivial
  · exact ⟨fresh.starting, trivial⟩
  · exact ⟨fresh.starting, trivial⟩

theorem createDirectories_ensures {machine : Machine} (fresh : Fresh config machine)
    (directory : Directory) :
    Program.Ensures Machine.Allowed (Starting crc32c config) (fun _ now => Fresh config now)
      (ask (.createDirectories directory)) machine := by
  refine ⟨fresh.starting, fun error after asked => ?_⟩
  have unchanged := fresh.of_disk (allowed_createDirectories asked).1
  exact ⟨unchanged.starting, unchanged⟩

theorem prepareDirectory_ensures {machine : Machine} (fresh : Fresh config machine) :
    Program.Ensures Machine.Allowed (Starting crc32c config) (fun _ _ => True)
      (prepareDirectory crc32c config) machine := by
  unfold prepareDirectory
  refine (createDirectories_ensures fresh _).bind fun error now starting fresh => ?_
  refine (afterNone_ensures starting (fun _ => fresh)
    (createDirectories_ensures fresh _)).bind fun error now starting fresh => ?_
  refine (afterNone_ensures starting (fun _ => fresh)
    (createDirectories_ensures fresh _)).bind fun error now starting fresh => ?_
  exact afterNone_ensures starting (fun _ => trivial) (freezeIdentity_ensures fresh)

/-- A log directory without files has no segment to open. -/
theorem scan_ensures {machine : Machine} (starting : Starting crc32c config machine)
    (maxRecordBytes : Nat) (policy : TailPolicy) (firstExpected : Lsn) :
    Program.Ensures Machine.Allowed (Starting crc32c config)
      (fun scan _ => scan.activeSegment = none)
      (scanWalDirectory crc32c maxRecordBytes config.layout.walDir policy firstExpected)
      machine := by
  unfold scanWalDirectory
  refine Program.ensures_perform_bind.mpr ⟨starting, fun answer after asked => ?_⟩
  obtain ⟨rfl, ⟨error, rfl⟩ | ⟨files, rfl, listed⟩⟩ := allowed_listFiles asked
  · simp only
    split
    · exact ⟨starting, rfl⟩
    · exact ⟨starting, rfl⟩
  have empty : files = [] := by
    rw [filesIn_empty fun path inside =>
      Disk.contents_eq_none.mp (starting.wal path inside).now] at listed
    exact listed.eq_nil
  subst empty
  simp only [List.filterMap_nil, List.insertionSort_nil, List.head?_nil, Option.map_none,
    Option.getD_none, true_and]
  split
  · exact ⟨starting, rfl⟩
  · exact ⟨starting, rfl⟩

theorem floorScan_activeSegment {scan floored : WalScanResult} {exhausted : Bool}
    (accepted : floorScan config scan = .ok (floored, exhausted)) :
    floored.activeSegment = scan.activeSegment := by
  unfold floorScan at accepted
  split at accepted
  · split at accepted
    · cases accepted
      rfl
    · split at accepted
      · cases accepted
      · split at accepted
        · cases accepted
          rfl
        · cases accepted
          rfl
  · cases accepted
    rfl

/-- Wherever a first start is stopped, the manifest is missing or complete and the log has
no file. -/
theorem start_ensures {machine : Machine} (fresh : Fresh config machine) :
    Program.Ensures Machine.Allowed (Starting crc32c config) (fun _ _ => True)
      (WalWriter.start crc32c config) machine := by
  unfold WalWriter.start
  split
  · exact ⟨fresh.starting, trivial⟩
  refine (prepareDirectory_ensures fresh).bind fun error now starting _ => ?_
  split
  · exact ⟨starting, trivial⟩
  refine (scan_ensures starting _ _ _).bind fun scan now starting inactive => ?_
  split
  · exact ⟨starting, trivial⟩
  split
  · exact ⟨starting, trivial⟩
  · rename_i floored exhausted accepted
    rw [floorScan_activeSegment accepted, inactive]
    exact ⟨starting, trivial⟩

/-- After the crash of a first start: everything left is settled, the manifest missing or
complete and the log without a file. -/
structure Restarted (crc32c : ByteString → UInt32) (config : WalConfig) (machine : Machine) :
    Prop where
  counter : machine.tempCounter = 0
  settled : ∀ path, machine.disk.Durable path (machine.disk.contents path)
  manifest : machine.disk.contents config.layout.directoryManifestPath = none ∨
    machine.disk.contents config.layout.directoryManifestPath = some (identityBytes crc32c config)
  wal : ∀ path : DiskPath, path.directory = config.layout.walDir → machine.disk.live[path]? = none

theorem restarted_of_crash {before restarted : Machine} (fresh : Fresh config before)
    (crashed : CrashedIn (WalWriter.start crc32c config) before restarted) :
    Restarted crc32c config restarted := by
  obtain ⟨stopped, now, reached, disk, _, counter⟩ := crashed
  have starting := ((start_ensures fresh).sound reached).1
  refine ⟨counter, disk.durable, starting.manifest.crash disk, fun path inside => ?_⟩
  exact Disk.contents_eq_none.mp ((starting.wal path inside).crash disk)

/-- Healthy restarts of a settled machine change nothing on its disk. -/
theorem Restarted.again {machine after next : Machine} (restarted : Restarted crc32c config machine)
    (unchanged : after.disk = machine.disk) (restarts : after.Restarts next) :
    Restarted crc32c config next ∧ ∀ path, next.disk.contents path = machine.disk.contents path := by
  have same : ∀ path, next.disk.contents path = machine.disk.contents path := fun path =>
    (restarted.settled path).crash (unchanged ▸ restarts.1)
  refine ⟨⟨restarts.2.2, restarts.1.durable, ?_, fun path inside => ?_⟩, same⟩
  · rw [same]
    exact restarted.manifest
  · rw [← Disk.contents_eq_none, same, Disk.contents_eq_none]
    exact restarted.wal path inside

/-- The machine once the directories of the branch exist. -/
def withDirectories (machine : Machine) (layout : DurableLayout) : Machine :=
  ((((Machine.perform (.createDirectories layout.walDir) machine).2.perform
    (.createDirectories layout.manifestDir)).2).perform
      (.createDirectories layout.checkpointDir)).2

@[simp] theorem withDirectories_disk (machine : Machine) (layout : DurableLayout) :
    (withDirectories machine layout).disk = machine.disk :=
  rfl

@[simp] theorem withDirectories_tempCounter (machine : Machine) (layout : DurableLayout) :
    (withDirectories machine layout).tempCounter = machine.tempCounter :=
  rfl

theorem withDirectories_contains (machine : Machine) (layout : DurableLayout) :
    (withDirectories machine layout).directories.contains layout.walDir := by
  have inside : layout.walDir ∈ Machine.withParents layout.walDir := by
    simp [Machine.withParents, DurableLayout.walDir]
  simp only [withDirectories, Machine.perform, List.contains_iff_mem, List.mem_append,
    List.mem_filter]
  by_cases known : layout.walDir ∈ machine.directories
  · exact .inl (.inl (.inl known))
  · exact .inl (.inl (.inr ⟨inside, by simpa using known⟩))

theorem run_prepareDirectory (machine : Machine) :
    Program.run Machine.perform (prepareDirectory crc32c config) machine =
      Program.run Machine.perform (freezeIdentity crc32c config)
        (withDirectories machine config.layout) := by
  unfold prepareDirectory
  simp only [ask, Program.run_perform_bind, Machine.perform, afterNone, if_true]
  rfl

/-- An empty log is scanned without an error and without a segment. -/
theorem run_scan_empty {machine : Machine} {directory : Directory}
    (known : machine.hasDirectory directory)
    (empty : ∀ path : DiskPath, path.directory = directory → machine.disk.live[path]? = none)
    (maxRecordBytes : Nat) (policy : TailPolicy) (firstExpected : Lsn) :
    ∃ next, Program.run Machine.perform
      (scanWalDirectory crc32c maxRecordBytes directory policy firstExpected) machine =
        ({ nextLsn := next }, machine) := by
  unfold scanWalDirectory
  simp only [ask, Program.run_perform_bind, Machine.perform, known, if_true, filesIn_empty empty,
    List.filterMap_nil, List.insertionSort_nil, List.head?_nil, Option.map_none, Option.getD_none,
    true_and]
  by_cases valid : firstExpected.valid
  · refine ⟨firstExpected, ?_⟩
    simp [valid, scanSegments]
  · have invalid : ¬ Lsn.valid 0 := by simp [Lsn.valid]
    exact ⟨0, by simp [valid, invalid]⟩

theorem floorScan_empty (config : WalConfig) (next : Lsn) :
    ∃ floored exhausted, floorScan config { nextLsn := next } = .ok (floored, exhausted) := by
  unfold floorScan
  split
  · split
    · exact ⟨_, _, rfl⟩
    · rw [if_neg (by simp [Lsn.valid])]
      split
      · exact ⟨_, _, rfl⟩
      · exact ⟨_, _, rfl⟩
  · exact ⟨_, _, rfl⟩

/-- With an empty log a start does what it does about the manifest. -/
theorem run_start {machine prepared : Machine} {error : PersistenceError} (valid : config.Valid)
    (ran : Program.run Machine.perform (freezeIdentity crc32c config)
      (withDirectories machine config.layout) = (error, prepared))
    (known : prepared.directories.contains config.layout.walDir)
    (empty : ∀ path : DiskPath, path.directory = config.layout.walDir →
      prepared.disk.live[path]? = none) :
    (Program.run Machine.perform (WalWriter.start crc32c config) machine).1.1 = error ∧
      (Program.run Machine.perform (WalWriter.start crc32c config) machine).2 = prepared := by
  unfold WalWriter.start
  rw [if_neg (not_not.mpr valid), Program.run_bind, run_prepareDirectory, ran]
  by_cases failed : error = .none
  · subst failed
    rw [if_neg (by simp)]
    obtain ⟨next, scanned⟩ := @run_scan_empty crc32c _ _ (Machine.hasDirectory_of_contains known) empty config.maxRecordBytes
      .trimActiveTail (if config.recoveryFloorLsn.valid then 0 else firstLsn)
    obtain ⟨floored, exhausted, accepted⟩ := floorScan_empty config next
    rw [Program.run_bind, scanned]
    have inactive := floorScan_activeSegment accepted
    simp only [ne_eq, not_true_eq_false, if_false, accepted, inactive]
    exact ⟨rfl, rfl⟩
  · rw [if_pos failed]
    exact ⟨rfl, rfl⟩

theorem run_freezeIdentity_missing {machine : Machine}
    (missing : machine.disk.contents config.layout.directoryManifestPath = none) :
    Program.run Machine.perform (freezeIdentity crc32c config) machine =
      Program.run Machine.perform (atomicPublish config.layout.directoryManifestPath
        (identityBytes crc32c config)) machine := by
  unfold freezeIdentity loadDirectoryManifest
  rw [Program.run_bind]
  simp only [ask, Program.run_perform_bind, Machine.perform, missing]
  rfl

theorem run_freezeIdentity_present {machine : Machine} (valid : config.Valid)
    (present : machine.disk.contents config.layout.directoryManifestPath =
      some (identityBytes crc32c config)) :
    Program.run Machine.perform (freezeIdentity crc32c config) machine = (.none, machine) := by
  have decoded : decodeManifest crc32c (identityBytes crc32c config) =
      .ok { world := config.world, branch := config.branch } :=
    decodeManifest_encode crc32c rfl valid.world valid.branch
  unfold freezeIdentity loadDirectoryManifest
  rw [Program.run_bind]
  simp only [ask, Program.run_perform_bind, Machine.perform, present]
  simp [decoded]

/-- A start on the settled remains of a first one. -/
theorem start_outcome {machine : Machine} (valid : config.Valid)
    (restarted : Restarted crc32c config machine) :
    if machine.disk.contents config.layout.directoryManifestPath = none ∧
        machine.disk.live[tempPath config.layout.directoryManifestPath 1]? ≠ none then
      (Program.run Machine.perform (WalWriter.start crc32c config) machine).1.1 = .ioFailure ∧
        (Program.run Machine.perform (WalWriter.start crc32c config) machine).2.disk = machine.disk
    else (Program.run Machine.perform (WalWriter.start crc32c config) machine).1.1 = .none := by
  have known := withDirectories_contains machine config.layout
  have first : (withDirectories machine config.layout).tempCounter + 1 = 1 := by
    simp [restarted.counter]
  split
  · rename_i blocked
    have frozen := @run_freezeIdentity_missing crc32c config
      (withDirectories machine config.layout) blocked.1
    rw [run_atomicPublish_taken _ _ (by rw [first]; exact blocked.2)] at frozen
    obtain ⟨failed, unchanged⟩ := run_start valid frozen known restarted.wal
    exact ⟨failed, by rw [unchanged]; rfl⟩
  · rename_i unblocked
    rcases restarted.manifest with missing | present
    · have free : machine.disk.live[tempPath config.layout.directoryManifestPath 1]? = none := by
        by_contra taken
        exact unblocked ⟨missing, taken⟩
      have frozen := @run_freezeIdentity_missing crc32c config
        (withDirectories machine config.layout) missing
      rw [run_atomicPublish_free _ _ (by rw [first]; exact free)] at frozen
      refine (run_start valid frozen known fun path inside => ?_).1
      have elsewhere : ∀ target : DiskPath, target.directory = config.layout.manifestDir →
          path ≠ target := by
        intro target other same
        exact wal_ne_manifests config.layout (inside.symm.trans (same ▸ other))
      have kept := renamed_keeps machine.disk (identityBytes crc32c config)
        (elsewhere (tempPath config.layout.directoryManifestPath
          ((withDirectories machine config.layout).tempCounter + 1)) rfl)
        (elsewhere config.layout.directoryManifestPath rfl)
      exact kept.live.trans (restarted.wal path inside)
    · have frozen := @run_freezeIdentity_present crc32c config
        (withDirectories machine config.layout) valid present
      exact (run_start valid frozen known restarted.wal).1

/-- Later starts get past the first one's remains exactly when the next start does. -/
theorem startsEventually_iff {machine : Machine} (valid : config.Valid)
    (restarted : Restarted crc32c config machine) :
    StartsEventually crc32c config machine ↔
      (machine.disk.live[config.layout.directoryManifestPath]? ≠ none ∨
        machine.disk.live[tempPath config.layout.directoryManifestPath 1]? = none) := by
  constructor
  · intro starts
    induction starts with
    | @now machine succeeds =>
      have outcome := start_outcome valid restarted
      by_contra blocked
      push Not at blocked
      rw [if_pos ⟨Disk.contents_eq_none.mpr blocked.1, blocked.2⟩, succeeds] at outcome
      exact absurd outcome.1 (by simp)
    | @later machine next restarts _ ih =>
      have outcome := start_outcome valid restarted
      by_contra blocked
      push Not at blocked
      rw [if_pos ⟨Disk.contents_eq_none.mpr blocked.1, blocked.2⟩] at outcome
      obtain ⟨again, same⟩ := restarted.again outcome.2 restarts
      have stillBlocked : ∀ path : DiskPath,
          next.disk.live[path]? = none ↔ machine.disk.live[path]? = none := by
        intro path
        rw [← Disk.contents_eq_none, same, Disk.contents_eq_none]
      rcases ih again with present | free
      · exact present ((stillBlocked _).mpr blocked.1)
      · exact blocked.2 ((stillBlocked _).mp free)
  · intro unblocked
    have outcome := start_outcome valid restarted
    rw [if_neg] at outcome
    · exact .now outcome
    · rintro ⟨missing, taken⟩
      rcases unblocked with present | free
      · exact present (Disk.contents_eq_none.mp missing)
      · exact taken free

end Start

/-- After a crash inside a publication a later one of the same name, at any point of the
restarted process, succeeds exactly when its temporary name is free; and starts of the log
writer after a crashed first one come to succeed exactly when that one had published the
manifest or left no first temporary file of it. -/
theorem publication_retry_iff_name_free (crc32c : ByteString → UInt32) :
    (∀ (before restarted : Machine) (finalPath : DiskPath) (crashing contents : ByteString)
      (α : Type) (earlier : FileProgram α),
      CrashedIn (atomicPublish finalPath crashing) before restarted →
      let retrying := (Program.run Machine.perform earlier restarted).2
      Publishes retrying finalPath contents ↔
        retrying.disk.live[retrying.nextTempPath finalPath]? = none) ∧
    ∀ (config : WalConfig) (before restarted : Machine), config.Valid → Fresh config before →
      CrashedIn (WalWriter.start crc32c config) before restarted →
      (StartsEventually crc32c config restarted ↔
        (restarted.disk.live[config.layout.directoryManifestPath]? ≠ none ∨
          restarted.disk.live[tempPath config.layout.directoryManifestPath 1]? = none)) := by
  constructor
  · intro before restarted finalPath crashing contents α earlier _ retrying
    exact publishes_iff retrying finalPath contents
  · intro config before restarted valid fresh crashed
    exact startsEventually_iff valid (restarted_of_crash fresh crashed)

section Leftover

/-- A disk that is left with all of its entries. -/
theorem restarts_whole {now : Machine}
    (complete : ∀ (path : DiskPath) (file : DiskFile), now.disk.live[path]? = some file → file.synced = file.bytes.length) :
    now.Restarts { disk := { live := now.disk.live }, directories := now.directories } := by
  refine ⟨⟨fun path => ⟨now.disk.live[path]?, List.mem_cons_self, ?_⟩, fun _ => rfl⟩, rfl, rfl⟩
  cases found : now.disk.live[path]? with
  | none => trivial
  | some file =>
    have whole := complete path file found
    exact ⟨List.prefix_refl _, whole.le, whole⟩

def leftoverConfig : WalConfig where
  durableRoot := ["durable".toList]
  world := 1
  branch := Vector.replicate 16 1

def leftoverManifest : DiskPath := leftoverConfig.layout.directoryManifestPath

/-- A disk with an empty first temporary file of the manifest. -/
def leftoverDisk : FileSystem :=
  { live := (∅ : Std.ExtTreeMap DiskPath DiskFile DiskPath.cmp).insert
      (tempPath leftoverManifest 1) {} }

theorem restarts_leftover {now : Machine}
    (left : now.disk.live = leftoverDisk.live) :
    now.Restarts { disk := leftoverDisk, directories := now.directories } := by
  have restarts := @restarts_whole now fun path file found => by
    rw [left, leftoverDisk, lookup_insert] at found
    split at found
    · obtain rfl := Option.some.inj found
      rfl
    · simp at found
  rwa [left] at restarts

/-- The process that finds the leftover. -/
def leftoverMachine (directories : List Directory) : Machine :=
  { disk := leftoverDisk, directories := directories }

theorem leftover_blocks : leftoverDisk.live[tempPath leftoverManifest 1]? ≠ none ∧
    leftoverDisk.live[leftoverManifest]? = none := by
  have different := tempPath_ne leftoverManifest 1
  simp [leftoverDisk, lookup_insert, different.symm]

/-- A publication stopped after the creation of its temporary file. -/
theorem crashed_publication : CrashedIn (atomicPublish leftoverManifest []) {}
    (leftoverMachine []) :=
  ⟨_, _, Program.runFor_reaches (fun _ _ => .inl (.inl rfl)) 2 _ _, restarts_leftover rfl⟩

/-- A first start stopped after the creation of the temporary file of the manifest. -/
theorem crashed_start : ∃ directories, CrashedIn (WalWriter.start (fun _ => 0) leftoverConfig) {}
    (leftoverMachine directories) :=
  ⟨_, _, _, Program.runFor_reaches (fun _ _ => .inl (.inl rfl)) 6 _ _, restarts_leftover rfl⟩

theorem leftoverConfig_valid : leftoverConfig.Valid := by
  decide

theorem fresh_empty (config : WalConfig) : Fresh config {} :=
  ⟨Disk.durable_absent (by simp) rfl, fun _ _ => Disk.durable_absent (by simp) rfl⟩

/-- A publication that crashed can fail when it is tried again, and a directory whose first
start crashed can be one that no later start succeeds on. -/
theorem publication_retry_fails :
    (¬ ∀ (before restarted : Machine) (finalPath : DiskPath) (contents : ByteString),
      CrashedIn (atomicPublish finalPath contents) before restarted →
        Publishes restarted finalPath contents) ∧
    ¬ ∀ (crc32c : ByteString → UInt32) (config : WalConfig) (before restarted : Machine),
      config.Valid → Fresh config before →
        CrashedIn (WalWriter.start crc32c config) before restarted →
          StartsEventually crc32c config restarted := by
  constructor
  · intro retried
    have publishes := retried _ _ _ _ crashed_publication
    exact leftover_blocks.1 ((publishes_iff _ _ _).mp publishes)
  · intro retried
    obtain ⟨directories, crashed⟩ := crashed_start
    have fresh := fresh_empty leftoverConfig
    have starts := retried _ _ _ _ leftoverConfig_valid fresh crashed
    rcases (startsEventually_iff leftoverConfig_valid (restarted_of_crash fresh crashed)).mp starts
      with present | free
    · exact present leftover_blocks.2
    · exact leftover_blocks.1 free

/-- After the crash the first publication of the process fails and the second one succeeds. -/
theorem publication_retry_iff_name_free_second :
    ¬ Publishes (leftoverMachine []) leftoverManifest [] ∧
    Publishes { leftoverMachine [] with tempCounter := 1 } leftoverManifest [] ∧
    ∃ directories, ¬ StartsEventually (fun _ => 0) leftoverConfig (leftoverMachine directories) := by
  obtain ⟨retry, start⟩ := publication_retry_iff_name_free fun _ => 0
  obtain ⟨directories, crashed⟩ := crashed_start
  refine ⟨fun publishes => ?_, ?_, directories, fun starts => ?_⟩
  · exact leftover_blocks.1 ((retry _ _ _ _ [] PersistenceError (pure .none)
      crashed_publication).mp publishes)
  · refine (retry _ _ _ _ [] Nat (ask .nextTempCounter) crashed_publication).mpr ?_
    have different : tempPath leftoverManifest 2 ≠ tempPath leftoverManifest 1 := by decide
    exact (lookup_insert _ _ _ _).trans ((if_neg different).trans (by simp))
  · rcases (start _ _ _ leftoverConfig_valid (fresh_empty _) crashed).mp starts with present | free
    · exact present leftover_blocks.2
    · exact leftover_blocks.1 free

end Leftover

end GeoWorld.Persistence
