import Mathlib
import GeoWorld.Persistence.PublishCrash
import GeoWorld.Persistence.RecoveryReads

/-!
A fork into a directory that is in use. It replaces the manifest of the branch and nothing
else, so a recovery that does not come to the manifest is the same as before; one that does
starts at the checkpoint of the last fork.
-/

namespace GeoWorld.Persistence

open WorldModel Library PrefixCode

/-- The arguments of `fork_branch_at_checkpoint`. -/
structure ForkCall where
  parentLayout : DurableLayout
  childLayout : DurableLayout
  world : UInt64
  parent : BranchId
  child : BranchId
  checkpointTick : Option UInt64 := none

namespace ForkCall

def parentLoader (call : ForkCall) : CheckpointLoader :=
  ⟨call.parentLayout, call.world, call.parent⟩

def childLoader (call : ForkCall) : CheckpointLoader :=
  ⟨call.childLayout, call.world, call.child⟩

def program (formats : Formats) (call : ForkCall) :
    FileProgram (Except PersistenceError BranchManifestData) :=
  forkBranchAtCheckpoint formats call.parentLayout call.childLayout call.world call.parent
    call.child call.checkpointTick

def manifestPath (call : ForkCall) : DiskPath :=
  branchManifestPath call.childLayout

/-- What the fork writes if it selects this checkpoint. -/
def manifestBytes (formats : Formats) (call : ForkCall) (selected : CheckpointInfo) : ByteString :=
  encodeBranchManifest formats
    (forkManifest call.childLayout call.world call.parent call.child selected)

/-- The arguments that are not refused. -/
structure Accepted (call : ForkCall) : Prop where
  world : call.world ≠ 0
  parent : call.parent.valid
  child : call.child.valid
  apart : call.parent ≠ call.child

/-- A valid checkpoint of the parent, of the tick asked for. -/
def MaySelect (formats : Formats) (call : ForkCall) (machine : Machine) (info : CheckpointInfo) :
    Prop :=
  ValidCheckpoint formats call.parentLoader machine.disk.contents info ∧
    ∀ tick, call.checkpointTick = some tick → info.anchor.completedTick = tick

/-- The name that the publication first writes to is free. -/
def TempFree (call : ForkCall) (machine : Machine) : Prop :=
  machine.disk.contents (tempPath call.manifestPath (machine.tempCounter + 1)) = none

end ForkCall

section Values

variable (formats : Formats) (loader : CheckpointLoader) (policy : TailPolicy) (machine : Machine)

/-- The result of `RecoveryPlanner::build`. -/
def recovery : Except PersistenceError RecoveryPlan :=
  ((buildRecoveryPlan formats loader policy).run Machine.perform machine).1

def baseOf : Except PersistenceError (Option LoadedCheckpoint) :=
  ((recoveryBase formats loader).run Machine.perform machine).1

/-- The replay of the log of the branch from a base. -/
def replayFrom (checkpoint : Option LoadedCheckpoint) : Except PersistenceError RecoveryPlan :=
  planReplay checkpoint ((scanWalDirectory formats.crc32c (4 * 1024 * 1024) loader.layout.walDir
    policy (if checkpoint.isSome then 0 else firstLsn)).run Machine.perform machine).1

end Values

section Reads

variable {formats : Formats} {loader : CheckpointLoader} {machine : Machine}

theorem run_ensures {α : Type} {always : Machine → Prop} {post : α → Machine → Prop}
    {program : FileProgram α}
    (ensures : Program.Ensures Machine.Succeeds always post program machine) :
    always (program.run Machine.perform machine).2 ∧
      post (program.run Machine.perform machine).1 (program.run Machine.perform machine).2 := by
  have reached := @Program.run_reaches _ _ _ _ Machine.Succeeds Machine.perform
    (fun _ _ => .inl rfl) program machine
  have sound := ensures.sound reached
  exact ⟨sound.1, sound.2 _ rfl⟩

/-- The program leaves every machine as it is. -/
def ReadsOnly {α : Type} (program : FileProgram α) : Prop :=
  ∀ machine, (program.run Machine.perform machine).2 = machine

theorem ReadsOnly.pure {α : Type} (value : α) : ReadsOnly (pure value : FileProgram α) :=
  fun _ => rfl

theorem ReadsOnly.bind {α β : Type} {program : FileProgram α} {rest : α → FileProgram β}
    (first : ReadsOnly program) (second : ∀ value, ReadsOnly (rest value)) :
    ReadsOnly (program >>= rest) := by
  intro machine
  rw [Program.run_bind, second, first]

theorem verifyCheckpointPair_readsOnly {checkpointDir : Directory} {manifestPath : DiskPath}
    {world : UInt64} {branch : BranchId} :
    ReadsOnly (verifyCheckpointPair formats checkpointDir manifestPath world branch) :=
  fun _ => (run_ensures (verifyCheckpointPair_ensures _ _ _ _)).1

theorem listValid_readsOnly : ReadsOnly (listValid formats loader) :=
  fun _ => (run_ensures listValid_ensures).1

theorem load_readsOnly {info : CheckpointInfo} : ReadsOnly (load formats loader info) := by
  refine verifyCheckpointPair_readsOnly.bind fun verified => ?_
  cases verified with
  | error error => exact .pure _
  | ok verified => exact .pure _

theorem branchBase_readsOnly : ReadsOnly (branchBase formats loader) := by
  refine ReadsOnly.bind (ReadsOnly.bind (fun _ => rfl) fun read => ?_) fun decoded => ?_
  · cases read with
    | error error => exact .pure _
    | ok bytes => exact .pure _
  cases decoded with
  | error error => exact .pure _
  | ok manifest =>
    simp only
    split
    · exact .pure _
    refine listValid_readsOnly.bind fun valid => ?_
    cases valid with
    | error error => exact .pure _
    | ok found =>
      simp only
      split
      · exact .pure _
      split
      · exact .pure _
      · exact load_readsOnly.bind fun loaded => .pure _

theorem recoveryBase_readsOnly : ReadsOnly (recoveryBase formats loader) := by
  refine ReadsOnly.bind (fun _ => (run_ensures latestValid_ensures).1) fun latest => ?_
  cases latest with
  | ok info => exact load_readsOnly.bind fun loaded => .pure _
  | error error =>
    simp only
    split
    · exact .pure _
    · exact branchBase_readsOnly

/-- A recovery replays the log from its base. -/
theorem recovery_eq (policy : TailPolicy) :
    recovery formats loader policy machine =
      (baseOf formats loader machine).bind (replayFrom formats loader policy machine) := by
  unfold recovery buildRecoveryPlan baseOf
  rw [Program.run_bind, recoveryBase_readsOnly]
  cases ((recoveryBase formats loader).run Machine.perform machine).1 with
  | error error => rfl
  | ok checkpoint =>
    simp only
    rw [Program.run_bind]
    rfl

end Reads

section Selection

variable {formats : Formats} {loader : CheckpointLoader}
  {contents other : DiskPath → Option ByteString} {info : CheckpointInfo}

/-- The manifest tells the checkpoint. -/
theorem ValidCheckpoint.unique {twin : CheckpointInfo}
    (valid : ValidCheckpoint formats loader contents info)
    (again : ValidCheckpoint formats loader contents twin)
    (same : info.manifestPath = twin.manifestPath) : info = twin := by
  have checked := valid.2.2
  rw [same, again.2.2] at checked
  exact (Option.some.inj checked).symm

/-- The name of a candidate is not one that a normal path leaves out. -/
theorem lexicallyNormal_candidate {path : DiskPath} (candidate : manifestCandidate path.name) :
    lexicallyNormal path.components = lexicallyNormal path.directory ++ [path.name] := by
  have long : 2 < path.name.length := by
    by_contra short
    have named : (parseManifestTick path.name).isSome := (Bool.and_eq_true_iff.mp candidate).2
    have few : path.name.length < checkpointPrefix.length + checkpointDigits +
        checkpointManifestExtension.length := by
      have digits : checkpointDigits = 20 := rfl
      omega
    simp [parseManifestTick, few] at named
  have ordinary : ∀ front, normalStep front path.name = path.name :: front := by
    intro front
    have one : path.name ≠ [] := by
      rintro short
      simp [short] at long
    have two : path.name ≠ currentComponent := by
      rintro short
      simp [short, currentComponent] at long
    have three : path.name ≠ parentComponent := by
      rintro short
      simp [short, parentComponent] at long
    simp [normalStep, one, two, three]
  simp [lexicallyNormal, DiskPath.components, List.foldl_append, ordinary]

/-- Among the valid checkpoints the base path names one. -/
theorem find_base {found : List CheckpointInfo}
    (members : ∀ info, info ∈ found ↔ ValidCheckpoint formats loader contents info)
    (valid : ValidCheckpoint formats loader contents info) :
    (found.find? fun candidate => lexicallyNormal candidate.manifestPath.components =
      lexicallyNormal info.manifestPath.components) = some info := by
  cases chosen : found.find? fun candidate =>
      lexicallyNormal candidate.manifestPath.components =
        lexicallyNormal info.manifestPath.components with
  | none =>
    have missed := List.find?_eq_none.mp chosen info ((members info).mpr valid)
    simp at missed
  | some twin =>
    have again := (members twin).mp (List.mem_of_find?_eq_some chosen)
    have normal : lexicallyNormal twin.manifestPath.components =
        lexicallyNormal info.manifestPath.components := by
      simpa using List.find?_some chosen
    rw [lexicallyNormal_candidate again.2.1, lexicallyNormal_candidate valid.2.1] at normal
    have name := (List.cons.inj (List.append_inj' normal rfl).2).1
    have path : twin.manifestPath = info.manifestPath := by
      have places : twin.manifestPath.directory = info.manifestPath.directory :=
        again.1.trans valid.1.symm
      cases one : twin.manifestPath
      cases two : info.manifestPath
      simp_all
    rw [again.unique valid path]

end Selection

section Bases

variable {formats : Formats} {call : ForkCall} {machine : Machine} {info : CheckpointInfo}

/-- A checkpoint with the blocks that its data file holds. -/
def Holds (formats : Formats) (loader : CheckpointLoader) (machine : Machine)
    (loaded : LoadedCheckpoint) : Prop :=
  (verifiedPair formats machine.disk.contents loader.layout.checkpointDir
    loaded.info.manifestPath loader.world loader.branch).map (fun verified =>
      verified.data.blocks) = some loaded.blocks

theorem ValidCheckpoint.holds {loader : CheckpointLoader}
    (valid : ValidCheckpoint formats loader machine.disk.contents info) :
    ∃ loaded, loaded.info = info ∧ Holds formats loader machine loaded := by
  obtain ⟨verified, checked, _⟩ := Option.map_eq_some_iff.mp valid.2.2
  refine ⟨⟨info, verified.data.blocks⟩, rfl, ?_⟩
  simp [Holds, checked]

theorem run_load {loader : CheckpointLoader} {loaded : LoadedCheckpoint}
    (holds : Holds formats loader machine loaded) :
    (load formats loader loaded.info).run Machine.perform machine = (.ok loaded, machine) := by
  obtain ⟨verified, checked, blocks⟩ := Option.map_eq_some_iff.mp holds
  have read := run_ensures (@verifyCheckpointPair_ensures formats machine
    loader.layout.checkpointDir loaded.info.manifestPath loader.world loader.branch)
  unfold load
  rw [Program.run_bind, read.1]
  have passed := read.2
  rw [checked] at passed
  rw [eq_ok_of_toOption passed]
  simp [blocks]

/-- Without a checkpoint of its own the base of a branch is that of its manifest. -/
theorem baseOf_unowned {loader : CheckpointLoader}
    (unowned : ∀ own, ¬ ValidCheckpoint formats loader machine.disk.contents own) :
    baseOf formats loader machine = ((branchBase formats loader).run Machine.perform machine).1 := by
  have latest := run_ensures (@latestValid_ensures formats loader machine)
  unfold baseOf recoveryBase
  rw [Program.run_bind, latest.1]
  obtain ⟨own, _, outcome⟩ | ⟨missing, _⟩ := latest.2
  · exact absurd outcome.valid (unowned own)
  · rw [missing]
    rfl

/-- The base is read back from the manifest that the fork wrote. -/
theorem baseOf_forked {loaded : LoadedCheckpoint}
    (lawful : ∀ table, formats.readBranchManifest (formats.buildBranchManifest table) = some table)
    (accepted : call.Accepted)
    (unowned : ∀ own, ¬ ValidCheckpoint formats call.childLoader machine.disk.contents own)
    (valid : ValidCheckpoint formats call.parentLoader machine.disk.contents loaded.info)
    (holds : Holds formats call.parentLoader machine loaded)
    (written : machine.disk.contents call.manifestPath =
      some (call.manifestBytes formats loaded.info)) :
    baseOf formats call.childLoader machine = .ok (some loaded) := by
  have decoded : decodeBranchManifest formats (call.manifestBytes formats loaded.info) =
      .ok (forkManifest call.childLayout call.world call.parent call.child loaded.info) := by
    refine decodeBranchManifest_encode formats lawful accepted.world accepted.child
      accepted.parent ?_ ?_
    · simp [forkManifest, DiskPath.components]
    · simp [forkManifest, DurableLayout.walDir]
  have root : loaded.info.manifestPath.components.dropLast.dropLast = call.parentLayout.root := by
    have inside := valid.1
    simp [DiskPath.components, inside, ForkCall.parentLoader, DurableLayout.checkpointDir]
  have listed := run_ensures (@listValid_ensures formats call.parentLoader machine)
  obtain ⟨found, all, members, _⟩ := listed.2
  have opened : (loadBranchManifest formats (branchManifestPath call.childLoader.layout)).run
      Machine.perform machine =
        (decodeBranchManifest formats (call.manifestBytes formats loaded.info), machine) := by
    have held : machine.disk.contents (branchManifestPath call.childLoader.layout) =
        some (call.manifestBytes formats loaded.info) := written
    unfold loadBranchManifest
    rw [ask, Program.run_perform_bind]
    simp only [Machine.perform, held]
    rfl
  rw [baseOf_unowned unowned]
  unfold branchBase
  rw [Program.run_bind, opened, decoded]
  simp only [forkManifest, ForkCall.childLoader, ne_eq, not_true_eq_false, or_self, if_false, root]
  change (Program.run Machine.perform (listValid formats call.parentLoader >>= _) machine).1 = _
  rw [Program.run_bind, listed.1, all]
  have chosen := find_base members valid
  simp only
  split
  · rename_i missing
    exact absurd (missing.symm.trans chosen) (by simp)
  rename_i selected named
  obtain rfl : selected = loaded.info := Option.some.inj (named.symm.trans chosen)
  simp only [not_true_eq_false, or_self, if_false]
  change (Program.run Machine.perform (load formats call.parentLoader loaded.info >>= _)
    machine).1 = _
  rw [Program.run_bind, run_load holds]
  rfl

end Bases

section Forking

variable {formats : Formats} {call : ForkCall} {before now : Machine} {info : CheckpointInfo}

/-- The files outside the manifest directory of the child. -/
def Outside (call : ForkCall) (path : DiskPath) : Prop :=
  path.directory ≠ call.childLayout.manifestDir

/-- No checkpoint directory is a manifest directory. -/
theorem outside_checkpoints (layout : DurableLayout) :
    SeesIn (Outside call) layout.checkpointDir := by
  intro path inside same
  have names := congrArg List.getLast? (inside.symm.trans same)
  simp [DurableLayout.checkpointDir, DurableLayout.manifestDir] at names

theorem outside_log (layout : DurableLayout) : SeesIn (Outside call) layout.walDir := by
  intro path inside same
  have names := congrArg List.getLast? (inside.symm.trans same)
  simp [DurableLayout.walDir, DurableLayout.manifestDir] at names

theorem ValidCheckpoint.agree {loader : CheckpointLoader}
    (agree : AgreeOn (Outside call) before now)
    (valid : ValidCheckpoint formats loader before.disk.contents info) :
    ValidCheckpoint formats loader now.disk.contents info := by
  obtain ⟨_, manifest, _, _, _, place, _⟩ := valid.pair
  refine valid.congr ?_ ?_
  · exact (agree _ (outside_checkpoints _ _ valid.1)).symm
  · exact (agree _ (outside_checkpoints _ _ (by rw [place]; rfl))).symm

theorem Holds.agree {loader : CheckpointLoader} {loaded : LoadedCheckpoint}
    (agree : AgreeOn (Outside call) before now)
    (inside : loaded.info.manifestPath.directory = loader.layout.checkpointDir)
    (holds : Holds formats loader before loaded) : Holds formats loader now loaded := by
  have known := @outside_checkpoints call loader.layout
  have stored : ∀ name, before.disk.contents (loader.layout.checkpointDir.file name) =
      now.disk.contents (loader.layout.checkpointDir.file name) :=
    fun name => agree _ (known _ rfl)
  unfold Holds verifiedPair at *
  simp only [← agree _ (known _ inside), ← stored]
  exact holds

/-- The base replays to the same plan on machines that agree outside the manifests. -/
theorem replayFrom_agree {policy : TailPolicy} {checkpoint : Option LoadedCheckpoint}
    (agree : AgreeOn (Outside call) before now) :
    replayFrom formats call.childLoader policy now checkpoint =
      replayFrom formats call.childLoader policy before checkpoint :=
  planReplay_alike agree.symm (outside_log _)

/-- A branch with a checkpoint of its own never comes to its manifest. -/
theorem baseOf_owned {loader : CheckpointLoader} {own : CheckpointInfo}
    (agree : AgreeOn (Outside call) before now)
    (valid : ValidCheckpoint formats loader before.disk.contents own) :
    baseOf formats loader now = baseOf formats loader before := by
  have seen := @outside_checkpoints call loader.layout
  have latest := (run_ensures (@latestValid_ensures formats loader before)).2
  obtain ⟨same, left, places⟩ := @latestValid_alike _ formats _ seen now before agree.symm
  unfold baseOf recoveryBase
  rw [Program.run_bind, Program.run_bind, same]
  rw [same] at places
  rcases latest with ⟨chosen, found, _⟩ | ⟨_, none⟩
  · rw [found] at places ⊢
    have loads : ReadsAlike (Outside call) (fun _ => True)
        (load formats loader chosen >>= fun loaded => pure (loaded.map some)) :=
      (load_alike (places chosen rfl) seen).bind fun _ _ => .pure trivial
    exact loads.same left
  · exact absurd valid (none own)

theorem verifyFiles_allowed {loader : CheckpointLoader} {holds : Machine → Prop}
    {machine : Machine} (now : holds machine) (files : List DiskPath) :
    Program.Ensures Machine.Allowed holds
      (fun found after => after = machine ∧ ∀ info ∈ found, ∃ file ∈ files,
        manifestCandidate file.name ∧
          (verifiedPair formats machine.disk.contents loader.layout.checkpointDir file
            loader.world loader.branch).map (checkpointInfo loader.layout.checkpointDir file) =
              some info)
      (verifyFiles formats loader files) machine := by
  induction files with
  | nil => exact ⟨now, rfl, by simp⟩
  | cons file rest ih =>
    have wider : ∀ {found : List CheckpointInfo} {info : CheckpointInfo}, info ∈ found →
        (∀ info ∈ found, ∃ file ∈ rest, manifestCandidate file.name ∧
          (verifiedPair formats machine.disk.contents loader.layout.checkpointDir file
            loader.world loader.branch).map (checkpointInfo loader.layout.checkpointDir file) =
              some info) →
        ∃ other ∈ file :: rest, manifestCandidate other.name ∧
          (verifiedPair formats machine.disk.contents loader.layout.checkpointDir other
            loader.world loader.branch).map (checkpointInfo loader.layout.checkpointDir other) =
              some info := by
      intro found info member all
      obtain ⟨other, listed, passed⟩ := all info member
      exact ⟨other, List.mem_cons_of_mem _ listed, passed⟩
    unfold verifyFiles
    split
    · rename_i candidate
      refine (verifyCheckpointPair_allowed now _ _ _ _).bind fun verified after _ checked => ?_
      obtain ⟨rfl, passed⟩ := checked
      refine ih.bind fun later after _ checked => ?_
      obtain ⟨rfl, all⟩ := checked
      cases verified with
      | error error => exact ⟨now, rfl, fun info member => wider member all⟩
      | ok verified =>
        refine ⟨now, rfl, fun info member => ?_⟩
        rcases List.mem_cons.mp member with rfl | old
        · exact ⟨file, by simp, candidate, by rw [passed verified rfl]; rfl⟩
        · exact wider old all
    · exact ih.mono (fun _ holds => holds) fun found after _ checked =>
        ⟨checked.1, fun info member => wider member checked.2⟩

/-- Whatever call fails, what is listed is valid. -/
theorem listValid_allowed {loader : CheckpointLoader} {holds : Machine → Prop}
    {machine : Machine} (now : holds machine) :
    Program.Ensures Machine.Allowed holds
      (fun valid after => after = machine ∧ ∀ found, valid = .ok found → ∀ info ∈ found,
        ValidCheckpoint formats loader machine.disk.contents info)
      (listValid formats loader) machine := by
  unfold listValid
  refine Program.ensures_perform_bind.mpr ⟨now, fun answer after asked => ?_⟩
  obtain ⟨rfl, ⟨error, rfl⟩ | ⟨files, rfl, listed⟩⟩ := allowed_listFiles asked
  · refine ⟨now, rfl, fun found same info member => ?_⟩
    split at same
    · rw [← Except.ok.inj same] at member
      exact absurd member List.not_mem_nil
    · cases same
  · refine (verifyFiles_allowed now files).bind fun found after _ checked => ?_
    obtain ⟨rfl, all⟩ := checked
    refine ⟨now, rfl, fun sorted same info member => ?_⟩
    rw [← Except.ok.inj same, List.mem_insertionSort] at member
    obtain ⟨file, inside, candidate, passed⟩ := all info member
    have place : info.manifestPath = file := by
      obtain ⟨verified, _, rfl⟩ := Option.map_eq_some_iff.mp passed
      rfl
    subst place
    exact ⟨(mem_filesIn.mp (listed.mem_iff.mp inside)).2, candidate, passed⟩

theorem selectCheckpoint_mem {tick : Option UInt64} {checkpoints : List CheckpointInfo}
    (selected : selectCheckpoint tick checkpoints = some info) :
    info ∈ checkpoints ∧ ∀ wanted, tick = some wanted → info.anchor.completedTick = wanted := by
  cases tick with
  | none => exact ⟨List.mem_of_getLast? selected, by simp⟩
  | some wanted =>
    refine ⟨List.mem_of_find?_eq_some selected, fun other same => ?_⟩
    obtain rfl := Option.some.inj same
    simpa using List.find?_some selected

/-- What a fork has done wherever it was stopped. -/
structure ForkLeft (formats : Formats) (call : ForkCall) (before now : Machine) : Prop where
  outside : AgreeOn (Outside call) before now
  manifest : now.disk.contents call.manifestPath = before.disk.contents call.manifestPath ∨
    call.Accepted ∧ call.TempFree before ∧ ∃ info, call.MaySelect formats before info ∧
      now.disk.contents call.manifestPath = some (call.manifestBytes formats info)

theorem ForkLeft.same (disk : now.disk = before.disk) : ForkLeft formats call before now where
  outside path _ := by rw [disk]
  manifest := .inl (by rw [disk])

/-- A publication whose temporary name is taken changes nothing. -/
theorem atomicPublish_taken {machine : Machine} {finalPath : DiskPath} {contents : ByteString}
    (taken : machine.disk.contents (tempPath finalPath (machine.tempCounter + 1)) ≠ none) :
    Program.Ensures Machine.Allowed (fun now => now.disk = machine.disk)
      (fun _ now => now.disk = machine.disk) (atomicPublish finalPath contents) machine := by
  unfold atomicPublish
  refine Program.ensures_perform_bind.mpr ⟨rfl, fun counter after asked => ?_⟩
  obtain ⟨rfl, rfl⟩ := allowed_nextTempCounter asked
  refine Program.ensures_perform_bind.mpr ⟨rfl, fun created after asked => ?_⟩
  rcases allowed_createExclusive asked with ⟨_, free, _⟩ | ⟨failed, rfl⟩
  · exact absurd (Disk.contents_eq_none.mpr free) taken
  · rw [if_pos failed]
    exact ⟨rfl, rfl⟩

/-- A machine with the same disk on which the next temporary name is the same. -/
structure SameFiles (before now : Machine) : Prop where
  disk : now.disk = before.disk
  counter : now.tempCounter = before.tempCounter

theorem SameFiles.createDirectories {after : Machine} {directory : Directory}
    {error : PersistenceError} (same : SameFiles before now)
    (asked : Machine.Allowed now (.createDirectories directory) error after) :
    SameFiles before after := by
  obtain ⟨disk, counter⟩ := allowed_createDirectories asked
  exact ⟨disk.trans same.disk, counter.trans same.counter⟩

theorem manifest_ensures (accepted : call.Accepted) (may : call.MaySelect formats before info)
    (same : SameFiles before now) :
    Program.Ensures Machine.Allowed (ForkLeft formats call before) (fun _ _ => True)
      (atomicPublish call.manifestPath (call.manifestBytes formats info)) now := by
  by_cases free : call.TempFree before
  swap
  · have taken : now.disk.contents (tempPath call.manifestPath (now.tempCounter + 1)) ≠ none := by
      rw [same.disk, same.counter]
      exact free
    exact (atomicPublish_taken taken).mono (fun after kept => .same (kept.trans same.disk))
      fun _ _ _ _ => trivial
  refine (atomicPublish_ensures now call.manifestPath (call.manifestBytes formats info)).mono
    (fun after publishing => ⟨fun path outside => ?_, ?_⟩) fun _ _ _ _ => trivial
  · -- the manifest and the temporary name both lie in the manifest directory
    have kept := publishing.others path (fun same => outside (by rw [same]; rfl))
      (fun same => outside (by rw [same]; rfl))
    rw [kept.contents, same.disk]
  · rcases publishing.target with kept | ⟨live, _⟩
    · exact .inl (by rw [kept.contents, same.disk])
    · exact .inr ⟨accepted, free, info, may, by simp [Disk.contents, live]⟩

/-- Wherever a fork is stopped, at most the manifest of the child is another. -/
theorem fork_ensures (before : Machine) :
    Program.Ensures Machine.Allowed (ForkLeft formats call before) (fun _ _ => True)
      (call.program formats) before := by
  have start : ForkLeft formats call before before := .same rfl
  unfold ForkCall.program forkBranchAtCheckpoint
  split
  · exact ⟨start, trivial⟩
  rename_i accepted
  have accepted : call.Accepted := by
    simp only [not_or, not_not] at accepted
    exact ⟨accepted.1, accepted.2.1, accepted.2.2.1, accepted.2.2.2⟩
  refine (listValid_allowed start).bind fun checkpoints after _ checked => ?_
  obtain ⟨rfl, all⟩ := checked
  cases checkpoints with
  | error error => exact ⟨start, trivial⟩
  | ok checkpoints =>
    simp only
    split
    · exact ⟨start, trivial⟩
    rename_i selected chosen
    obtain ⟨member, tick⟩ := selectCheckpoint_mem chosen
    have may : call.MaySelect formats after selected := ⟨all checkpoints rfl selected member, tick⟩
    have unchanged : SameFiles after after := ⟨rfl, rfl⟩
    refine Program.ensures_perform_bind.mpr ⟨start, fun created first asked => ?_⟩
    have created := unchanged.createDirectories asked
    split
    · exact ⟨.same created.disk, trivial⟩
    have published : Program.Ensures Machine.Allowed (ForkLeft formats call after)
        (fun _ _ => True) (publishBranchManifest formats call.childLayout
          (forkManifest call.childLayout call.world call.parent call.child selected)) first := by
      unfold publishBranchManifest
      split
      · exact ⟨.same created.disk, trivial⟩
      refine Program.ensures_perform_bind.mpr ⟨.same created.disk, fun error second asked => ?_⟩
      have created := created.createDirectories asked
      split
      · exact ⟨.same created.disk, trivial⟩
      exact (manifest_ensures accepted may created).bind fun error last left _ => ⟨left, trivial⟩
    refine published.bind fun result last left _ => ?_
    cases result with
    | error error => exact ⟨left, trivial⟩
    | ok path => exact ⟨left, trivial⟩

end Forking

section Harmless

variable {formats : Formats} {call : ForkCall} {before now : Machine} {policy : TailPolicy}
  {loaded : LoadedCheckpoint}

/-- The recovery already starts at the checkpoint, or it fails alike from either base. -/
def RecoversFrom (formats : Formats) (call : ForkCall) (policy : TailPolicy) (machine : Machine)
    (loaded : LoadedCheckpoint) : Prop :=
  baseOf formats call.childLoader machine = .ok (some loaded) ∨
    ∃ error, recovery formats call.childLoader policy machine = .error error ∧
      replayFrom formats call.childLoader policy machine (some loaded) = .error error

/-- The fork is refused, or cannot publish, or the child has a checkpoint of its own, or it
already recovers from every checkpoint that may be selected. -/
def ForkHarmless (formats : Formats) (call : ForkCall) (policy : TailPolicy) (machine : Machine) :
    Prop :=
  ¬ call.Accepted ∨ ¬ call.TempFree machine ∨
    (∃ own, ValidCheckpoint formats call.childLoader machine.disk.contents own) ∨
      ∀ loaded, call.MaySelect formats machine loaded.info →
        Holds formats call.parentLoader machine loaded →
          RecoversFrom formats call policy machine loaded

theorem ite_error_eq_ok {α ε : Type} {refused : Prop} [Decidable refused] {error : ε}
    {next : Except ε α} {value : α} :
    (if refused then .error error else next) = .ok value ↔ ¬ refused ∧ next = .ok value := by
  by_cases yes : refused <;> simp [yes]

theorem planReplay_checkpoint {checkpoint : Option LoadedCheckpoint} {scan : WalScanResult}
    {plan : RecoveryPlan} (planned : planReplay checkpoint scan = .ok plan) :
    plan.checkpoint = checkpoint := by
  simp only [planReplay, ite_error_eq_ok] at planned
  rw [← Except.ok.inj planned.2.2.2]

theorem recoversFrom_iff : RecoversFrom formats call policy before loaded ↔
    recovery formats call.childLoader policy before =
      replayFrom formats call.childLoader policy before (some loaded) := by
  constructor
  · rintro (based | ⟨error, failed, fails⟩)
    · rw [recovery_eq, based]
      rfl
    · rw [failed, fails]
  · intro same
    cases planned : replayFrom formats call.childLoader policy before (some loaded) with
    | error error => exact .inr ⟨error, same.trans planned, planned⟩
    | ok plan =>
      rw [planned, recovery_eq] at same
      cases base : baseOf formats call.childLoader before with
      | error error =>
        rw [base] at same
        cases same
      | ok checkpoint =>
        rw [base] at same
        have one := planReplay_checkpoint planned
        have two := planReplay_checkpoint same
        exact .inl (base.trans (by rw [← two, one]))

/-- Behind a fork that wrote its manifest the log is replayed from the selected checkpoint. -/
theorem recovery_forked
    (lawful : ∀ table, formats.readBranchManifest (formats.buildBranchManifest table) = some table)
    (accepted : call.Accepted) (agree : AgreeOn (Outside call) before now)
    (unowned : ∀ own, ¬ ValidCheckpoint formats call.childLoader before.disk.contents own)
    (valid : ValidCheckpoint formats call.parentLoader before.disk.contents loaded.info)
    (holds : Holds formats call.parentLoader before loaded)
    (written : now.disk.contents call.manifestPath =
      some (call.manifestBytes formats loaded.info)) :
    recovery formats call.childLoader policy now =
      replayFrom formats call.childLoader policy before (some loaded) := by
  have based : baseOf formats call.childLoader now = .ok (some loaded) :=
    baseOf_forked lawful accepted (fun own valid => unowned own (valid.agree agree.symm))
      (valid.agree agree) (holds.agree agree valid.1) written
  rw [recovery_eq, based, ← replayFrom_agree agree]
  rfl

theorem recovery_based (agree : AgreeOn (Outside call) before now)
    (based : baseOf formats call.childLoader now = baseOf formats call.childLoader before) :
    recovery formats call.childLoader policy now =
      recovery formats call.childLoader policy before := by
  rw [recovery_eq, recovery_eq, based]
  cases baseOf formats call.childLoader before with
  | error error => rfl
  | ok checkpoint => exact replayFrom_agree agree

/-- The manifest has its old contents, and so has everything else that a recovery reads. -/
theorem recovery_untouched (agree : AgreeOn (Outside call) before now)
    (manifest : now.disk.contents call.manifestPath = before.disk.contents call.manifestPath) :
    recovery formats call.childLoader policy now =
      recovery formats call.childLoader policy before := by
  have all : AgreeOn (fun path => Outside call path ∨ path = call.manifestPath) now before := by
    rintro path (outside | rfl)
    · exact (agree path outside).symm
    · exact manifest
  exact recovery_based agree ((recoveryBase_alike (.inr rfl) fun layout path inside =>
    .inl (outside_checkpoints layout path inside)).same all)

/-- Wherever a harmless fork is stopped, the child recovers as before. -/
theorem ForkHarmless.unchanged
    (lawful : ∀ table, formats.readBranchManifest (formats.buildBranchManifest table) = some table)
    (harmless : ForkHarmless formats call policy before) (left : ForkLeft formats call before now) :
    recovery formats call.childLoader policy now =
      recovery formats call.childLoader policy before := by
  obtain kept | ⟨accepted, free, info, may, written⟩ := left.manifest
  · exact recovery_untouched left.outside kept
  by_cases owned : ∃ own, ValidCheckpoint formats call.childLoader before.disk.contents own
  · obtain ⟨own, valid⟩ := owned
    exact recovery_based left.outside (baseOf_owned left.outside valid)
  rcases harmless with refused | taken | owns | recovers
  · exact absurd accepted refused
  · exact absurd free taken
  · exact absurd owns owned
  · obtain ⟨loaded, rfl, holds⟩ := may.1.holds
    rw [recovery_forked lawful accepted left.outside (fun own valid => owned ⟨own, valid⟩) may.1
      holds written]
    exact (recoversFrom_iff.mp (recovers loaded may holds)).symm

theorem run_allowed {α : Type} (program : FileProgram α) (machine : Machine) :
    Program.Reaches Machine.Allowed program machine
      (.pure (program.run Machine.perform machine).1) (program.run Machine.perform machine).2 :=
  Program.run_reaches (fun _ _ => .inl (.inl rfl)) program machine

theorem unreadable {checkpointDir : Directory} {manifestPath : DiskPath} {world : UInt64}
    {branch : BranchId} {machine : Machine} :
    Program.Reaches Machine.Allowed
      (verifyCheckpointPair formats checkpointDir manifestPath world branch) machine
        (.pure (.error .ioFailure)) machine :=
  .call (.inr ⟨rfl, .ioFailure, .inl rfl, rfl⟩) (.stop _ _)

/-- If no file can be read, no checkpoint is found. -/
theorem verifyFiles_unreadable {loader : CheckpointLoader} {machine : Machine}
    (files : List DiskPath) :
    Program.Reaches Machine.Allowed (verifyFiles formats loader files) machine (.pure [])
      machine := by
  induction files with
  | nil => exact .stop _ _
  | cons file rest ih =>
    unfold verifyFiles
    split
    · exact unreadable.bind (ih.bind (.stop _ _))
    · exact ih

/-- If only the files of one checkpoint can be read, it alone is found. -/
theorem verifyFiles_picks {loader : CheckpointLoader} {machine : Machine} {files : List DiskPath}
    {info : CheckpointInfo} (valid : ValidCheckpoint formats loader machine.disk.contents info)
    (listed : info.manifestPath ∈ files) :
    Program.Reaches Machine.Allowed (verifyFiles formats loader files) machine (.pure [info])
      machine := by
  induction files with
  | nil => exact absurd listed List.not_mem_nil
  | cons file rest ih =>
    unfold verifyFiles
    by_cases here : info.manifestPath = file
    · subst here
      obtain ⟨verified, checked, same⟩ := Option.map_eq_some_iff.mp valid.2.2
      have read := run_ensures (@verifyCheckpointPair_ensures formats machine
        loader.layout.checkpointDir info.manifestPath loader.world loader.branch)
      have reached := run_allowed (verifyCheckpointPair formats loader.layout.checkpointDir
        info.manifestPath loader.world loader.branch) machine
      rw [eq_ok_of_toOption (read.2.trans checked), read.1] at reached
      rw [if_pos valid.2.1]
      refine reached.bind ((verifyFiles_unreadable rest).bind ?_)
      simp only [same]
      exact .stop _ _
    · have later := ih (by simpa [here] using listed)
      split
      · exact unreadable.bind (later.bind (.stop _ _))
      · exact later

theorem listValid_picks {loader : CheckpointLoader} {machine : Machine} {info : CheckpointInfo}
    (valid : ValidCheckpoint formats loader machine.disk.contents info) :
    Program.Reaches Machine.Allowed (listValid formats loader) machine (.pure (.ok [info]))
      machine := by
  have present : machine.hasDirectory loader.layout.checkpointDir := by
    simp [Machine.hasDirectory, List.ne_nil_of_mem valid.listed]
  have answered : Machine.Allowed machine (.listFiles loader.layout.checkpointDir)
      (.ok (machine.filesIn loader.layout.checkpointDir)) machine :=
    .inl (.inr ⟨rfl, present, .refl _⟩)
  exact .call answered ((verifyFiles_picks valid valid.listed).bind (.stop _ _))

theorem selectCheckpoint_single {tick : Option UInt64} {info : CheckpointInfo}
    (wanted : ∀ other, tick = some other → info.anchor.completedTick = other) :
    selectCheckpoint tick [info] = some info := by
  cases tick with
  | none => rfl
  | some other => simp [selectCheckpoint, wanted other rfl]

theorem run_atomicPublish_written {machine : Machine} {finalPath : DiskPath}
    {contents : ByteString}
    (free : machine.disk.contents (tempPath finalPath (machine.tempCounter + 1)) = none) :
    ((atomicPublish finalPath contents).run Machine.perform machine).2.disk.contents finalPath =
      some contents := by
  rw [run_atomicPublish_free finalPath contents (Disk.contents_eq_none.mp free)]
  exact (durable_renamed _ _ (tempPath_ne _ _).symm).now

theorem run_publishBranchManifest {info : CheckpointInfo} (accepted : call.Accepted)
    (same : SameFiles before now) (free : call.TempFree before) :
    (((publishBranchManifest formats call.childLayout
      (forkManifest call.childLayout call.world call.parent call.child info)).run Machine.perform
        now).2.disk.contents call.manifestPath) = some (call.manifestBytes formats info) := by
  have complete : ¬ (call.world = 0 ∨ ¬ call.child.valid ∨ ¬ call.parent.valid ∨
      info.manifestPath.components = [] ∨ call.childLayout.walDir = []) := by
    simp [accepted.world, accepted.parent, accepted.child, DiskPath.components,
      DurableLayout.walDir]
  unfold publishBranchManifest
  simp only [forkManifest, complete, if_false]
  have made : Machine.Allowed now (.createDirectories call.childLayout.manifestDir) .none _ :=
    .inl (.inl rfl)
  have created := same.createDirectories made
  rw [ask, Program.run_perform_bind]
  simp only [Machine.perform, ne_eq, not_true_eq_false, if_false]
  rw [Program.run_bind]
  refine run_atomicPublish_written ?_
  rw [created.disk, created.counter]
  exact free

/-- A fork may select any checkpoint it could select, and publish its manifest. -/
theorem fork_picks {info : CheckpointInfo} (accepted : call.Accepted)
    (free : call.TempFree before) (may : call.MaySelect formats before info) :
    ∃ result now, Program.Reaches Machine.Allowed (call.program formats) before (.pure result) now ∧
      now.disk.contents call.manifestPath = some (call.manifestBytes formats info) := by
  have passes : ¬ (call.world = 0 ∨ ¬ call.parent.valid ∨ ¬ call.child.valid ∨
      call.parent = call.child) := by
    simp [accepted.world, accepted.parent, accepted.child, accepted.apart]
  unfold ForkCall.program forkBranchAtCheckpoint
  rw [if_neg passes]
  refine ⟨_, _, (listValid_picks may.1).bind (run_allowed _ before), ?_⟩
  have created := (SameFiles.mk rfl rfl : SameFiles before before).createDirectories
    (.inl (.inl rfl) : Machine.Allowed before (.createDirectories call.childLayout.walDir) _ _)
  simp only [selectCheckpoint_single may.2]
  rw [ask, Program.run_perform_bind]
  simp only [Machine.perform, ne_eq, not_true_eq_false, if_false]
  rw [Program.run_bind]
  refine Eq.trans ?_ (run_publishBranchManifest accepted created free)
  split
  · rfl
  · rfl

/-- A fork leaves the recovery of the child as it was, whatever calls fail, if and only if it
is harmless. -/
theorem fork_keeps_recovery_iff
    (lawful : ∀ table, formats.readBranchManifest (formats.buildBranchManifest table) =
      some table) :
    (∀ result now, Program.Reaches Machine.Allowed (call.program formats) before (.pure result)
        now → recovery formats call.childLoader policy now =
          recovery formats call.childLoader policy before) ↔
      ForkHarmless formats call policy before := by
  constructor
  · intro keeps
    by_contra harmful
    simp only [ForkHarmless, not_or, not_not] at harmful
    obtain ⟨accepted, free, unowned, differs⟩ := harmful
    refine differs fun loaded may holds => recoversFrom_iff.mpr ?_
    obtain ⟨result, now, reached, written⟩ := fork_picks accepted free may
    have left := ((fork_ensures before).sound reached).1
    rw [← keeps result now reached]
    exact recovery_forked lawful accepted left.outside (fun own valid => unowned ⟨own, valid⟩)
      may.1 holds written
  · intro harmless result now reached
    exact harmless.unchanged lawful ((fork_ensures before).sound reached).1

end Harmless

section Again

theorem plainFormats_branches (table : BranchManifestTable) :
    plainFormats.readBranchManifest (plainFormats.buildBranchManifest table) = some table :=
  readAll_write branchManifestCode table

/-- The checkpoint that a branch publishes after this tick. -/
def tickFiles (config : CheckpointConfig) (tick : UInt64) : CheckpointFiles :=
  checkpointFiles plainFormats config (twinCapture tick) ['p'] []

/-- A parent with checkpoints of two ticks. -/
def parentMachine : Machine :=
  .holding [[['d']], twinRoot 'a'] [
    ((tickFiles twinConfig 1).dataPath, (tickFiles twinConfig 1).data),
    ((tickFiles twinConfig 1).manifestPath, (tickFiles twinConfig 1).manifest),
    ((tickFiles twinConfig 2).dataPath, (tickFiles twinConfig 2).data),
    ((tickFiles twinConfig 2).manifestPath, (tickFiles twinConfig 2).manifest)]

def forkAt (tick : UInt64) : ForkCall where
  parentLayout := ⟨twinRoot 'a'⟩
  childLayout := ⟨twinRoot 'b'⟩
  world := 7
  parent := Vector.replicate 16 1
  child := Vector.replicate 16 2
  checkpointTick := some tick

def forkedOnce : Machine := (((forkAt 1).program plainFormats).run Machine.perform parentMachine).2

def forkedTwice : Machine := (((forkAt 2).program plainFormats).run Machine.perform forkedOnce).2

/-- The tick that a plan starts from. -/
def plannedTick : Except PersistenceError RecoveryPlan → Option UInt64
  | .error _ => none
  | .ok plan => plan.checkpoint.map fun loaded => loaded.info.anchor.completedTick

example : (DurableLayout.mk [['d']]).walDir = [['d'], "wal".toList] := by decide +kernel

/-- A branch forked once is forked again, and starts from another checkpoint. -/
theorem second_fork_rebases :
    ¬ ∀ (formats : Formats) (first call : ForkCall) (policy : TailPolicy)
      (start before now : Machine) (manifest : BranchManifestData)
      (result : Except PersistenceError BranchManifestData),
      (∀ table, formats.readBranchManifest (formats.buildBranchManifest table) = some table) →
      first.childLoader = call.childLoader →
      Program.Reaches Machine.Allowed (first.program formats) start (.pure (.ok manifest)) before →
      Program.Reaches Machine.Allowed (call.program formats) before (.pure result) now →
        recovery formats call.childLoader policy now =
          recovery formats call.childLoader policy before := by
  intro claimed
  have forked : (((forkAt 1).program plainFormats).run Machine.perform
      parentMachine).1.toOption.isSome := by decide +kernel
  obtain ⟨manifest, succeeded⟩ := Option.isSome_iff_exists.mp forked
  have reached := run_allowed ((forkAt 1).program plainFormats) parentMachine
  rw [eq_ok_of_toOption succeeded] at reached
  have same := claimed plainFormats (forkAt 1) (forkAt 2) .strict parentMachine forkedOnce
    forkedTwice manifest _ plainFormats_branches rfl reached
    (run_allowed ((forkAt 2).program plainFormats) forkedOnce)
  have moved :
      plannedTick (recovery plainFormats (forkAt 2).childLoader .strict forkedOnce) = some 1 ∧
        plannedTick (recovery plainFormats (forkAt 2).childLoader .strict forkedTwice) =
          some 2 := by decide +kernel
  have ticks := moved.2
  rw [same, moved.1] at ticks
  exact absurd ticks (by decide)

def childConfig : CheckpointConfig where
  layout := ⟨twinRoot 'b'⟩
  world := 7
  branch := Vector.replicate 16 2
  keepLastCheckpoints := 1

/-- The child has published a checkpoint of its own. -/
def ownedMachine : Machine :=
  .holding [[['d']], twinRoot 'a', twinRoot 'b'] [
    ((tickFiles twinConfig 1).dataPath, (tickFiles twinConfig 1).data),
    ((tickFiles twinConfig 1).manifestPath, (tickFiles twinConfig 1).manifest),
    ((tickFiles childConfig 3).dataPath, (tickFiles childConfig 3).data),
    ((tickFiles childConfig 3).manifestPath, (tickFiles childConfig 3).manifest)]

def ownedInfo : CheckpointInfo where
  manifestPath := (tickFiles childConfig 3).manifestPath
  dataPath := (tickFiles childConfig 3).dataPath
  anchor := (twinCapture 3).anchor
  checkpointContentHash := (tickFiles childConfig 3).contentHash
  dataLength := (tickFiles childConfig 3).data.length

theorem fork_keeps_recovery_owned :
    recovery plainFormats (forkAt 1).childLoader .strict
        (((forkAt 1).program plainFormats).run Machine.perform ownedMachine).2 =
      recovery plainFormats (forkAt 1).childLoader .strict ownedMachine :=
  (fork_keeps_recovery_iff plainFormats_branches).mpr
    (.inr (.inr (.inl ⟨ownedInfo, rfl, by decide +kernel, by decide +kernel⟩))) _ _
      (run_allowed _ _)

end Again

end GeoWorld.Persistence
