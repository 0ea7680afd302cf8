import Mathlib
import GeoWorld.Library.SortedSelection
import GeoWorld.Persistence.CheckpointCodec

/-!
Finding the valid checkpoints of a directory. A manifest is valid when it and its data file
pass the check of the pair; the latest valid checkpoint is one of those with the greatest
completed tick.
-/

namespace GeoWorld.Persistence

open WorldModel Library

def checkpointPrefix : FileName := "ckpt-".toList

def checkpointDigits : Nat := 20

def checkpointDataExtension : FileName := ".gwck".toList

def checkpointManifestExtension : FileName := ".gwckm".toList

/-- `parse_manifest_tick`, and `parse_checkpoint_tick` with the extension of manifests. -/
def parseManifestTick (name : FileName) : Option UInt64 :=
  if name.length < checkpointPrefix.length + checkpointDigits + checkpointManifestExtension.length ∨
      ¬ checkpointPrefix.isPrefixOf name ∨ ¬ checkpointManifestExtension.isSuffixOf name then none
  else parseDigits 0 ((name.drop checkpointPrefix.length).take checkpointDigits)

structure CheckpointInfo where
  anchor : CheckpointAnchor
  checkpointContentHash : UInt64
  manifestPath : DiskPath
  dataPath : DiskPath
  dataLength : Nat
  deriving DecidableEq

def checkpointInfo (checkpointDir : Directory) (file : DiskPath) (verified : VerifiedCheckpoint) :
    CheckpointInfo where
  anchor := verified.manifest.anchor
  checkpointContentHash := verified.manifest.checkpointContentHash
  manifestPath := file
  dataPath := checkpointDir.file verified.manifest.dataFile
  dataLength := verified.manifest.dataLength

/-- A name that may be a checkpoint manifest; temporary files never are. -/
def manifestCandidate (name : FileName) : Bool :=
  !tempFilePrefix.isPrefixOf name && (parseManifestTick name).isSome

section Loader

variable (formats : Formats)

structure CheckpointLoader where
  layout : DurableLayout
  world : UInt64
  branch : BranchId

/-- The candidates that pass the check, in the order listed. -/
def verifyFiles (loader : CheckpointLoader) : List DiskPath → FileProgram (List CheckpointInfo)
  | [] => pure []
  | file :: rest => do
    if manifestCandidate file.name then
      let verified ← verifyCheckpointPair formats loader.layout.checkpointDir file loader.world
        loader.branch
      let later ← verifyFiles loader rest
      match verified with
      | .error _ => return later
      | .ok verified => return checkpointInfo loader.layout.checkpointDir file verified :: later
    else
      verifyFiles loader rest

def earlier (left right : CheckpointInfo) : Bool :=
  decide (left.anchor.completedTick ≤ right.anchor.completedTick)

def listValid (loader : CheckpointLoader) :
    FileProgram (Except PersistenceError (List CheckpointInfo)) := do
  let listed ← ask (.listFiles loader.layout.checkpointDir)
  match listed with
  | .error error => return if error = .notFound then .ok [] else .error error
  | .ok files =>
    let found ← verifyFiles formats loader files
    return .ok (found.insertionSort fun left right => earlier left right)

def latestValid (loader : CheckpointLoader) :
    FileProgram (Except PersistenceError CheckpointInfo) := do
  let valid ← listValid formats loader
  match valid with
  | .error error => return .error error
  | .ok valid => return match valid.getLast? with
    | none => .error .notFound
    | some latest => .ok latest

structure LoadedCheckpoint where
  info : CheckpointInfo
  blocks : List CheckpointBlock

def load (loader : CheckpointLoader) (info : CheckpointInfo) :
    FileProgram (Except PersistenceError LoadedCheckpoint) := do
  let verified ← verifyCheckpointPair formats loader.layout.checkpointDir info.manifestPath
    loader.world loader.branch
  match verified with
  | .error error => return .error error
  | .ok verified => return .ok ⟨info, verified.data.blocks⟩

end Loader

section Valid

variable (formats : Formats) (loader : CheckpointLoader)

/-- What the contents of a directory say: the file is the manifest of this checkpoint. -/
def ValidCheckpoint (contents : DiskPath → Option ByteString) (info : CheckpointInfo) : Prop :=
  info.manifestPath.directory = loader.layout.checkpointDir ∧
    manifestCandidate info.manifestPath.name ∧
      (verifiedPair formats contents loader.layout.checkpointDir info.manifestPath
        loader.world loader.branch).map
          (checkpointInfo loader.layout.checkpointDir info.manifestPath) = some info

/-- No valid checkpoint is later. -/
structure LatestValid (contents : DiskPath → Option ByteString) (info : CheckpointInfo) : Prop where
  valid : ValidCheckpoint formats loader contents info
  latest : ∀ other, ValidCheckpoint formats loader contents other →
    other.anchor.completedTick ≤ info.anchor.completedTick

/-- What the search for the latest valid checkpoint may answer. -/
def LatestOutcome (contents : DiskPath → Option ByteString)
    (latest : Except PersistenceError CheckpointInfo) : Prop :=
  (∃ info, latest = .ok info ∧ LatestValid formats loader contents info) ∨
    latest = .error .notFound ∧ ∀ info, ¬ ValidCheckpoint formats loader contents info

end Valid

section Healthy

variable {formats : Formats} {loader : CheckpointLoader} {machine : Machine}

theorem succeeds_readFile {path : DiskPath} {answer : Except PersistenceError ByteString}
    {after : Machine} (answered : Machine.Succeeds machine (.readFile path) answer after) :
    after = machine ∧ answer.toOption = machine.disk.contents path := by
  rcases answered with succeeded | no
  · obtain ⟨rfl, rfl⟩ := Prod.mk.inj succeeded
    refine ⟨rfl, ?_⟩
    split <;> simp_all [Except.toOption]
  · exact no.elim

theorem verifyCheckpointPair_ensures (checkpointDir : Directory) (manifestPath : DiskPath)
    (world : UInt64) (branch : BranchId) :
    Program.Ensures Machine.Succeeds (· = machine)
      (fun verified _ => verified.toOption =
        verifiedPair formats machine.disk.contents checkpointDir manifestPath world branch)
      (verifyCheckpointPair formats checkpointDir manifestPath world branch) machine := by
  unfold verifyCheckpointPair verifiedPair
  refine Program.ensures_perform_bind.mpr ⟨rfl, fun answer after answered => ?_⟩
  obtain ⟨rfl, read⟩ := succeeds_readFile answered
  rw [← read]
  cases answer with
  | error error => exact ⟨rfl, rfl⟩
  | ok bytes =>
    simp only [Except.toOption, Option.bind_some]
    cases readManifest formats world branch bytes with
    | error error => exact ⟨rfl, rfl⟩
    | ok manifest =>
      refine Program.ensures_perform_bind.mpr ⟨rfl, fun answer other answered => ?_⟩
      obtain ⟨rfl, read⟩ := succeeds_readFile answered
      simp only
      rw [← read]
      cases answer with
      | error error => exact ⟨rfl, rfl⟩
      | ok stored => exact ⟨rfl, rfl⟩

theorem verifyFiles_ensures (files : List DiskPath) :
    Program.Ensures Machine.Succeeds (· = machine)
      (fun found _ => ∀ info, info ∈ found ↔ ∃ file ∈ files, manifestCandidate file.name ∧
        (verifiedPair formats machine.disk.contents loader.layout.checkpointDir file
          loader.world loader.branch).map (checkpointInfo loader.layout.checkpointDir file) =
            some info)
      (verifyFiles formats loader files) machine := by
  induction files with
  | nil => exact ⟨rfl, by simp⟩
  | cons file rest ih =>
    unfold verifyFiles
    by_cases candidate : manifestCandidate file.name
    · rw [if_pos candidate]
      refine (verifyCheckpointPair_ensures _ _ _ _).bind fun verified now same checked => ?_
      subst same
      refine ih.bind fun later now same found => ?_
      subst same
      cases verified with
      | error error =>
        refine ⟨rfl, fun info => ?_⟩
        rw [found]
        simp [← checked, Except.toOption, candidate]
      | ok verified =>
        refine ⟨rfl, fun info => ?_⟩
        rw [List.mem_cons, found]
        simp [← checked, Except.toOption, candidate, eq_comm (a := info)]
    · rw [if_neg candidate]
      refine ih.mono (fun _ same => same) fun found now _ listed info => ?_
      rw [listed]
      simp [candidate]

theorem mem_filesIn {directory : Directory} {path : DiskPath} :
    path ∈ machine.filesIn directory ↔
      machine.disk.contents path ≠ none ∧ path.directory = directory := by
  rw [Machine.filesIn, List.mem_filter, Std.ExtTreeMap.mem_keys,
    Std.ExtTreeMap.mem_iff_isSome_getElem?, Option.isSome_iff_ne_none, ne_eq, ne_eq,
    Disk.contents_eq_none, decide_eq_true_iff]

theorem succeeds_listFiles {directory : Directory}
    {answer : Except PersistenceError (List DiskPath)} {after : Machine}
    (answered : Machine.Succeeds machine (.listFiles directory) answer after) :
    after = machine ∧ ((answer = .error .notFound ∧ machine.filesIn directory = []) ∨
      ∃ files, answer = .ok files ∧ files.Perm (machine.filesIn directory)) := by
  rcases answered with succeeded | listed
  · obtain ⟨rfl, rfl⟩ := Prod.mk.inj succeeded
    refine ⟨rfl, ?_⟩
    split
    · exact .inr ⟨_, rfl, .refl _⟩
    · rename_i missing
      refine .inl ⟨rfl, ?_⟩
      simp only [Machine.hasDirectory, Bool.or_eq_true, decide_eq_true_eq, not_or, not_not] at missing
      exact missing.2
  · cases answer with
    | error error => exact listed.elim
    | ok files => exact ⟨listed.1, .inr ⟨files, rfl, listed.2.2⟩⟩

/-- A checkpoint without a manifest file is not valid. -/
theorem ValidCheckpoint.listed {info : CheckpointInfo}
    (valid : ValidCheckpoint formats loader machine.disk.contents info) :
    info.manifestPath ∈ machine.filesIn loader.layout.checkpointDir := by
  refine mem_filesIn.mpr ⟨fun missing => ?_, valid.1⟩
  have checked := valid.2.2
  simp [verifiedPair, missing] at checked

theorem listValid_ensures :
    Program.Ensures Machine.Succeeds (· = machine)
      (fun valid _ => ∃ found, valid = .ok found ∧
        (∀ info, info ∈ found ↔ ValidCheckpoint formats loader machine.disk.contents info) ∧
        found.Pairwise fun left right => earlier left right)
      (listValid formats loader) machine := by
  unfold listValid
  refine Program.ensures_perform_bind.mpr ⟨rfl, fun answer after answered => ?_⟩
  obtain ⟨rfl, ⟨rfl, empty⟩ | ⟨files, rfl, listed⟩⟩ := succeeds_listFiles answered
  · refine ⟨rfl, [], rfl, fun info => ⟨fun member => (List.not_mem_nil member).elim, ?_⟩, .nil⟩
    intro valid
    have member := valid.listed
    rw [empty] at member
    exact (List.not_mem_nil member).elim
  · refine (verifyFiles_ensures files).bind fun found now same members => ?_
    subst same
    have total : ∀ left right : CheckpointInfo, earlier left right ∨ earlier right left := by
      simp only [earlier, decide_eq_true_eq]
      exact fun left right => UInt64.le_total _ _
    have transitive : ∀ first second third : CheckpointInfo,
        earlier first second → earlier second third → earlier first third := by
      simp only [earlier, decide_eq_true_eq]
      exact fun _ _ _ => UInt64.le_trans
    refine ⟨rfl, _, rfl, fun info => ?_, ?_⟩
    · rw [List.mem_insertionSort, members]
      constructor
      · rintro ⟨file, member, candidate, checked⟩
        have place : info.manifestPath = file := by
          obtain ⟨verified, _, rfl⟩ := Option.map_eq_some_iff.mp checked
          rfl
        subst place
        exact ⟨(mem_filesIn.mp (listed.mem_iff.mp member)).2, candidate, checked⟩
      · intro valid
        exact ⟨_, listed.mem_iff.mpr valid.listed, valid.2⟩
    · have : Std.Total fun left right : CheckpointInfo => earlier left right = true := ⟨total⟩
      have : IsTrans CheckpointInfo fun left right => earlier left right = true := ⟨transitive⟩
      exact List.pairwise_insertionSort _ _

/-- With healthy storage the latest valid checkpoint is found, if there is any. -/
theorem latestValid_ensures :
    Program.Ensures Machine.Succeeds (· = machine)
      (fun latest _ => LatestOutcome formats loader machine.disk.contents latest)
      (latestValid formats loader) machine := by
  refine listValid_ensures.bind fun valid now same listed => ?_
  subst same
  obtain ⟨found, rfl, members, sorted⟩ := listed
  cases last : found.getLast? with
  | none =>
    refine ⟨rfl, .inr ⟨by simp [last], fun info valid => ?_⟩⟩
    have member := (members info).mpr valid
    rw [List.getLast?_eq_none_iff.mp last] at member
    exact List.not_mem_nil member
  | some info =>
    refine ⟨rfl, .inl ⟨info, by simp [last], (members info).mp (List.mem_of_getLast? last), ?_⟩⟩
    intro other valid
    obtain ⟨before, split⟩ := List.getLast?_eq_some_iff.mp last
    have member := (members other).mpr valid
    rw [split] at member sorted
    rcases List.mem_append.mp member with inside | same
    · have order := (List.pairwise_append.mp sorted).2.2 other inside info (by simp)
      exact of_decide_eq_true order
    · obtain rfl := List.mem_singleton.mp same
      exact UInt64.le_refl _

end Healthy

end GeoWorld.Persistence
