import Mathlib
import GeoWorld.Persistence.AtomicPublish
import GeoWorld.Persistence.CheckpointPublish

/-!
What a publication does to the disk, step by step, whatever call fails. Until its check
has passed only the new names have changed and the new manifest is missing or complete.
After it the new pair is durable, and a name of the directory holds what it held before or
nothing; the files of a checkpoint that a branch is based on are not touched.
-/

namespace GeoWorld.Persistence

open WorldModel Library

theorem verifyCheckpointPair_allowed {formats : Formats} {machine : Machine}
    {holds : Machine → Prop} (now : holds machine) (checkpointDir : Directory)
    (manifestPath : DiskPath) (world : UInt64) (branch : BranchId) :
    Program.Ensures Machine.Allowed holds
      (fun result after => after = machine ∧ ∀ verified, result = .ok verified →
        verifiedPair formats machine.disk.contents checkpointDir manifestPath world branch =
          some verified)
      (verifyCheckpointPair formats checkpointDir manifestPath world branch) machine := by
  unfold verifyCheckpointPair
  refine Program.ensures_perform_bind.mpr ⟨now, fun answer after asked => ?_⟩
  obtain ⟨rfl, ⟨error, rfl, _⟩ | ⟨bytes, rfl, found⟩⟩ := allowed_readFile asked
  · exact ⟨now, rfl, fun verified same => nomatch same⟩
  simp only
  cases read : readManifest formats world branch bytes with
  | error error => exact ⟨now, rfl, fun verified same => nomatch same⟩
  | ok manifest =>
    refine Program.ensures_perform_bind.mpr ⟨now, fun answer other asked => ?_⟩
    obtain ⟨rfl, ⟨error, rfl, _⟩ | ⟨stored, rfl, held⟩⟩ := allowed_readFile asked
    · exact ⟨now, rfl, fun verified same => nomatch same⟩
    refine ⟨now, rfl, fun verified same => ?_⟩
    simp only [verifiedPair, found, Option.bind_some, read, held, same, Except.toOption]

/-- The files that a passing pair consists of. -/
theorem verifiedPair_eq_some {formats : Formats} {contents : DiskPath → Option ByteString}
    {checkpointDir : Directory} {manifestPath : DiskPath} {world : UInt64} {branch : BranchId}
    {verified : VerifiedCheckpoint} :
    verifiedPair formats contents checkpointDir manifestPath world branch = some verified ↔
      ∃ bytes manifest stored, contents manifestPath = some bytes ∧
        readManifest formats world branch bytes = .ok manifest ∧
        contents (checkpointDir.file manifest.dataFile) = some stored ∧
        verifyData formats manifest stored = .ok verified := by
  unfold verifiedPair
  constructor
  · intro passed
    obtain ⟨bytes, found, passed⟩ := Option.bind_eq_some_iff.mp passed
    cases read : readManifest formats world branch bytes with
    | error error => simp [read] at passed
    | ok manifest =>
      simp only [read] at passed
      obtain ⟨stored, held, passed⟩ := Option.bind_eq_some_iff.mp passed
      refine ⟨bytes, manifest, stored, found, read, held, ?_⟩
      cases checked : verifyData formats manifest stored with
      | error error => simp [checked, Except.toOption] at passed
      | ok other =>
        obtain rfl : other = verified := by simpa [checked, Except.toOption] using passed
        rfl
  · rintro ⟨bytes, manifest, stored, found, read, held, checked⟩
    simp [found, read, held, checked, Except.toOption]

theorem verifyData_manifest {formats : Formats} {manifest : DecodedManifest} {stored : ByteString}
    {verified : VerifiedCheckpoint} (checked : verifyData formats manifest stored = .ok verified) :
    verified.manifest = manifest := by
  unfold verifyData at checked
  split at checked
  · cases checked
  · split at checked
    · cases checked
    · split at checked
      · cases checked
      · split at checked
        · cases checked
        · split at checked
          · cases checked
          · cases checked
            rfl

section Victims

theorem mem_retentionVictims {removable : DiskPath → Bool} {keep : Nat} {victim : DiskPath}
    {fuel : Nat} {manifests : List (UInt64 × DiskPath)}
    (chosen : victim ∈ retentionVictims removable keep fuel manifests) :
    removable victim ∧ ∃ tick, (tick, victim) ∈ manifests := by
  induction fuel generalizing manifests with
  | zero => exact absurd chosen List.not_mem_nil
  | succ fuel ih =>
    unfold retentionVictims at chosen
    split at chosen
    · exact absurd chosen List.not_mem_nil
    split at chosen
    · exact absurd chosen List.not_mem_nil
    · rename_i oldest found
      rcases List.mem_cons.mp chosen with rfl | later
      · exact ⟨by simpa using List.find?_some found, oldest.1, List.mem_of_find?_eq_some found⟩
      · obtain ⟨allowed, tick, member⟩ := ih later
        exact ⟨allowed, tick, List.mem_of_mem_erase member⟩

theorem isRemovable_iff {manifestPath candidate : DiskPath} {pinned : List Directory} :
    isRemovable manifestPath pinned candidate ↔
      lexicallyNormal candidate.components ≠ lexicallyNormal manifestPath.components ∧
        lexicallyNormal candidate.components ∉ pinned := by
  simp [isRemovable]

end Victims

section Removal

variable {formats : Formats} {config : CheckpointConfig} {holds : Machine → Prop}

theorem removeFile_ensures {machine : Machine} {path : DiskPath} (now : holds machine)
    (removed : holds (machine.setDisk (machine.disk.remove path))) :
    Program.Ensures Machine.Allowed holds (fun _ after => holds after) (ask (.removeFile path))
      machine := by
  refine ⟨now, fun error after asked => ?_⟩
  rcases allowed_removeFile asked with ⟨rfl, _⟩ | rfl
  · exact ⟨removed, removed⟩
  · exact ⟨now, now⟩

theorem removeFiles_ensures {paths : List DiskPath} {machine : Machine} (now : holds machine)
    (step : ∀ machine, ∀ path ∈ paths, holds machine →
      holds (machine.setDisk (machine.disk.remove path))) :
    Program.Ensures Machine.Allowed holds (fun _ after => holds after) (removeFiles paths)
      machine := by
  induction paths generalizing machine with
  | nil => exact ⟨now, now⟩
  | cons path rest ih =>
    unfold removeFiles
    refine (removeFile_ensures now (step machine path (by simp) now)).bind fun error after _ now => ?_
    refine (ih now fun machine other member => step machine other (by simp [member])).bind
      fun removed after _ now => ?_
    exact ⟨now, now⟩

/-- What removing a checkpoint keeps, if removing its manifest and its data does. -/
theorem removeCheckpoint_ensures {victim : DiskPath} {machine : Machine} (now : holds machine)
    (manifest : ∀ machine, holds machine → holds (machine.setDisk (machine.disk.remove victim)))
    (data : ∀ machine verified, holds machine →
      verifiedPair formats machine.disk.contents config.layout.checkpointDir victim config.world
        config.branch = some verified →
      holds (machine.setDisk (machine.disk.remove
        (config.layout.checkpointDir.file verified.manifest.dataFile)))) :
    Program.Ensures Machine.Allowed holds (fun _ after => holds after)
      (removeCheckpoint formats config victim) machine := by
  unfold removeCheckpoint
  refine (verifyCheckpointPair_allowed now _ _ _ _).bind fun result after _ passed => ?_
  obtain ⟨rfl, passed⟩ := passed
  cases result with
  | error error =>
    refine (removeFile_ensures now (manifest _ now)).bind fun _ after _ now => ?_
    exact ⟨now, now⟩
  | ok verified =>
    refine (removeFile_ensures now (data _ verified now (passed verified rfl))).bind
      fun _ after _ now => ?_
    refine (removeFile_ensures now (manifest _ now)).bind fun _ after _ now => ?_
    exact ⟨now, now⟩

theorem removeCheckpoints_ensures {victims : List DiskPath} {machine : Machine}
    (now : holds machine)
    (manifest : ∀ victim ∈ victims, ∀ machine, holds machine →
      holds (machine.setDisk (machine.disk.remove victim)))
    (data : ∀ victim ∈ victims, ∀ machine verified, holds machine →
      verifiedPair formats machine.disk.contents config.layout.checkpointDir victim config.world
        config.branch = some verified →
      holds (machine.setDisk (machine.disk.remove
        (config.layout.checkpointDir.file verified.manifest.dataFile)))) :
    Program.Ensures Machine.Allowed holds (fun _ after => holds after)
      (removeCheckpoints formats config victims) machine := by
  induction victims generalizing machine with
  | nil => exact ⟨now, now⟩
  | cons victim rest ih =>
    refine (removeCheckpoint_ensures now (manifest victim (by simp))
      (data victim (by simp))).bind fun _ after _ now => ?_
    exact ih now (fun other member => manifest other (by simp [member]))
      fun other member => data other (by simp [member])

end Removal

section Pins

variable {formats : Formats} {holds : Machine → Prop}

/-- A sibling branch says that it is based on this checkpoint. -/
def PinnedBy (formats : Formats) (machine : Machine) (roots : List Directory)
    (base : Directory) : Prop :=
  ∃ root ∈ roots, branchPrefix.isPrefixOf (root.getLastD []) ∧
    ∃ bytes manifest, machine.disk.contents (branchManifestPath ⟨root⟩) = some bytes ∧
      decodeBranchManifest formats bytes = .ok manifest ∧ manifest.baseCheckpoint = base

theorem loadBranchManifest_allowed {machine : Machine} (now : holds machine) (path : DiskPath) :
    Program.Ensures Machine.Allowed holds
      (fun result after => after = machine ∧ ∀ bytes manifest,
        machine.disk.contents path = some bytes → decodeBranchManifest formats bytes = .ok manifest →
          result = .ok manifest ∨ ∃ error, result = .error error ∧ error ≠ .notFound)
      (loadBranchManifest formats path) machine := by
  unfold loadBranchManifest
  refine Program.ensures_perform_bind.mpr ⟨now, fun answer after asked => ?_⟩
  obtain ⟨rfl, ⟨error, rfl, missing⟩ | ⟨bytes, rfl, found⟩⟩ := allowed_readFile asked
  · refine ⟨now, rfl, fun bytes manifest held _ => .inr ⟨error, rfl, fun same => ?_⟩⟩
    simp [missing same] at held
  · refine ⟨now, rfl, fun other manifest held decoded => .inl ?_⟩
    obtain rfl := Option.some.inj (found.symm.trans held)
    exact decoded

/-- A failed read is an error of the whole; only a missing manifest is passed over. -/
theorem readPins_allowed {machine : Machine} (now : holds machine) (roots : List Directory) :
    Program.Ensures Machine.Allowed holds
      (fun result after => after = machine ∧ ∀ pinned, result = .ok pinned →
        ∀ base, PinnedBy formats machine roots base → lexicallyNormal base ∈ pinned)
      (readPins formats roots) machine := by
  induction roots with
  | nil =>
    refine ⟨now, rfl, ?_⟩
    rintro pinned _ base ⟨root, member, _⟩
    exact absurd member List.not_mem_nil
  | cons branchRoot rest ih =>
    unfold readPins
    split
    · rename_i named
      refine (@loadBranchManifest_allowed formats _ _ now _).bind
        fun result after _ loaded => ?_
      obtain ⟨rfl, loaded⟩ := loaded
      cases result with
      | error error =>
        by_cases missing : error = .notFound
        · simp only [missing, ne_eq, not_true_eq_false, if_false]
          refine ih.mono (fun _ same => same) fun result after _ pins => ⟨pins.1, ?_⟩
          rintro pinned same base ⟨root, member, prefixed, bytes, manifest, held, decoded, based⟩
          rcases List.mem_cons.mp member with rfl | later
          · rcases loaded bytes manifest held decoded with loaded | ⟨other, loaded, apart⟩
            · cases loaded
            · exact absurd missing (Except.error.inj loaded ▸ apart)
          · exact pins.2 pinned same base
              ⟨root, later, prefixed, bytes, manifest, held, decoded, based⟩
        · simp only [ne_eq, missing, not_false_eq_true, if_true]
          exact ⟨now, rfl, fun pinned same => nomatch same⟩
      | ok manifest =>
        refine ih.bind fun later after _ pins => ?_
        obtain ⟨rfl, pins⟩ := pins
        refine ⟨now, rfl, ?_⟩
        rintro pinned same base ⟨root, member, prefixed, bytes, other, held, decoded, based⟩
        cases later with
        | error error => cases same
        | ok later =>
          obtain rfl := Except.ok.inj same
          rcases List.mem_cons.mp member with rfl | inside
          · rcases loaded bytes other held decoded with loaded | ⟨error, loaded, _⟩
            · obtain rfl := Except.ok.inj loaded
              simp [based]
            · cases loaded
          · exact List.mem_cons_of_mem _ (pins later rfl base
              ⟨root, inside, prefixed, bytes, other, held, decoded, based⟩)
    · rename_i unnamed
      refine ih.mono (fun _ same => same) fun result after _ pins => ⟨pins.1, ?_⟩
      rintro pinned same base ⟨root, member, named, other⟩
      rcases List.mem_cons.mp member with rfl | later
      · exact absurd named unnamed
      · exact pins.2 pinned same base ⟨root, later, named, other⟩

theorem pinnedCheckpoints_allowed {machine : Machine} (now : holds machine)
    (layout : DurableLayout) :
    Program.Ensures Machine.Allowed holds
      (fun result after => after = machine ∧ ∀ pinned, result = .ok pinned →
        ∀ base, PinnedBy formats machine (machine.directoriesIn layout.root.dropLast) base →
          lexicallyNormal base ∈ pinned)
      (pinnedCheckpoints formats layout) machine := by
  unfold pinnedCheckpoints
  refine Program.ensures_perform_bind.mpr ⟨now, fun answer after asked => ?_⟩
  obtain ⟨rfl, ⟨error, rfl⟩ | ⟨found, rfl, listed⟩⟩ := allowed_listDirectories asked
  · exact ⟨now, rfl, fun pinned same => nomatch same⟩
  · refine (readPins_allowed now found).mono (fun _ same => same) fun result after _ pins => ?_
    refine ⟨pins.1, ?_⟩
    rintro pinned same base ⟨root, member, named⟩
    exact pins.2 pinned same base ⟨root, listed.mem_iff.mpr member, named⟩

end Pins

section Retention

variable {formats : Formats} {config : CheckpointConfig} {holds : Machine → Prop}

/-- A manifest that retention may remove. -/
structure Victim (formats : Formats) (config : CheckpointConfig) (manifestPath : DiskPath)
    (machine : Machine) (victim : DiskPath) : Prop where
  directory : victim.directory = config.layout.checkpointDir
  named : (parseManifestTick victim.name).isSome
  apart : lexicallyNormal victim.components ≠ lexicallyNormal manifestPath.components
  unpinned : ∀ base, PinnedBy formats machine
    (machine.directoriesIn config.layout.root.dropLast) base →
      lexicallyNormal victim.components ≠ lexicallyNormal base

theorem retention_ensures {machine : Machine} {manifestPath : DiskPath} (now : holds machine)
    (manifest : ∀ victim, Victim formats config manifestPath machine victim → ∀ machine,
      holds machine → holds (machine.setDisk (machine.disk.remove victim)))
    (data : ∀ victim, Victim formats config manifestPath machine victim → ∀ machine verified,
      holds machine → verifiedPair formats machine.disk.contents config.layout.checkpointDir victim
        config.world config.branch = some verified →
      holds (machine.setDisk (machine.disk.remove
        (config.layout.checkpointDir.file verified.manifest.dataFile)))) :
    Program.Ensures Machine.Allowed holds (fun _ after => holds after)
      (retention formats config manifestPath) machine := by
  unfold retention
  refine Program.ensures_perform_bind.mpr ⟨now, fun answer after asked => ?_⟩
  obtain ⟨rfl, ⟨error, rfl⟩ | ⟨files, rfl, listed⟩⟩ := allowed_listFiles asked
  · exact ⟨now, now⟩
  refine (pinnedCheckpoints_allowed now config.layout).bind fun result after _ pins => ?_
  obtain ⟨rfl, pins⟩ := pins
  cases result with
  | error error => exact ⟨now, now⟩
  | ok pinned =>
    have victims : ∀ victim ∈ retentionVictims (isRemovable manifestPath pinned)
        config.keepLastCheckpoints (sortedByFirst (files.filterMap manifestEntry)).length
        (sortedByFirst (files.filterMap manifestEntry)),
        Victim formats config manifestPath after victim := by
      intro victim chosen
      obtain ⟨removable, tick, member⟩ := mem_retentionVictims chosen
      obtain ⟨apart, unpinned⟩ := isRemovable_iff.mp removable
      rw [sortedByFirst, List.mem_insertionSort] at member
      obtain ⟨file, inside, entry⟩ := List.mem_filterMap.mp member
      obtain ⟨parsed, named, same⟩ := Option.map_eq_some_iff.mp entry
      obtain ⟨rfl, rfl⟩ := Prod.mk.inj same
      have place := List.mem_filter.mp (listed.mem_iff.mp inside)
      refine ⟨of_decide_eq_true place.2, by simp [named], apart, fun base by_sibling same => ?_⟩
      exact unpinned (same ▸ pins pinned rfl base by_sibling)
    exact removeCheckpoints_ensures now (fun victim chosen => manifest victim (victims victim chosen))
      fun victim chosen => data victim (victims victim chosen)

theorem coveredSegments_subset (active : Option Lsn) (includedLsn : Lsn)
    (closed : List (Lsn × DiskPath)) :
    ∀ path ∈ coveredSegments active includedLsn closed, ∃ first, (first, path) ∈ closed := by
  induction closed with
  | nil => simp [coveredSegments]
  | cons segment rest ih =>
    intro path covered
    unfold coveredSegments at covered
    split at covered
    · rcases List.mem_cons.mp covered with rfl | later
      · exact ⟨segment.1, by simp⟩
      · obtain ⟨first, member⟩ := ih path later
        exact ⟨first, by simp [member]⟩
    · obtain ⟨first, member⟩ := ih path covered
      exact ⟨first, by simp [member]⟩

/-- Pruning only removes files of the log. -/
theorem pruneCoveredSegments_ensures {machine : Machine} {walDir : Directory} (now : holds machine)
    (removed : ∀ machine path, path.directory = walDir → holds machine →
      holds (machine.setDisk (machine.disk.remove path))) (includedLsn : Lsn) :
    Program.Ensures Machine.Allowed holds (fun _ after => holds after)
      (pruneCoveredSegments walDir includedLsn) machine := by
  unfold pruneCoveredSegments
  split
  · exact ⟨now, now⟩
  refine Program.ensures_perform_bind.mpr ⟨now, fun answer after asked => ?_⟩
  obtain ⟨rfl, ⟨error, rfl⟩ | ⟨files, rfl, listed⟩⟩ := allowed_listFiles asked
  · exact ⟨now, now⟩
  refine removeFiles_ensures now fun machine path covered => removed machine path ?_
  obtain ⟨first, member⟩ := coveredSegments_subset _ _ _ path covered
  rw [sortedByFirst, List.mem_insertionSort] at member
  obtain ⟨file, inside, entry⟩ := List.mem_filterMap.mp member
  have same : file = path := by
    unfold closedSegment at entry
    split at entry
    · cases entry
    · split at entry
      · obtain ⟨_, _, same⟩ := Option.map_eq_some_iff.mp entry
        exact (Prod.mk.inj same).2
      · cases entry
  subst same
  exact of_decide_eq_true (List.mem_filter.mp (listed.mem_iff.mp inside)).2

end Retention

end GeoWorld.Persistence
