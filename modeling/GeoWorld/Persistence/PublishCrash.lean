import Mathlib
import GeoWorld.Persistence.CrashAtomic
import GeoWorld.Persistence.TableCode

/-!
The publication program as a whole, from the names of a random generation to the latest
valid checkpoint that is found after a crash.
-/

namespace GeoWorld.Persistence

open WorldModel Library PrefixCode

section Names

variable {φ : Type} (formats : Formats) (config : CheckpointConfig)
variable (captured : CapturedCheckpoint φ) (generation : FileName) (blocks : List CheckpointBlock)

theorem stem_parsed (tick : UInt64) (tail : FileName) :
    parseManifestTick (checkpointPrefix ++ paddedDecimal tick.toNat ++ tail ++
      checkpointManifestExtension) = some tick := by
  have length := paddedDecimal_toNat_length tick
  unfold parseManifestTick
  rw [if_neg]
  · have digits : ((checkpointPrefix ++ paddedDecimal tick.toNat ++ tail ++
        checkpointManifestExtension).drop checkpointPrefix.length).take checkpointDigits =
          paddedDecimal tick.toNat := by
      rw [List.append_assoc, List.append_assoc, List.drop_left]
      change List.take segmentDigits _ = _
      rw [List.take_append_of_le_length length.ge, List.take_of_length_le length.le]
    rw [digits, parseDigits_paddedDecimal]
  · simp only [not_or, not_not, not_lt]
    refine ⟨?_, ?_, ?_⟩
    · simp only [List.length_append, length]
      simp [segmentDigits, checkpointDigits]
    · simp [List.isPrefixOf_iff_prefix, List.append_assoc]
    · exact List.isSuffixOf_iff_suffix.mpr (List.suffix_append _ _)

theorem not_temporary (rest : FileName) :
    ¬ tempFilePrefix.isPrefixOf (checkpointPrefix ++ rest) := by
  simp [tempFilePrefix, checkpointPrefix]

/-- A name that ends otherwise is not that of a manifest. -/
theorem parseManifestTick_plain {name : FileName} {last : Char} (ends : name.getLast? = some last)
    (other : last ≠ 'm') : parseManifestTick name = none := by
  unfold parseManifestTick
  rw [if_pos]
  refine .inr (.inr fun suffixed => other ?_)
  obtain ⟨front, split⟩ := List.isSuffixOf_iff_suffix.mp suffixed
  have lasts := congrArg List.getLast? split
  have ending : checkpointManifestExtension.getLast? = some 'm' := by decide
  rw [ends, List.getLast?_append, ending, Option.some_or] at lasts
  exact (Option.some.inj lasts).symm

theorem checkpointFiles_named :
    NamedFiles config (checkpointFiles formats config captured generation blocks) where
  dataDirectory := rfl
  manifestDirectory := rfl
  dataPlain := by
    simp only [checkpointFiles, Directory.file]
    split
    · exact @parseManifestTick_plain _ 't' (by simp) (by decide)
    · exact @parseManifestTick_plain _ 'k' (by simp [checkpointDataExtension]) (by decide)
  dataKept := by
    simp only [checkpointFiles, Directory.file, checkpointFileStem, List.append_assoc]
    exact not_temporary _
  candidate := by
    simp only [checkpointFiles, Directory.file, checkpointFileStem, manifestCandidate, stem_parsed]
    simp only [Option.isSome_some, Bool.and_true, List.append_assoc, Bool.not_eq_true']
    exact Bool.eq_false_iff.mpr (not_temporary _)

/-- The random part stands in every new name. -/
theorem generation_infix {path : DiskPath}
    (new : IsNew (checkpointFiles formats config captured generation blocks) path) :
    path.directory = config.layout.checkpointDir ∧ generation <:+: path.name := by
  have stem : ∀ tick, generation <:+: checkpointFileStem tick generation := by
    intro tick
    unfold checkpointFileStem
    split
    · rename_i none
      rw [none]
      exact List.nil_infix
    · exact (List.suffix_cons '-' generation).isInfix.trans (List.suffix_append _ _).isInfix
  have data : generation <:+: (checkpointFiles formats config captured generation
      blocks).dataPath.name := by
    refine (stem captured.anchor.completedTick).trans ?_
    simp only [checkpointFiles, Directory.file, List.append_assoc]
    exact (List.prefix_append _ _).isInfix
  have manifest : generation <:+: (checkpointFiles formats config captured generation
      blocks).manifestPath.name :=
    (stem captured.anchor.completedTick).trans (List.prefix_append _ _).isInfix
  have temporary : ∀ (finalPath : DiskPath) (counter : Nat), generation <:+: finalPath.name →
      generation <:+: (tempPath finalPath counter).name := by
    intro finalPath counter inside
    refine inside.trans ⟨tempFilePrefix, ['-'] ++ decimal counter, ?_⟩
    simp [tempPath, List.append_assoc]
  rcases new with rfl | rfl | ⟨counter, rfl | rfl⟩
  · exact ⟨rfl, data⟩
  · exact ⟨rfl, manifest⟩
  · exact ⟨rfl, temporary _ _ data⟩
  · exact ⟨rfl, temporary _ _ manifest⟩

end Names

section Program

variable {φ : Type} (formats : Formats) (config : CheckpointConfig)
variable (registry : List (CheckpointProvider φ)) (captured : CapturedCheckpoint φ)
variable (generation : FileName) (before : Machine)

/-- The random generation of the new names occurs in no name of the directory, neither of a
file nor in a manifest. -/
structure UnusedGeneration : Prop where
  files : ∀ path : DiskPath, path.directory = config.layout.checkpointDir →
    generation <:+: path.name → before.disk.Durable path none
  manifests : ∀ path bytes manifest, path.directory = config.layout.checkpointDir →
    before.disk.MayLeave path (some bytes) →
      readManifest formats config.world config.branch bytes = .ok manifest →
        ¬ generation <:+: manifest.dataFile

/-- Manifests are read back as they were written. -/
def ManifestsReadBack : Prop :=
  ∀ table, formats.readCheckpointManifest (formats.buildCheckpointManifest table) = some table

variable {formats config registry captured generation before}

theorem UnusedGeneration.unused (unused : UnusedGeneration formats config generation before)
    (blocks : List CheckpointBlock) :
    Unused formats config before (checkpointFiles formats config captured generation blocks) where
  absent path new := by
    obtain ⟨inside, infixed⟩ := generation_infix formats config captured generation blocks new
    exact unused.files path inside infixed
  unnamed path bytes manifest inside may read new := by
    obtain ⟨_, infixed⟩ := generation_infix formats config captured generation blocks new
    exact unused.manifests path bytes manifest inside may read infixed

/-- The manifest of a new pair says what it was written with. -/
theorem checkpointFiles_manifest (lawful : ManifestsReadBack formats)
    {blocks : List CheckpointBlock} {manifest : DecodedManifest}
    (read : readManifest formats config.world config.branch
      (checkpointFiles formats config captured generation blocks).manifest = .ok manifest) :
    manifest.anchor = captured.anchor ∧
      config.layout.checkpointDir.file manifest.dataFile =
        (checkpointFiles formats config captured generation blocks).dataPath := by
  unfold readManifest at read
  split at read
  · cases read
  · rename_i decoded result
    split at read
    · cases read
    · obtain rfl := Except.ok.inj read
      obtain ⟨anchor, file⟩ := decodeCheckpointManifest_encode formats lawful result
      exact ⟨anchor, by rw [file]; rfl⟩

/-- A pair that passed once passes wherever it is. -/
theorem filesPass_of_check (lawful : ManifestsReadBack formats) {blocks : List CheckpointBlock}
    {contents : DiskPath → Option ByteString} {verified : VerifiedCheckpoint}
    (manifest : contents (checkpointFiles formats config captured generation
      blocks).manifestPath = some (checkpointFiles formats config captured generation
        blocks).manifest)
    (data : contents (checkpointFiles formats config captured generation blocks).dataPath =
      some (checkpointFiles formats config captured generation blocks).data)
    (passed : verifiedPair formats contents config.layout.checkpointDir
      (checkpointFiles formats config captured generation blocks).manifestPath config.world
        config.branch = some verified) :
    FilesPass formats config (checkpointFiles formats config captured generation blocks) := by
  obtain ⟨bytes, table, stored, found, read, held, checked⟩ := verifiedPair_eq_some.mp passed
  obtain rfl := Option.some.inj (manifest.symm.trans found)
  obtain ⟨_, place⟩ := checkpointFiles_manifest lawful read
  rw [place] at held
  obtain rfl := Option.some.inj (data.symm.trans held)
  refine ⟨verified, fun other manifest data => ?_⟩
  exact verifiedPair_eq_some.mpr ⟨_, table, _, manifest, read, by rw [place]; exact data, checked⟩

/-- Removing a file of the log touches nothing of a checkpoint directory. -/
theorem Retaining.removeLog {files : CheckpointFiles} {now : Machine}
    (named : NamedFiles config files) (retaining : Retaining formats config before files now)
    {path : DiskPath} (inside : path.directory = config.layout.walDir) :
    Retaining formats config before files (now.setDisk (now.disk.remove path)) := by
  have apart : config.layout.walDir ≠ config.layout.checkpointDir := by
    simp [DurableLayout.walDir, DurableLayout.checkpointDir]
  have elsewhere : ∀ other : DiskPath, other.directory = config.layout.checkpointDir →
      path ≠ other := fun other place same => apart (inside.symm.trans (same ▸ place))
  exact retaining.remove (elsewhere _ named.dataDirectory) (elsewhere _ named.manifestDirectory)
    fun spared => elsewhere _ spared.directory rfl

/-- What holds all through a publication, and what a successful one leaves. -/
theorem publish_ensures (lawful : ManifestsReadBack formats)
    (unused : UnusedGeneration formats config generation before) {blocks : List CheckpointBlock}
    (encoded : encodeBlocks registry captured = .ok blocks) :
    let files := checkpointFiles formats config captured generation blocks
    Program.Ensures Machine.Allowed
      (fun now => Committing before files now ∨
        FilesPass formats config files ∧ Retaining formats config before files now)
      (fun result now => ∀ published, result = .ok published →
        published.manifestPath = files.manifestPath ∧ FilesPass formats config files ∧
          Retaining formats config before files now)
      (publish formats config registry generation captured) before := by
  intro files
  have named : NamedFiles config files :=
    checkpointFiles_named formats config captured generation blocks
  have unusedFiles : Unused formats config before files := unused.unused blocks
  unfold publish
  refine Program.ensures_perform_bind.mpr ⟨.inl unusedFiles.committing, fun error now asked => ?_⟩
  have committing : Committing before files now := by
    refine unusedFiles.committing.of_disk (allowed_createDirectories asked).1 ?_
    exact allowed_createDirectories_directories asked
  split
  · exact ⟨.inl committing, fun published same => nomatch same⟩
  rw [encoded]
  simp only
  refine ((publishFiles_ensures named committing).mono (fun _ => .inl)
    fun _ _ committing durable => And.intro committing durable).bind
      fun error now _ outcome => ?_
  obtain ⟨committing, durable⟩ := outcome
  split
  · exact ⟨.inl committing, fun published same => nomatch same⟩
  rename_i succeeded
  obtain ⟨data, manifest⟩ := durable (not_not.mp succeeded)
  have checked := @verifyCheckpointPair_allowed formats now (fun now =>
    Committing before files now ∨ FilesPass formats config files ∧
      Retaining formats config before files now) (.inl committing)
        config.layout.checkpointDir files.manifestPath config.world config.branch
  refine checked.bind fun result after _ passed => ?_
  obtain ⟨rfl, passed⟩ := passed
  cases result with
  | error error => exact ⟨.inl committing, fun published same => nomatch same⟩
  | ok verified =>
    have passes : FilesPass formats config files :=
      filesPass_of_check lawful manifest.now data.now (passed verified rfl)
    refine ((published_ensures named unusedFiles committing data manifest).mono
      (fun _ retaining => .inr ⟨passes, retaining⟩) fun _ _ retaining _ => retaining).bind
        fun _ now _ retaining => ?_
    split
    · have pruned := @pruneCoveredSegments_ensures (Retaining formats config before files) now
        config.layout.walDir retaining
        (fun now path inside retaining => retaining.removeLog named inside)
        captured.anchor.includedLsn
      refine (pruned.mono (fun _ retaining => .inr ⟨passes, retaining⟩)
        fun _ _ retaining _ => retaining).bind fun _ now _ retaining => ?_
      refine ⟨.inr ⟨passes, retaining⟩, fun published same => ?_⟩
      obtain rfl := Except.ok.inj same
      exact ⟨rfl, passes, retaining⟩
    · refine ⟨.inr ⟨passes, retaining⟩, fun published same => ?_⟩
      obtain rfl := Except.ok.inj same
      exact ⟨rfl, passes, retaining⟩

/-- Blocks that cannot be encoded stop a publication before its first file. -/
theorem publish_unencoded {error : PersistenceError}
    (encoded : encodeBlocks registry captured = .error error)
    {stopped : FileProgram (Except PersistenceError PublishedCheckpoint)} {now : Machine}
    (reached : Program.Reaches Machine.Allowed
      (publish formats config registry generation captured) before stopped now) :
    now.disk = before.disk ∧ ∀ published, stopped ≠ .pure (.ok published) := by
  have unchanged : Program.Ensures Machine.Allowed (fun now => now.disk = before.disk)
      (fun result _ => ∀ published, result ≠ .ok published)
      (publish formats config registry generation captured) before := by
    unfold publish
    refine Program.ensures_perform_bind.mpr ⟨rfl, fun error now asked => ?_⟩
    have same := (allowed_createDirectories asked).1
    split
    · exact ⟨same, fun _ => nofun⟩
    · rw [encoded]
      exact ⟨same, fun _ => nofun⟩
  obtain ⟨same, returned⟩ := unchanged.sound reached
  exact ⟨same, fun published stop => returned _ stop published rfl⟩

end Program

section Latest

variable {φ : Type} {formats : Formats} {config : CheckpointConfig}
variable {registry : List (CheckpointProvider φ)} {captured : CapturedCheckpoint φ}
variable {generation : FileName} {before : Machine}

/-- The checkpoint that this publication makes. -/
def NewCheckpoint (config : CheckpointConfig) (captured : CapturedCheckpoint φ)
    (generation : FileName) (info : CheckpointInfo) : Prop :=
  info.anchor = captured.anchor ∧ info.manifestPath = config.layout.checkpointDir.file
    (checkpointFileStem captured.anchor.completedTick generation ++ checkpointManifestExtension)

/-- What could be found without the publication, whatever a crash had then taken. -/
def LatestBefore (formats : Formats) (config : CheckpointConfig) (before : Machine)
    (latest : Except PersistenceError CheckpointInfo) : Prop :=
  ∃ view, Possible config before view ∧ LatestOutcome formats config.loader view latest

/-- Nothing that could be found is later than the new checkpoint. -/
def LargestTick (formats : Formats) (config : CheckpointConfig) (before : Machine)
    (tick : UInt64) : Prop :=
  ∀ view, Possible config before view → ∀ info, ValidCheckpoint formats config.loader view info →
    info.anchor.completedTick ≤ tick

theorem mayLeave_later {now later : Machine} (restarted : later = now ∨ now.Restarts later)
    (path : DiskPath) : now.disk.MayLeave path (later.disk.contents path) := by
  rcases restarted with rfl | restarts
  · exact Disk.mayLeave_contents _ path
  · exact restarts.1.mayLeave path

theorem possible_later {now later : Machine} (same : now.disk = before.disk)
    (restarted : later = now ∨ now.Restarts later) :
    Possible config before later.disk.contents :=
  fun path _ => same ▸ mayLeave_later restarted path

theorem LatestOutcome.congr {loader : CheckpointLoader}
    {contents other : DiskPath → Option ByteString}
    {latest : Except PersistenceError CheckpointInfo}
    (same : ∀ path, path.directory = loader.layout.checkpointDir → other path = contents path)
    (found : LatestOutcome formats loader contents latest) :
    LatestOutcome formats loader other latest := by
  have valid : ∀ info, ValidCheckpoint formats loader other info ↔
      ValidCheckpoint formats loader contents info := by
    intro info
    constructor
    · intro valid
      obtain ⟨_, _, _, _, _, place, _⟩ := valid.pair
      exact valid.congr (same _ valid.1).symm (same _ (by rw [place]; rfl)).symm
    · intro valid
      obtain ⟨_, _, _, _, _, place, _⟩ := valid.pair
      exact valid.congr (same _ valid.1) (same _ (by rw [place]; rfl))
  rcases found with ⟨info, rfl, found⟩ | ⟨rfl, absent⟩
  · refine .inl ⟨info, rfl, (valid info).mpr found.valid, fun other passes => ?_⟩
    exact found.latest other ((valid other).mp passes)
  · exact .inr ⟨rfl, fun info passes => absent info ((valid info).mp passes)⟩

/-- On a directory that a crash cannot change only its own latest checkpoint is found. -/
theorem LatestBefore.settled {latest : Except PersistenceError CheckpointInfo}
    (durable : ∀ path, path.directory = config.layout.checkpointDir →
      before.disk.Durable path (before.disk.contents path))
    (found : LatestBefore formats config before latest) :
    LatestOutcome formats config.loader before.disk.contents latest := by
  obtain ⟨view, possible, found⟩ := found
  refine found.congr fun path inside => ?_
  exact ((durable path inside).mayLeave (possible path inside)).symm

theorem newCheckpoint_of_valid (lawful : ManifestsReadBack formats)
    {blocks : List CheckpointBlock} {view : DiskPath → Option ByteString} {info : CheckpointInfo}
    (valid : ValidCheckpoint formats config.loader view info)
    (path : info.manifestPath =
      (checkpointFiles formats config captured generation blocks).manifestPath)
    (held : view info.manifestPath =
      some (checkpointFiles formats config captured generation blocks).manifest) :
    NewCheckpoint config captured generation info := by
  obtain ⟨verified, passed, same⟩ := Option.map_eq_some_iff.mp valid.2.2
  obtain ⟨bytes, table, stored, found, read, _, checked⟩ := verifiedPair_eq_some.mp passed
  obtain rfl := Option.some.inj (held.symm.trans found)
  refine ⟨?_, path⟩
  rw [← (checkpointFiles_manifest lawful read).1, ← verifyData_manifest checked, ← same]
  rfl

/-- Wherever a publication stops, what is found later is its checkpoint or was there before. -/
theorem publish_latest (lawful : ManifestsReadBack formats)
    (unused : UnusedGeneration formats config generation before)
    (largest : LargestTick formats config before captured.anchor.completedTick)
    {stopped : FileProgram (Except PersistenceError PublishedCheckpoint)} {now later : Machine}
    (reached : Program.Reaches Machine.Allowed
      (publish formats config registry generation captured) before stopped now)
    (restarted : later = now ∨ now.Restarts later)
    {latest : Except PersistenceError CheckpointInfo}
    (found : LatestOutcome formats config.loader later.disk.contents latest) :
    (∃ info, latest = .ok info ∧ NewCheckpoint config captured generation info) ∨
      LatestBefore formats config before latest := by
  cases encoded : encodeBlocks registry captured with
  | error error =>
    exact .inr ⟨_, possible_later (publish_unencoded encoded reached).1 restarted, found⟩
  | ok blocks =>
    set files := checkpointFiles formats config captured generation blocks
    have named : NamedFiles config files :=
      checkpointFiles_named formats config captured generation blocks
    have unusedFiles : Unused formats config before files := unused.unused blocks
    rcases ((publish_ensures lawful unused encoded).sound reached).1 with
      committing | ⟨passes, retaining⟩
    · have manifest := (committing.manifest).mayLeave (mayLeave_later restarted files.manifestPath)
      refine (committing_outcome named unusedFiles ?_ found).imp_left ?_
      · exact fun path _ old => (committing.kept path old).mayLeave (mayLeave_later restarted path)
      · rintro ⟨info, rfl, path, valid⟩
        refine ⟨info, rfl, newCheckpoint_of_valid lawful valid path ?_⟩
        obtain ⟨_, _, _, there, _⟩ := valid.pair
        rcases manifest with missing | held
        · rw [path, missing] at there
          cases there
        · exact path ▸ held
    · have manifest := retaining.manifest.mayLeave (mayLeave_later restarted files.manifestPath)
      have data := retaining.data.mayLeave (mayLeave_later restarted files.dataPath)
      have isNew : ∀ info, ValidCheckpoint formats config.loader later.disk.contents info →
          info.manifestPath = files.manifestPath → NewCheckpoint config captured generation info :=
        fun info valid path => newCheckpoint_of_valid lawful valid path (path ▸ manifest)
      refine (retaining_outcome named unusedFiles passes data manifest ?_ ?_ found).imp_left ?_
      · exact fun path inside old => retaining.left path _ inside old (mayLeave_later restarted path)
      · intro base possible other new valid newValid path
        rw [(isNew new newValid path).1]
        exact largest base possible other valid
      · rintro ⟨info, rfl, path, valid⟩
        exact ⟨info, rfl, isNew info valid path⟩

/-- A publication is atomic under crashes: a later search finds the new checkpoint or what it
would have found, and a success keeps the new checkpoint and those that branches build on. -/
theorem publish_crash_atomic (lawful : ManifestsReadBack formats)
    (unused : UnusedGeneration formats config generation before)
    (largest : LargestTick formats config before captured.anchor.completedTick) :
    (∀ stopped now later, Program.Reaches Machine.Allowed
        (publish formats config registry generation captured) before stopped now →
      (later = now ∨ now.Restarts later) →
        ∀ latest after, Program.Reaches Machine.Succeeds (latestValid formats config.loader)
          later (.pure latest) after →
        (∃ info, latest = .ok info ∧ NewCheckpoint config captured generation info) ∨
          LatestBefore formats config before latest ∧
            ((∀ path, path.directory = config.layout.checkpointDir →
                before.disk.Durable path (before.disk.contents path)) →
              LatestOutcome formats config.loader before.disk.contents latest)) ∧
      ∀ published now, Program.Reaches Machine.Allowed
          (publish formats config registry generation captured) before
            (.pure (.ok published)) now →
        (∃ info, ValidCheckpoint formats config.loader now.disk.contents info ∧
          info.manifestPath = published.manifestPath ∧
            NewCheckpoint config captured generation info) ∧
          ∀ info, PinnedCheckpoint formats config before info →
            ValidCheckpoint formats config.loader now.disk.contents info := by
  constructor
  · intro stopped now later reached restarted latest after searched
    have found : LatestOutcome formats config.loader later.disk.contents latest :=
      (latestValid_ensures.sound searched).2 latest rfl
    refine (publish_latest lawful unused largest reached restarted found).imp_right fun before => ?_
    exact ⟨before, before.settled⟩
  · intro published now reached
    cases encoded : encodeBlocks registry captured with
    | error error => exact absurd rfl ((publish_unencoded encoded reached).2 published)
    | ok blocks =>
      obtain ⟨path, ⟨verified, passes⟩, retaining⟩ :=
        ((publish_ensures lawful unused encoded).sound reached).2 _ rfl published rfl
      have named := checkpointFiles_named formats config captured generation blocks
      set files := checkpointFiles formats config captured generation blocks
      have valid : ValidCheckpoint formats config.loader now.disk.contents
          (checkpointInfo config.layout.checkpointDir files.manifestPath verified) :=
        ⟨named.manifestDirectory, named.candidate, Option.map_eq_some_iff.mpr
          ⟨verified, passes _ retaining.manifest.now retaining.data.now, rfl⟩⟩
      refine ⟨⟨_, valid, path.symm, ?_⟩, fun info pinned => ?_⟩
      · exact newCheckpoint_of_valid lawful valid rfl retaining.manifest.now
      · exact pinned.valid.congr
          (retaining.spared _ ⟨info, pinned, .inl rfl⟩).contents
          (retaining.spared _ ⟨info, pinned, .inr rfl⟩).contents

end Latest

theorem eq_ok_of_toOption {α ε : Type} {result : Except ε α} {value : α}
    (same : result.toOption = some value) : result = .ok value := by
  cases result with
  | error error => cases same
  | ok other => rw [Option.some.inj same]

section Holding

variable {formats : Formats} {config : CheckpointConfig} {generation : FileName}
variable {directories : List Directory} {files : List (DiskPath × ByteString)}

/-- No file of the list is of this generation or names data of it. -/
def avoidsGeneration (formats : Formats) (config : CheckpointConfig) (generation : FileName)
    (machine : Machine) (path : DiskPath) : Bool :=
  !decide (generation <:+: path.name) &&
    match (machine.disk.contents path).map (readManifest formats config.world config.branch) with
    | some (.ok manifest) => !decide (generation <:+: manifest.dataFile)
    | _ => true

theorem unusedGeneration_holding
    (avoids : (files.map Prod.fst).all
      (avoidsGeneration formats config generation (.holding directories files))) :
    UnusedGeneration formats config generation (.holding directories files) := by
  have listed : ∀ path : DiskPath, (Machine.holding directories files).disk.contents path ≠ none →
      avoidsGeneration formats config generation (.holding directories files) path :=
    fun path found => List.all_eq_true.mp avoids path (Machine.holding_listed found)
  have durable := Machine.holding_durable directories files
  constructor
  · intro path _ infixed
    have missing : (Machine.holding directories files).disk.contents path = none := by
      by_contra found
      have avoided := listed path found
      simp [avoidsGeneration, infixed] at avoided
    exact missing ▸ durable path
  · intro path bytes manifest _ may read infixed
    have found := (durable path).mayLeave may
    have avoided := listed path (found ▸ Option.some_ne_none bytes)
    simp [avoidsGeneration, ← found, read, infixed] at avoided

/-- The file is no manifest of a later checkpoint that passes. -/
def notLater (formats : Formats) (config : CheckpointConfig) (tick : UInt64) (machine : Machine)
    (path : DiskPath) : Bool :=
  match verifiedPair formats machine.disk.contents config.layout.checkpointDir path config.world
      config.branch with
  | some verified => decide (verified.manifest.anchor.completedTick ≤ tick)
  | none => true

theorem largestTick_holding {tick : UInt64}
    (checked : (files.map Prod.fst).all
      (notLater formats config tick (.holding directories files))) :
    LargestTick formats config (.holding directories files) tick := by
  intro view possible info valid
  have same : ∀ path, path.directory = config.loader.layout.checkpointDir →
      (Machine.holding directories files).disk.contents path = view path :=
    fun path inside =>
      ((Machine.holding_durable directories files path).mayLeave (possible path inside)).symm
  obtain ⟨_, _, _, found, _, place, _⟩ := valid.pair
  have valid := valid.congr (same _ valid.1) (same _ (by rw [place]; rfl))
  rw [← same _ valid.1] at found
  have checked := List.all_eq_true.mp checked info.manifestPath
    (Machine.holding_listed (found ▸ Option.some_ne_none _))
  obtain ⟨verified, passed, same⟩ := Option.map_eq_some_iff.mp valid.2.2
  have passed : verifiedPair formats (Machine.holding directories files).disk.contents
      config.layout.checkpointDir info.manifestPath config.world config.branch = some verified :=
    passed
  rw [notLater, passed] at checked
  rw [← same]
  exact of_decide_eq_true checked

end Holding

section Twins

def twinRoot (letter : Char) : Directory := [['d'], branchPrefix ++ [letter]]

def twinConfig : CheckpointConfig where
  layout := ⟨twinRoot 'a'⟩
  world := 7
  branch := Vector.replicate 16 1
  keepLastCheckpoints := 1

def twinCapture (tick : UInt64) : CapturedCheckpoint Unit where
  anchor := ⟨tick, tick + 1, 0, 5⟩
  frozen := []
  schemas := []

def twinFiles : CheckpointFiles :=
  checkpointFiles plainFormats twinConfig (twinCapture 1) ['p'] []

/-- A copy of the manifest, which names the same data. -/
def twinPath : DiskPath :=
  twinConfig.layout.checkpointDir.file
    (checkpointFileStem 1 ['q'] ++ checkpointManifestExtension)

/-- A branch that is based on the original. -/
def twinBranch : BranchManifestData where
  world := 7
  branch := Vector.replicate 16 2
  parentBranch := Vector.replicate 16 1
  forkTick := 1
  forkLsn := 0
  baseCheckpoint := twinFiles.manifestPath.components
  overlayWal := (DurableLayout.mk (twinRoot 'b')).walDir

def twinMachine : Machine :=
  .holding [[['d']], twinRoot 'a', twinRoot 'b'] [
    (twinFiles.dataPath, twinFiles.data),
    (twinFiles.manifestPath, twinFiles.manifest),
    (twinPath, twinFiles.manifest),
    (branchManifestPath ⟨twinRoot 'b'⟩, encodeBranchManifest plainFormats twinBranch)]

def twinInfo : CheckpointInfo where
  manifestPath := twinFiles.manifestPath
  dataPath := twinFiles.dataPath
  anchor := (twinCapture 1).anchor
  checkpointContentHash := twinFiles.contentHash
  dataLength := twinFiles.data.length

def twinPublish : FileProgram (Except PersistenceError PublishedCheckpoint) :=
  publish plainFormats twinConfig [] ['z', 'z'] (twinCapture 2)

example : checkpointFileStem 1 ['q'] = checkpointPrefix ++ "00000000000000000001-q".toList := by
  decide +kernel

theorem plainFormats_readBack : ManifestsReadBack plainFormats :=
  readAll_write checkpointManifestCode

theorem twins_unused : UnusedGeneration plainFormats twinConfig ['z', 'z'] twinMachine :=
  unusedGeneration_holding (by decide +kernel)

theorem twins_largest : LargestTick plainFormats twinConfig twinMachine
    (twinCapture 2).anchor.completedTick :=
  largestTick_holding (by decide +kernel)

def twinResult : Machine := (twinPublish.run Machine.perform twinMachine).2

/-- The publish succeeds, and the data of the original is gone. -/
theorem twins_run : (twinPublish.run Machine.perform twinMachine).1.toOption.isSome ∧
    twinResult.disk.contents twinFiles.dataPath = none := by
  decide +kernel

theorem twins_published : ∃ published, Program.Reaches Machine.Allowed twinPublish twinMachine
    (.pure (.ok published)) twinResult := by
  obtain ⟨published, succeeded⟩ := Option.isSome_iff_exists.mp twins_run.1
  have reached := @Program.run_reaches _ _ _ _ Machine.Allowed Machine.perform
    (fun _ _ => .inl (.inl rfl)) twinPublish twinMachine
  rw [eq_ok_of_toOption succeeded] at reached
  exact ⟨published, reached⟩

theorem publish_crash_atomic_twins : ∃ info,
    ValidCheckpoint plainFormats twinConfig.loader twinResult.disk.contents info ∧
      NewCheckpoint twinConfig (twinCapture 2) ['z', 'z'] info := by
  obtain ⟨published, reached⟩ := twins_published
  obtain ⟨info, valid, _, new⟩ := ((publish_crash_atomic plainFormats_readBack twins_unused
    twins_largest).2 published twinResult reached).1
  exact ⟨info, valid, new⟩

/-- Retention removes the copy, and with it the data of the original. -/
theorem publish_removes_shared_data :
    ¬ ∀ (φ : Type) (formats : Formats) (config : CheckpointConfig)
      (registry : List (CheckpointProvider φ)) (captured : CapturedCheckpoint φ)
      (generation : FileName) (before : Machine), ManifestsReadBack formats →
      UnusedGeneration formats config generation before →
      LargestTick formats config before captured.anchor.completedTick →
      ∀ published now, Program.Reaches Machine.Allowed
          (publish formats config registry generation captured) before
            (.pure (.ok published)) now →
        ∀ info, ValidCheckpoint formats config.loader before.disk.contents info →
          PinnedBy formats before (before.directoriesIn config.layout.root.dropLast)
            info.manifestPath.components →
          ValidCheckpoint formats config.loader now.disk.contents info := by
  intro claimed
  have based : (twinMachine.disk.contents (branchManifestPath ⟨twinRoot 'b'⟩)).map
      (fun bytes => (decodeBranchManifest plainFormats bytes).toOption) =
        some (some twinBranch) := by decide +kernel
  obtain ⟨published, reached⟩ := twins_published
  have valid : ValidCheckpoint plainFormats twinConfig.loader twinMachine.disk.contents
      twinInfo := ⟨rfl, by decide +kernel, by decide +kernel⟩
  have pinned : PinnedBy plainFormats twinMachine
      (twinMachine.directoriesIn twinConfig.layout.root.dropLast)
        twinInfo.manifestPath.components := by
    obtain ⟨bytes, held, decoded⟩ := Option.map_eq_some_iff.mp based
    refine ⟨twinRoot 'b', by decide +kernel, by decide +kernel, bytes, twinBranch, held, ?_, rfl⟩
    exact eq_ok_of_toOption decoded
  have kept := claimed Unit plainFormats twinConfig [] (twinCapture 2) ['z', 'z'] twinMachine
    plainFormats_readBack twins_unused twins_largest published _ reached twinInfo valid pinned
  obtain ⟨_, _, _, _, _, _, held⟩ := kept.pair
  exact absurd (twins_run.2.symm.trans held) nofun

end Twins

end GeoWorld.Persistence
