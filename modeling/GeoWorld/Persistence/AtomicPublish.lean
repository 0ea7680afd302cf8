import Mathlib
import GeoWorld.Persistence.Storage

/-!
What `atomicPublish` does to a disk. At every point, also after a crash there, the
published name holds its old contents or exactly the new ones and no other name but the
temporary one has changed. With healthy storage it succeeds if and only if the temporary
name it picks is free; names are picked by a counter that restarts with the process, so
a file left by a crash can be in the way.
-/

namespace GeoWorld.Persistence

open WorldModel Library

theorem tempPath_ne (finalPath : DiskPath) (counter : Nat) :
    tempPath finalPath counter ≠ finalPath := by
  intro same
  have lengths := congrArg (fun path => path.name.length) same
  simp [tempPath, tempFilePrefix] at lengths
  omega

section Prepared

variable (disk : FileSystem) {temp finalPath : DiskPath} (contents : ByteString)

/-- The disk with the new file complete under its temporary name. -/
def prepared (temp : DiskPath) : FileSystem :=
  ((disk.create temp).write temp contents).sync temp

/-- The disk with the new file renamed to its own name. -/
def renamed (temp finalPath : DiskPath) : FileSystem :=
  ((prepared disk contents temp).setEntry finalPath
    (some ⟨contents, contents.length⟩)).setEntry temp none

theorem prepared_keeps {path : DiskPath} (different : path ≠ temp) :
    Disk.KeepsAt disk (prepared disk contents temp) path :=
  ((Disk.setEntry_keeps different _).trans (Disk.write_keeps different _)).trans
    (Disk.sync_keeps different)

theorem live_prepared : (prepared disk contents temp).live[temp]? =
    some ⟨contents, contents.length⟩ := by
  have created : (disk.create temp).live[temp]? = some {} := by
    simp [Disk.create]
  simp [prepared, Disk.write, created, Disk.sync]

theorem rename_prepared (different : temp ≠ finalPath) :
    (prepared disk contents temp).rename temp finalPath =
      some (renamed disk contents temp finalPath) := by
  simp [Disk.rename, live_prepared, different, renamed]

theorem renamed_keeps {path : DiskPath} (away : path ≠ temp) (apart : path ≠ finalPath) :
    Disk.KeepsAt disk (renamed disk contents temp finalPath) path :=
  ((prepared_keeps disk contents away).trans (Disk.setEntry_keeps apart _)).trans
    (Disk.setEntry_keeps away _)

theorem live_renamed (different : finalPath ≠ temp) :
    (renamed disk contents temp finalPath).live[finalPath]? =
      some ⟨contents, contents.length⟩ := by
  simp [renamed, different]

theorem past_renamed (different : finalPath ≠ temp) :
    (renamed disk contents temp finalPath).past finalPath ⊆
      disk.live[finalPath]? :: disk.past finalPath := by
  have kept := prepared_keeps disk contents different
  simp only [renamed, Disk.past_setEntry, different, if_false, if_true, kept.live]
  exact List.cons_subset_cons _ kept.past

/-- A rename into a synced directory is final. -/
theorem durable_renamed (different : finalPath ≠ temp) :
    (Disk.syncDirectory DiskPath.directory (renamed disk contents temp finalPath)
      finalPath.directory).Durable finalPath (some contents) := by
  have found : (Disk.syncDirectory DiskPath.directory (renamed disk contents temp finalPath)
      finalPath.directory).live[finalPath]? = some ⟨contents, contents.length⟩ :=
    live_renamed disk contents different
  exact Disk.durable_live found (le_refl _) (by simp [Disk.syncDirectory])

end Prepared

/-- With healthy storage, a free temporary name is enough. -/
theorem run_atomicPublish_free {machine : Machine} (finalPath : DiskPath) (contents : ByteString)
    (free : machine.disk.live[tempPath finalPath (machine.tempCounter + 1)]? = none) :
    Program.run Machine.perform (atomicPublish finalPath contents) machine =
      (.none, { machine with
        tempCounter := machine.tempCounter + 1
        disk := Disk.syncDirectory DiskPath.directory
          (renamed machine.disk contents (tempPath finalPath (machine.tempCounter + 1)) finalPath)
          finalPath.directory }) := by
  have moved := rename_prepared machine.disk contents
    (tempPath_ne finalPath (machine.tempCounter + 1))
  unfold prepared at moved
  unfold atomicPublish
  simp only [ask, Program.run_perform_bind, Machine.perform, free, moved, Machine.setDisk,
    afterNone, Program.run_pure, ne_eq, not_true_eq_false, if_false, if_true,
    Option.isSome_none, Bool.false_eq_true]

/-- A taken temporary name fails the publication and changes nothing but the counter. -/
theorem run_atomicPublish_taken {machine : Machine} (finalPath : DiskPath) (contents : ByteString)
    (taken : machine.disk.live[tempPath finalPath (machine.tempCounter + 1)]? ≠ none) :
    Program.run Machine.perform (atomicPublish finalPath contents) machine =
      (.ioFailure, { machine with tempCounter := machine.tempCounter + 1 }) := by
  have found := Option.isSome_iff_ne_none.mpr taken
  unfold atomicPublish
  simp only [ask, Program.run_perform_bind, Machine.perform, found, ne_eq, if_true]
  rfl

section Answers

variable {machine after : Machine} {error : PersistenceError}

theorem fault_ne_none (fault : Machine.IsFault error) : error ≠ .none := by
  rcases fault with rfl | rfl | rfl <;> simp

theorem allowed_createExclusive {path : DiskPath}
    (allowed : Machine.Allowed machine (.createExclusive path) error after) :
    error = .none ∧ machine.disk.live[path]? = none ∧
        after = machine.setDisk (machine.disk.create path) ∨
      error ≠ .none ∧ after = machine := by
  rcases allowed with (succeeded | no) | ⟨same, fault⟩
  · simp only [Machine.perform] at succeeded
    split at succeeded
    · obtain ⟨rfl, rfl⟩ := Prod.mk.inj succeeded
      exact .inr ⟨by simp, rfl⟩
    · rename_i free
      obtain ⟨rfl, rfl⟩ := Prod.mk.inj succeeded
      exact .inl ⟨rfl, by simpa using free, rfl⟩
  · exact no.elim
  · exact .inr ⟨fault_ne_none fault, same⟩

theorem allowed_write {path : DiskPath} {data : ByteString}
    (allowed : Machine.Allowed machine (.write path data) error after) :
    error = .none ∧ after = machine.setDisk (machine.disk.write path data) ∨
      error ≠ .none ∧
        ∃ written, written <+: data ∧ after = machine.setDisk (machine.disk.write path written) := by
  rcases allowed with (succeeded | no) | ⟨fault, partly⟩
  · obtain ⟨rfl, rfl⟩ := Prod.mk.inj succeeded
    exact .inl ⟨rfl, rfl⟩
  · exact no.elim
  · exact .inr ⟨fault_ne_none fault, partly⟩

theorem allowed_sync {path : DiskPath}
    (allowed : Machine.Allowed machine (.sync path) error after) :
    error = .none ∧ after = machine.setDisk (machine.disk.sync path) ∨
      error ≠ .none ∧ after = machine := by
  rcases allowed with (succeeded | no) | ⟨same, fault⟩
  · obtain ⟨rfl, rfl⟩ := Prod.mk.inj succeeded
    exact .inl ⟨rfl, rfl⟩
  · exact no.elim
  · exact .inr ⟨fault_ne_none fault, same⟩

theorem allowed_renameFile {source target : DiskPath}
    (allowed : Machine.Allowed machine (.renameFile source target) error after) :
    error = .none ∧ (∃ disk, machine.disk.rename source target = some disk ∧
        after = machine.setDisk disk) ∨
      error ≠ .none ∧ after = machine := by
  rcases allowed with (succeeded | no) | ⟨same, fault⟩
  · simp only [Machine.perform] at succeeded
    split at succeeded
    · obtain ⟨rfl, rfl⟩ := Prod.mk.inj succeeded
      exact .inr ⟨by simp, rfl⟩
    · rename_i disk moved
      obtain ⟨rfl, rfl⟩ := Prod.mk.inj succeeded
      exact .inl ⟨rfl, disk, moved, rfl⟩
  · exact no.elim
  · exact .inr ⟨fault_ne_none fault, same⟩

theorem allowed_syncDirectory {directory : Directory}
    (allowed : Machine.Allowed machine (.syncDirectory directory) error after) :
    error = .none ∧ after = machine.setDisk
        (Disk.syncDirectory DiskPath.directory machine.disk directory) ∨
      error ≠ .none ∧ after = machine := by
  rcases allowed with (succeeded | no) | ⟨same, fault⟩
  · obtain ⟨rfl, rfl⟩ := Prod.mk.inj succeeded
    exact .inl ⟨rfl, rfl⟩
  · exact no.elim
  · exact .inr ⟨fault_ne_none fault, same⟩

theorem allowed_removeFile {path : DiskPath}
    (allowed : Machine.Allowed machine (.removeFile path) error after) :
    after = machine.setDisk (machine.disk.remove path) ∧ error = .none ∨ after = machine := by
  rcases allowed with (succeeded | no) | ⟨same, _⟩
  · simp only [Machine.perform] at succeeded
    split at succeeded
    · obtain ⟨rfl, rfl⟩ := Prod.mk.inj succeeded
      exact .inl ⟨rfl, rfl⟩
    · obtain ⟨rfl, rfl⟩ := Prod.mk.inj succeeded
      exact .inr rfl
  · exact no.elim
  · exact .inr same

theorem allowed_nextTempCounter {counter : Nat}
    (allowed : Machine.Allowed machine .nextTempCounter counter after) :
    counter = machine.tempCounter + 1 ∧
      after = { machine with tempCounter := machine.tempCounter + 1 } := by
  rcases allowed with (succeeded | no) | no
  · exact Prod.mk.inj succeeded
  · exact no.elim
  · exact no.elim

theorem allowed_createDirectories {directory : Directory}
    (allowed : Machine.Allowed machine (.createDirectories directory) error after) :
    after.disk = machine.disk ∧ after.tempCounter = machine.tempCounter := by
  rcases allowed with (succeeded | no) | ⟨same, _⟩
  · obtain ⟨rfl, rfl⟩ := Prod.mk.inj succeeded
    exact ⟨rfl, rfl⟩
  · exact no.elim
  · subst same
    exact ⟨rfl, rfl⟩

theorem allowed_createDirectories_directories {directory : Directory}
    (allowed : Machine.Allowed machine (.createDirectories directory) error after) :
    ∀ root ∈ machine.directories, root ∈ after.directories := by
  rcases allowed with (succeeded | no) | ⟨same, _⟩
  · obtain ⟨rfl, rfl⟩ := Prod.mk.inj succeeded
    exact fun root known => List.mem_append_left _ known
  · exact no.elim
  · subst same
    exact fun root known => known

theorem fault_ne_notFound (fault : Machine.IsFault error) : error ≠ .notFound := by
  rcases fault with rfl | rfl | rfl <;> simp

theorem allowed_readFile {path : DiskPath} {answer : Except PersistenceError ByteString}
    (allowed : Machine.Allowed machine (.readFile path) answer after) :
    after = machine ∧
      ((∃ error, answer = .error error ∧
          (error = .notFound → machine.disk.contents path = none)) ∨
        ∃ bytes, answer = .ok bytes ∧ machine.disk.contents path = some bytes) := by
  rcases allowed with (succeeded | no) | ⟨same, error, fault, failed⟩
  · obtain ⟨rfl, rfl⟩ := Prod.mk.inj succeeded
    refine ⟨rfl, ?_⟩
    cases found : after.disk.contents path with
    | none => exact .inl ⟨.notFound, rfl, fun _ => rfl⟩
    | some bytes => exact .inr ⟨bytes, rfl, rfl⟩
  · exact no.elim
  · exact ⟨same, .inl ⟨error, failed, fun missing => absurd missing (fault_ne_notFound fault)⟩⟩

theorem allowed_listDirectories {directory : Directory}
    {answer : Except PersistenceError (List Directory)}
    (allowed : Machine.Allowed machine (.listDirectories directory) answer after) :
    after = machine ∧
      ((∃ error, answer = .error error) ∨
        ∃ found, answer = .ok found ∧ found.Perm (machine.directoriesIn directory)) := by
  rcases allowed with (succeeded | listed) | ⟨same, error, _, failed⟩
  · obtain ⟨rfl, rfl⟩ := Prod.mk.inj succeeded
    refine ⟨rfl, ?_⟩
    split
    · exact .inr ⟨_, rfl, .refl _⟩
    · exact .inl ⟨.notFound, rfl⟩
  · cases answer with
    | error error => exact listed.elim
    | ok found => exact ⟨listed.1, .inr ⟨found, rfl, listed.2.2⟩⟩
  · exact ⟨same, .inl ⟨error, failed⟩⟩

theorem allowed_listFiles {directory : Directory}
    {answer : Except PersistenceError (List DiskPath)}
    (allowed : Machine.Allowed machine (.listFiles directory) answer after) :
    after = machine ∧
      ((∃ error, answer = .error error) ∨
        ∃ files, answer = .ok files ∧ files.Perm (machine.filesIn directory)) := by
  rcases allowed with (succeeded | listed) | ⟨same, error, _, failed⟩
  · obtain ⟨rfl, rfl⟩ := Prod.mk.inj succeeded
    refine ⟨rfl, ?_⟩
    split
    · exact .inr ⟨_, rfl, .refl _⟩
    · exact .inl ⟨.notFound, rfl⟩
  · cases answer with
    | error error => exact listed.elim
    | ok files => exact ⟨listed.1, .inr ⟨files, rfl, listed.2.2⟩⟩
  · exact ⟨same, .inl ⟨error, failed⟩⟩

end Answers

theorem filesIn_empty {machine : Machine} {directory : Directory}
    (empty : ∀ path : DiskPath, path.directory = directory → machine.disk.live[path]? = none) :
    machine.filesIn directory = [] := by
  refine List.filter_eq_nil_iff.mpr fun path listed inside => ?_
  have held := Std.ExtTreeMap.mem_keys.mp listed
  rw [Std.ExtTreeMap.mem_iff_isSome_getElem?, empty path (of_decide_eq_true inside)] at held
  cases held

theorem afterNone_ensures {always : Machine → Prop} {post : PersistenceError → Machine → Prop}
    {error : PersistenceError} {next : FileProgram PersistenceError} {machine : Machine}
    (holds : always machine) (failed : error ≠ .none → post error machine)
    (ensures : Program.Ensures Machine.Allowed always post next machine) :
    Program.Ensures Machine.Allowed always post (afterNone error next) machine := by
  unfold afterNone
  split
  · exact ensures
  · rename_i other
    exact ⟨holds, failed other⟩

section Crash

variable (before : Machine) (finalPath : DiskPath) (contents : ByteString)

/-- A publication under way, or ended, or stopped by an error. -/
structure Publishing (now : Machine) : Prop where
  others : ∀ path, path ≠ finalPath → path ≠ tempPath finalPath (before.tempCounter + 1) →
    Disk.KeepsAt before.disk now.disk path
  target : Disk.KeepsAt before.disk now.disk finalPath ∨
    now.disk.live[finalPath]? = some ⟨contents, contents.length⟩ ∧
      now.disk.past finalPath ⊆ before.disk.live[finalPath]? :: before.disk.past finalPath
  directories : now.directories = before.directories

variable {before finalPath contents}

theorem Publishing.temporary {now : Machine} (publishing : Publishing before finalPath contents now)
    {disk : FileSystem}
    (kept : ∀ path, path ≠ tempPath finalPath (before.tempCounter + 1) →
      Disk.KeepsAt now.disk disk path) :
    Publishing before finalPath contents (now.setDisk disk) where
  others path apart away := (publishing.others path apart away).trans (kept path away)
  target := by
    have same := kept finalPath (tempPath_ne _ _).symm
    rcases publishing.target with untouched | ⟨live, past⟩
    · exact .inl (untouched.trans same)
    · exact .inr ⟨same.live.trans live, List.Subset.trans same.past past⟩
  directories := publishing.directories

/-- The published name is left with its old file or the whole new one. -/
theorem Publishing.settles {now : Machine} {outcomes : Option ByteString → Prop}
    (publishing : Publishing before finalPath contents now)
    (settled : before.disk.Settles finalPath outcomes) :
    now.disk.Settles finalPath fun bytes => outcomes bytes ∨ bytes = some contents := by
  rcases publishing.target with kept | ⟨live, past⟩
  · exact (kept.settles settled).mono fun bytes => .inl
  intro entry member
  rw [live] at member
  rcases List.mem_cons.mp member with rfl | earlier
  · exact ⟨fun file same => Option.some.inj same ▸ le_refl _, .inr rfl⟩
  · exact (settled entry (past earlier)).imp_right .inl

theorem Publishing.start (counter : Nat) :
    Publishing before finalPath contents { before with tempCounter := counter } :=
  ⟨fun path _ _ => .refl _ path, .inl (.refl _ finalPath), rfl⟩

/-- Cleaning up after an error. -/
theorem cleanup_ensures {now : Machine} {error : PersistenceError}
    (publishing : Publishing before finalPath contents now) (failed : error ≠ .none) :
    Program.Ensures Machine.Allowed (Publishing before finalPath contents)
      (fun error now => error = .none → now.disk.Durable finalPath (some contents))
      (do
        if error ≠ .none then
          let _ ← ask (.removeFile (tempPath finalPath (before.tempCounter + 1)))
        return error) now := by
  rw [if_pos failed]
  refine Program.ensures_perform_bind.mpr ⟨publishing, fun removed after allowed => ?_⟩
  refine ⟨?_, fun none => absurd none failed⟩
  rcases allowed_removeFile allowed with ⟨rfl, _⟩ | rfl
  · exact publishing.temporary fun path away => Disk.setEntry_keeps away _
  · exact publishing

/-- Wherever it is stopped, only the temporary name and the published one have changed, and
the published one has its old entry or the complete new file. -/
theorem atomicPublish_ensures (before : Machine) (finalPath : DiskPath) (contents : ByteString) :
    Program.Ensures Machine.Allowed (Publishing before finalPath contents)
      (fun error now => error = .none → now.disk.Durable finalPath (some contents))
      (atomicPublish finalPath contents) before := by
  unfold atomicPublish
  refine Program.ensures_perform_bind.mpr ⟨.start before.tempCounter, fun counter after asked => ?_⟩
  obtain ⟨rfl, rfl⟩ := allowed_nextTempCounter asked
  have temporary := tempPath_ne finalPath (before.tempCounter + 1)
  have starting : Publishing before finalPath contents
      { before with tempCounter := before.tempCounter + 1 } := .start _
  refine Program.ensures_perform_bind.mpr ⟨starting, fun created after asked => ?_⟩
  rcases allowed_createExclusive asked with ⟨rfl, -, rfl⟩ | ⟨failed, rfl⟩
  swap
  · rw [if_pos failed]
    exact ⟨starting, fun none => absurd none failed⟩
  have creating := starting.temporary fun path away => Disk.setEntry_keeps away (some {})
  refine Program.ensures_perform_bind.mpr ⟨creating, fun error after asked => ?_⟩
  -- an error of any step skips the others and cleans up
  rcases allowed_write asked with ⟨rfl, rfl⟩ | ⟨failed, part, _, rfl⟩
  swap
  · simp only [afterNone, failed, if_false, Program.pure_bind]
    exact cleanup_ensures (creating.temporary fun path away => Disk.write_keeps away part) failed
  have writing := creating.temporary fun path away => Disk.write_keeps away contents
  refine Program.ensures_perform_bind.mpr ⟨writing, fun error after asked => ?_⟩
  rcases allowed_sync asked with ⟨rfl, rfl⟩ | ⟨failed, rfl⟩
  swap
  · simp only [afterNone, failed, if_false, Program.pure_bind]
    exact cleanup_ensures writing failed
  have syncing := writing.temporary fun path away => Disk.sync_keeps away
  refine Program.ensures_perform_bind.mpr ⟨syncing, fun error after asked => ?_⟩
  rcases allowed_renameFile asked with ⟨rfl, disk, moved, rfl⟩ | ⟨failed, rfl⟩
  swap
  · simp only [afterNone, failed, if_false, Program.pure_bind]
    exact cleanup_ensures syncing failed
  have complete : renamed before.disk contents _ finalPath = disk :=
    Option.some.inj ((rename_prepared before.disk contents temporary).symm.trans moved)
  subst complete
  have moving : Publishing before finalPath contents
      { before with
        tempCounter := before.tempCounter + 1
        disk := renamed before.disk contents (tempPath finalPath (before.tempCounter + 1))
          finalPath } :=
    ⟨fun path apart away => renamed_keeps _ _ away apart,
      .inr ⟨live_renamed _ _ temporary.symm, past_renamed _ _ temporary.symm⟩, rfl⟩
  refine Program.ensures_perform_bind.mpr ⟨moving, fun error after asked => ?_⟩
  rcases allowed_syncDirectory asked with ⟨rfl, rfl⟩ | ⟨failed, rfl⟩
  swap
  · exact cleanup_ensures moving failed
  refine ⟨moving.temporary fun path _ => Disk.syncDirectory_keeps _ _ _ path, fun _ => ?_⟩
  exact durable_renamed before.disk contents temporary.symm

end Crash

end GeoWorld.Persistence
