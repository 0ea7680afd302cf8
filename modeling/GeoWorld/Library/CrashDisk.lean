import Mathlib
import GeoWorld.Library.TreeMap

/-!
Files that survive crashes only as far as they were synced. A file keeps a prefix of
its bytes that reaches at least to what was synced; a name keeps its entry only once
its directory was synced, and until then may fall back to any entry it had since.
`past` holds those earlier entries of a name.
-/

namespace GeoWorld.Library

structure DiskFile where
  bytes : List UInt8 := []
  synced : Nat := 0
  deriving DecidableEq

structure Disk (π : Type) (cmp : π → π → Ordering) where
  live : Std.ExtTreeMap π DiskFile cmp := ∅
  past : π → List (Option DiskFile) := fun _ => []

namespace Disk

set_option linter.unusedSectionVars false

variable {π δ : Type} {cmp : π → π → Ordering} [Std.TransCmp cmp] [Std.LawfulEqCmp cmp]
variable [DecidableEq π] [DecidableEq δ]

/-- What reading a file yields. -/
def contents (disk : Disk π cmp) (path : π) : Option (List UInt8) :=
  disk.live[path]?.map DiskFile.bytes

/-- Files that were synced with their directories. -/
def ofFiles (files : Std.ExtTreeMap π (List UInt8) cmp) : Disk π cmp :=
  { live := files.map fun _ bytes => ⟨bytes, bytes.length⟩ }

/-- A change of the entry of a name; the directory remembers the entry it replaces. -/
def setEntry (disk : Disk π cmp) (path : π) (entry : Option DiskFile) : Disk π cmp where
  live := match entry with
    | none => disk.live.erase path
    | some file => disk.live.insert path file
  past := fun other =>
    if other = path then disk.live[path]? :: disk.past other else disk.past other

/-- A change inside a file, under the same entry. -/
def setFile (disk : Disk π cmp) (path : π) (file : DiskFile) : Disk π cmp :=
  { disk with live := disk.live.insert path file }

def create (disk : Disk π cmp) (path : π) : Disk π cmp :=
  disk.setEntry path (some {})

def write (disk : Disk π cmp) (path : π) (data : List UInt8) : Disk π cmp :=
  match disk.live[path]? with
  | none => disk
  | some file => disk.setFile path { file with bytes := file.bytes ++ data }

def sync (disk : Disk π cmp) (path : π) : Disk π cmp :=
  match disk.live[path]? with
  | none => disk
  | some file => disk.setFile path { file with synced := file.bytes.length }

def truncate (disk : Disk π cmp) (path : π) (size : Nat) : Disk π cmp :=
  match disk.live[path]? with
  | none => disk
  | some file => disk.setFile path ⟨file.bytes.take size, min file.synced size⟩

def rename (disk : Disk π cmp) (source target : π) : Option (Disk π cmp) :=
  disk.live[source]?.map fun file =>
    if source = target then disk else (disk.setEntry target (some file)).setEntry source none

def syncDirectory (parent : π → δ) (disk : Disk π cmp) (directory : δ) : Disk π cmp :=
  { disk with past := fun path => if parent path = directory then [] else disk.past path }

def remove (disk : Disk π cmp) (path : π) : Disk π cmp :=
  disk.setEntry path none

/-- What may be left of an entry. -/
def SurvivesAs : Option DiskFile → Option DiskFile → Prop
  | none, none => True
  | some file, some left =>
    left.bytes <+: file.bytes ∧ file.synced ≤ left.bytes.length ∧
      left.synced = left.bytes.length
  | _, _ => False

/-- A crash: every name falls back to one of its entries, every file to one of its prefixes. -/
structure CrashesTo (disk after : Disk π cmp) : Prop where
  entries : ∀ path, ∃ entry ∈ disk.live[path]? :: disk.past path,
    SurvivesAs entry after.live[path]?
  settled : ∀ path, after.past path = []

/-- An entry whose bytes have all been synced. -/
def Complete (entry : Option DiskFile) : Prop :=
  ∀ file, entry = some file → file.bytes.length ≤ file.synced

/-- The bytes that may be left of an entry. -/
def Leaves : Option DiskFile → Option (List UInt8) → Prop
  | none, none => True
  | some file, some bytes =>
    bytes <+: file.bytes ∧ min file.synced file.bytes.length ≤ bytes.length
  | _, _ => False

/-- A name may be found so, now or after a crash. -/
def MayLeave (disk : Disk π cmp) (path : π) (bytes : Option (List UInt8)) : Prop :=
  ∃ entry ∈ disk.live[path]? :: disk.past path, Leaves entry bytes

/-- Whatever happens, a name is left with one of the outcomes. -/
def Settles (disk : Disk π cmp) (path : π) (outcomes : Option (List UInt8) → Prop) : Prop :=
  ∀ entry ∈ disk.live[path]? :: disk.past path,
    Complete entry ∧ outcomes (entry.map DiskFile.bytes)

/-- No crash can take back the entry of a name, with its bytes. -/
def Durable (disk : Disk π cmp) (path : π) (bytes : Option (List UInt8)) : Prop :=
  disk.Settles path (· = bytes)

section Lookup

variable (disk : Disk π cmp) (path other : π)

@[simp] theorem live_setEntry (entry : Option DiskFile) :
    (disk.setEntry path entry).live[other]? =
      if other = path then entry else disk.live[other]? := by
  unfold setEntry
  cases entry with
  | none => exact lookup_erase _ _ _
  | some file => exact lookup_insert _ _ _ _

theorem past_setEntry (entry : Option DiskFile) :
    (disk.setEntry path entry).past other =
      if other = path then disk.live[path]? :: disk.past other else disk.past other :=
  rfl

@[simp] theorem live_setFile (file : DiskFile) :
    (disk.setFile path file).live[other]? =
      if other = path then some file else disk.live[other]? :=
  lookup_insert _ _ _ _

@[simp] theorem past_setFile (file : DiskFile) :
    (disk.setFile path file).past = disk.past :=
  rfl

end Lookup

/-- A name keeps its entry, and a crash can take it back to no entry it could not before. -/
structure KeepsAt (before after : Disk π cmp) (path : π) : Prop where
  live : after.live[path]? = before.live[path]?
  past : after.past path ⊆ before.past path

theorem KeepsAt.refl (disk : Disk π cmp) (path : π) : KeepsAt disk disk path :=
  ⟨rfl, List.Subset.refl _⟩

theorem KeepsAt.trans {first second third : Disk π cmp} {path : π}
    (left : KeepsAt first second path) (right : KeepsAt second third path) :
    KeepsAt first third path :=
  ⟨right.live.trans left.live, List.Subset.trans right.past left.past⟩

theorem KeepsAt.contents {before after : Disk π cmp} {path : π}
    (kept : KeepsAt before after path) : after.contents path = before.contents path := by
  simp only [Disk.contents, kept.live]

theorem KeepsAt.settles {before after : Disk π cmp} {path : π}
    {outcomes : Option (List UInt8) → Prop} (kept : KeepsAt before after path)
    (settles : before.Settles path outcomes) : after.Settles path outcomes := by
  intro entry member
  rw [kept.live] at member
  exact settles entry (List.cons_subset_cons _ kept.past member)

section Frame

variable {disk : Disk π cmp} {path other : π}

theorem setEntry_keeps (different : other ≠ path) (entry : Option DiskFile) :
    KeepsAt disk (disk.setEntry path entry) other :=
  ⟨by simp [different], by simp [past_setEntry, different]⟩

theorem setFile_keeps (different : other ≠ path) (file : DiskFile) :
    KeepsAt disk (disk.setFile path file) other :=
  ⟨by simp [different], List.Subset.refl _⟩

theorem write_keeps (different : other ≠ path) (data : List UInt8) :
    KeepsAt disk (disk.write path data) other := by
  unfold write
  split
  · exact .refl disk other
  · exact setFile_keeps different _

theorem sync_keeps (different : other ≠ path) : KeepsAt disk (disk.sync path) other := by
  unfold sync
  split
  · exact .refl disk other
  · exact setFile_keeps different _

theorem truncate_keeps (different : other ≠ path) (size : Nat) :
    KeepsAt disk (disk.truncate path size) other := by
  unfold truncate
  split
  · exact .refl disk other
  · exact setFile_keeps different _

theorem rename_keeps {source target : π} {after : Disk π cmp}
    (renamed : disk.rename source target = some after) (away : other ≠ source)
    (apart : other ≠ target) : KeepsAt disk after other := by
  obtain ⟨file, _, rfl⟩ := Option.map_eq_some_iff.mp renamed
  split
  · exact .refl disk other
  · exact (setEntry_keeps apart _).trans (setEntry_keeps away _)

theorem syncDirectory_keeps (parent : π → δ) (disk : Disk π cmp) (directory : δ) (path : π) :
    KeepsAt disk (disk.syncDirectory parent directory) path := by
  refine ⟨rfl, ?_⟩
  simp only [syncDirectory]
  split
  · exact List.nil_subset _
  · exact List.Subset.refl _

end Frame

theorem complete_none : Complete none :=
  fun _ same => nomatch same

theorem Settles.mono {disk : Disk π cmp} {path : π} {outcomes laxer : Option (List UInt8) → Prop}
    (settles : disk.Settles path outcomes) (weaker : ∀ bytes, outcomes bytes → laxer bytes) :
    disk.Settles path laxer :=
  fun entry member => ⟨(settles entry member).1, weaker _ (settles entry member).2⟩

/-- Also without a crash. -/
theorem Settles.now {disk : Disk π cmp} {path : π} {outcomes : Option (List UInt8) → Prop}
    (settles : disk.Settles path outcomes) : outcomes (disk.contents path) :=
  (settles _ List.mem_cons_self).2

theorem Durable.now {disk : Disk π cmp} {path : π} {bytes : Option (List UInt8)}
    (durable : disk.Durable path bytes) : disk.contents path = bytes :=
  Settles.now durable

theorem contents_eq_none {disk : Disk π cmp} {path : π} :
    disk.contents path = none ↔ disk.live[path]? = none :=
  Option.map_eq_none_iff

/-- A complete entry is left whole. -/
theorem Leaves.complete {entry : Option DiskFile} {bytes : Option (List UInt8)}
    (leaves : Leaves entry bytes) (complete : Complete entry) :
    bytes = entry.map DiskFile.bytes := by
  cases entry with
  | none =>
    cases bytes with
    | none => rfl
    | some bytes => exact leaves.elim
  | some file =>
    cases bytes with
    | none => exact leaves.elim
    | some bytes =>
      have synced := complete file rfl
      have whole : bytes = file.bytes := leaves.1.eq_of_length_le (by have := leaves.2; omega)
      simp [whole]

theorem SurvivesAs.leaves {entry left : Option DiskFile} (survives : SurvivesAs entry left) :
    Leaves entry (left.map DiskFile.bytes) := by
  cases entry with
  | none =>
    cases left with
    | none => trivial
    | some remains => exact survives.elim
  | some file =>
    cases left with
    | none => exact survives.elim
    | some remains =>
      have synced := survives.2.1
      exact ⟨survives.1, (min_le_left _ _).trans synced⟩

theorem mayLeave_contents (disk : Disk π cmp) (path : π) :
    disk.MayLeave path (disk.contents path) := by
  refine ⟨disk.live[path]?, List.mem_cons_self, ?_⟩
  cases found : disk.live[path]? with
  | none => simp [Disk.contents, found, Leaves]
  | some file => simp [Disk.contents, found, Leaves]

theorem CrashesTo.mayLeave {disk after : Disk π cmp} (crashed : disk.CrashesTo after) (path : π) :
    disk.MayLeave path (after.contents path) := by
  obtain ⟨entry, member, survives⟩ := crashed.entries path
  exact ⟨entry, member, survives.leaves⟩

theorem KeepsAt.mayLeave {before after : Disk π cmp} {path : π} {bytes : Option (List UInt8)}
    (kept : KeepsAt before after path) (may : after.MayLeave path bytes) :
    before.MayLeave path bytes := by
  obtain ⟨entry, member, leaves⟩ := may
  rw [kept.live] at member
  exact ⟨entry, List.cons_subset_cons _ kept.past member, leaves⟩

theorem Settles.mayLeave {disk : Disk π cmp} {path : π} {outcomes : Option (List UInt8) → Prop}
    {bytes : Option (List UInt8)} (settles : disk.Settles path outcomes)
    (may : disk.MayLeave path bytes) : outcomes bytes := by
  obtain ⟨entry, member, leaves⟩ := may
  have kept := settles entry member
  rw [leaves.complete kept.1]
  exact kept.2

/-- A removed file may come back, as what it may have been before. -/
theorem mayLeave_remove {disk : Disk π cmp} {path other : π} {bytes : Option (List UInt8)}
    (may : (disk.remove path).MayLeave other bytes) : bytes = none ∨ disk.MayLeave other bytes := by
  by_cases same : other = path
  · subst same
    obtain ⟨entry, member, leaves⟩ := may
    simp only [remove, live_setEntry, past_setEntry, if_true] at member
    rcases List.mem_cons.mp member with rfl | earlier
    · exact .inl (leaves.complete complete_none)
    · exact .inr ⟨entry, earlier, leaves⟩
  · exact .inr ((setEntry_keeps same none).mayLeave may)

theorem Settles.crash {disk after : Disk π cmp} {path : π}
    {outcomes : Option (List UInt8) → Prop} (settles : disk.Settles path outcomes)
    (crashed : disk.CrashesTo after) : outcomes (after.contents path) :=
  settles.mayLeave (crashed.mayLeave path)

/-- A crash leaves durable names as they are. -/
theorem Durable.crash {disk after : Disk π cmp} {path : π} {bytes : Option (List UInt8)}
    (durable : disk.Durable path bytes) (crashed : disk.CrashesTo after) :
    after.contents path = bytes :=
  Settles.crash durable crashed

/-- After a crash everything that is left is durable. -/
theorem CrashesTo.durable {disk after : Disk π cmp} (crashed : disk.CrashesTo after) (path : π) :
    after.Durable path (after.contents path) := by
  intro entry member
  rw [crashed.settled path, List.mem_singleton] at member
  subst member
  refine ⟨fun file found => ?_, rfl⟩
  obtain ⟨entry, _, survives⟩ := crashed.entries path
  rw [found] at survives
  cases entry with
  | none => exact survives.elim
  | some earlier => exact survives.2.2.ge

/-- A name that has neither an entry nor had one stays without. -/
theorem durable_absent {disk : Disk π cmp} {path : π} (missing : disk.live[path]? = none)
    (settled : disk.past path = []) : disk.Durable path none := by
  intro entry member
  rw [missing, settled, List.mem_singleton] at member
  subst member
  exact ⟨complete_none, rfl⟩

/-- A synced file under a synced name. -/
theorem durable_live {disk : Disk π cmp} {path : π} {file : DiskFile}
    (found : disk.live[path]? = some file) (synced : file.bytes.length ≤ file.synced)
    (settled : disk.past path = []) : disk.Durable path (some file.bytes) := by
  intro entry member
  rw [found, settled, List.mem_singleton] at member
  subst member
  refine ⟨fun other same => ?_, rfl⟩
  obtain rfl := Option.some.inj same
  exact synced

theorem ofFiles_durable (files : Std.ExtTreeMap π (List UInt8) cmp) (path : π) :
    (ofFiles files).Durable path files[path]? := by
  intro entry member
  simp only [ofFiles, Std.ExtTreeMap.getElem?_map, List.mem_singleton] at member
  subst member
  constructor
  · intro file found
    obtain ⟨bytes, _, rfl⟩ := Option.map_eq_some_iff.mp found
    exact le_refl _
  · simp [Option.map_map, Function.comp_def]

end Disk

end GeoWorld.Library
