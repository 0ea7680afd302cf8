import Mathlib
import GeoWorld.Persistence.PublishSteps
import GeoWorld.Persistence.TableCode
import GeoWorld.Persistence.WalScan

/-!
Pruning against a log without gaps. Covered segments are removed one by one in ascending
order; a removal that fails, or that a crash undoes, leaves a gap unless only the first
segments are gone.
-/

namespace GeoWorld.Persistence

open WorldModel Library

section Contiguous

variable (crc32c : ByteString → UInt32) (maxRecordBytes : Nat) (policy : TailPolicy)

/-- Segments that follow each other without a gap; every one but the last holds a record. -/
def contiguous (contents : DiskPath → Option ByteString) : Lsn → List SegmentEntry → Bool
  | _, [] => true
  | expected, segment :: rest => decide (segment.firstLsn = expected) &&
    match (contents segment.path).bind
        (readSegment crc32c maxRecordBytes policy segment expected) with
    | none => false
    | some (records, next) => (rest.isEmpty || !records.isEmpty) && contiguous contents next rest

variable {crc32c maxRecordBytes policy} {contents : DiskPath → Option ByteString}

theorem contiguous_cons {expected : Lsn} {segment : SegmentEntry} {rest : List SegmentEntry} :
    contiguous crc32c maxRecordBytes policy contents expected (segment :: rest) ↔
      segment.firstLsn = expected ∧ ∃ bytes records next, contents segment.path = some bytes ∧
        readSegment crc32c maxRecordBytes policy segment expected bytes = some (records, next) ∧
          (rest ≠ [] → records ≠ []) ∧
            contiguous crc32c maxRecordBytes policy contents next rest := by
  rw [contiguous, Bool.and_eq_true, decide_eq_true_eq]
  refine and_congr_right fun _ => ?_
  cases contents segment.path with
  | none => simp
  | some bytes =>
    rw [Option.bind_some]
    cases read : readSegment crc32c maxRecordBytes policy segment expected bytes with
    | none => simp [read]
    | some outcome =>
      obtain ⟨records, next⟩ := outcome
      simp [read, or_iff_not_imp_left]

theorem contiguous_congr {other : DiskPath → Option ByteString} {expected : Lsn}
    {segments : List SegmentEntry}
    (same : ∀ segment ∈ segments, other segment.path = contents segment.path)
    (chain : contiguous crc32c maxRecordBytes policy contents expected segments) :
    contiguous crc32c maxRecordBytes policy other expected segments := by
  induction segments generalizing expected with
  | nil => trivial
  | cons segment rest ih =>
    obtain ⟨first, bytes, records, next, found, read, filled, later⟩ :=
      contiguous_cons.mp chain
    refine contiguous_cons.mpr ⟨first, bytes, records, next, ?_, read, filled, ?_⟩
    · rw [same segment (by simp), found]
    · exact ih (fun segment member => same segment (by simp [member])) later

/-- What is left behind a removed front has no gap. -/
theorem contiguous_suffix {expected : Lsn} {gone rest : List SegmentEntry}
    (chain : contiguous crc32c maxRecordBytes policy contents expected (gone ++ rest)) :
    ∃ first, contiguous crc32c maxRecordBytes policy contents first rest := by
  induction gone generalizing expected with
  | nil => exact ⟨expected, chain⟩
  | cons segment gone ih =>
    obtain ⟨_, _, _, _, _, _, _, later⟩ := contiguous_cons.mp chain
    exact ih later

theorem filter_split {gone rest : List SegmentEntry} {kept : SegmentEntry → Bool}
    (removed : ∀ segment ∈ gone, kept segment = false) (stay : ∀ segment ∈ rest, kept segment) :
    (gone ++ rest).filter kept = rest := by
  rw [List.filter_append, List.filter_eq_nil_iff.mpr, List.filter_eq_self.mpr stay, List.nil_append]
  intro segment member
  simp [removed segment member]

end Contiguous

section Removal

/-- A covered segment, with what shows that it is. -/
theorem coveredSegments_next {active : Option Lsn} {includedLsn : Lsn}
    {closed : List (Lsn × DiskPath)} {path : DiskPath}
    (covered : path ∈ coveredSegments active includedLsn closed) :
    ∃ front first rest, closed = front ++ (first, path) :: rest ∧
      isCovered active includedLsn rest := by
  induction closed with
  | nil => cases covered
  | cons segment closed ih =>
    unfold coveredSegments at covered
    have inside : path ∈ coveredSegments active includedLsn closed →
        ∃ front first rest, segment :: closed = front ++ (first, path) :: rest ∧
          isCovered active includedLsn rest := by
      intro later
      obtain ⟨front, first, rest, rfl, shown⟩ := ih later
      exact ⟨segment :: front, first, rest, rfl, shown⟩
    split at covered
    · rename_i shown
      rcases List.mem_cons.mp covered with rfl | later
      · exact ⟨[], segment.1, closed, rfl, shown⟩
      · exact inside later
    · exact inside covered

theorem parseSegmentFileName_kept {name : FileName} {count : Nat} {first : Lsn}
    (parsed : parseSegmentFileName (name.rdrop count) = some first) :
    ¬ tempFilePrefix.isPrefixOf name := by
  intro temporary
  unfold parseSegmentFileName at parsed
  split at parsed
  · cases parsed
  rename_i fits
  simp only [not_or, not_not] at fits
  have started : segmentPrefix <+: name.rdrop count := by
    rw [← fits.2]
    exact List.take_prefix _ _
  obtain ⟨tail, temporary⟩ := List.isPrefixOf_iff_prefix.mp temporary
  obtain ⟨rest, started⟩ := started.trans (List.take_prefix _ name)
  have heads := congrArg List.head? (temporary.trans started.symm)
  simp [tempFilePrefix, segmentPrefix] at heads

/-- Pruning and scanning mean the same closed segments. -/
theorem closedSegment_eq {path file : DiskPath} {first : Lsn}
    (closed : closedSegment file = some (first, path)) :
    file = path ∧ segmentEntry file = some ⟨path, first, false⟩ := by
  unfold closedSegment at closed
  split at closed
  · cases closed
  rename_i inactive
  split at closed
  · rename_i extended
    obtain ⟨_, parsed, same⟩ := Option.map_eq_some_iff.mp closed
    obtain ⟨rfl, rfl⟩ := Prod.mk.inj same
    refine ⟨rfl, ?_⟩
    rw [segmentEntry, if_neg (parseSegmentFileName_kept parsed), if_neg inactive, if_pos extended,
      parsed]
    rfl
  · cases closed

theorem activeFirst_eq {files : List DiskPath} {first : Lsn}
    (active : activeFirst files = some first) :
    ∃ file ∈ files, segmentEntry file = some ⟨file, first, true⟩ := by
  obtain ⟨file, last, parsed⟩ := Option.bind_eq_some_iff.mp active
  obtain ⟨member, suffixed⟩ := List.mem_filter.mp (List.mem_of_getLast? last)
  refine ⟨file, member, ?_⟩
  rw [segmentEntry, if_neg (parseSegmentFileName_kept parsed), if_pos suffixed, parsed]
  rfl

/-- What pruning may remove: a closed segment with a later one that starts right behind
covered records. -/
structure Prunable (machine : Machine) (walDir : Directory) (includedLsn : Lsn)
    (path : DiskPath) : Prop where
  inside : path.directory = walDir
  shown : ∃ segment next, segmentEntry path = some segment ∧ segment.active = false ∧
    next ∈ (machine.filesIn walDir).filterMap segmentEntry ∧ next ≠ segment ∧
      segment.before next ∧ next.firstLsn.toNat ≤ includedLsn.toNat + 1

theorem covered_prunable {machine : Machine} {walDir : Directory} {includedLsn : Lsn}
    {files : List DiskPath} (listed : files.Perm (machine.filesIn walDir)) {path : DiskPath}
    (covered : path ∈ coveredSegments (activeFirst files) includedLsn
      (sortedByFirst (files.filterMap closedSegment))) :
    Prunable machine walDir includedLsn path := by
  obtain ⟨front, first, rest, split, shown⟩ := coveredSegments_next covered
  have inFiles : ∀ entry ∈ sortedByFirst (files.filterMap closedSegment),
      entry.2 ∈ files ∧ segmentEntry entry.2 = some ⟨entry.2, entry.1, false⟩ := by
    intro entry member
    rw [sortedByFirst, List.mem_insertionSort] at member
    obtain ⟨file, inside, closed⟩ := List.mem_filterMap.mp member
    obtain ⟨rfl, segment⟩ := closedSegment_eq closed
    exact ⟨inside, segment⟩
  have entries : ∀ file ∈ files, ∀ segment, segmentEntry file = some segment →
      segment ∈ (machine.filesIn walDir).filterMap segmentEntry :=
    fun file member segment entry => List.mem_filterMap.mpr ⟨file, listed.mem_iff.mp member, entry⟩
  obtain ⟨inside, segment⟩ := inFiles (first, path) (by simp [split])
  have bound : ∀ next : Lsn, 0 < next → next - 1 ≤ includedLsn →
      next.toNat ≤ includedLsn.toNat + 1 := by
    intro next positive below
    have some : 1 ≤ next.toNat := UInt64.lt_iff_toNat_lt.mp positive
    have size := UInt64.toNat_sub_of_le next 1 (UInt64.le_iff_toNat_le.mpr some)
    have below := UInt64.le_iff_toNat_le.mp below
    rw [size] at below
    change next.toNat - 1 ≤ _ at below
    omega
  refine ⟨of_decide_eq_true (List.mem_filter.mp (listed.mem_iff.mp inside)).2, ⟨path, first, false⟩,
    ?_⟩
  unfold isCovered at shown
  cases follows : nextFirst (activeFirst files) rest with
  | none => simp [follows] at shown
  | some next =>
    simp only [follows, decide_eq_true_eq] at shown
    have close := bound next shown.1 shown.2
    cases rest with
    | nil =>
      obtain ⟨file, member, active⟩ := activeFirst_eq follows
      exact ⟨⟨file, next, true⟩, segment, rfl, entries file member _ active, by simp, rfl, close⟩
    | cons other rest =>
      obtain rfl := Option.some.inj follows
      obtain ⟨member, entry⟩ := inFiles other (by simp [split])
      have sorted : (sortedByFirst (files.filterMap closedSegment)).Pairwise
          fun left right => left.1 ≤ right.1 := by
        have : Std.Total fun left right : Lsn × DiskPath => decide (left.1 ≤ right.1) = true :=
          ⟨fun left right => by simpa using UInt64.le_total left.1 right.1⟩
        have : IsTrans (Lsn × DiskPath) fun left right => decide (left.1 ≤ right.1) = true :=
          ⟨fun _ _ _ first second => by simp at first second ⊢; exact UInt64.le_trans first second⟩
        refine (List.pairwise_insertionSort (fun left right : Lsn × DiskPath =>
          decide (left.1 ≤ right.1) = true) _).imp fun order => of_decide_eq_true order
      have distinct : (sortedByFirst (files.filterMap closedSegment)).Pairwise
          fun left right => left.2 ≠ right.2 := by
        have nodup : files.Nodup := listed.nodup_iff.mpr (filesIn_nodup machine walDir)
        have entries : (files.filterMap closedSegment).Pairwise
            fun left right => left.2 ≠ right.2 := by
          refine List.Pairwise.filterMap _ (fun left right apart one first two second => ?_) nodup
          rw [← (closedSegment_eq first).1, ← (closedSegment_eq second).1]
          exact apart
        exact ((List.perm_insertionSort _ _).pairwise_iff fun apart => apart.symm).mpr entries
      rw [split] at sorted distinct
      have order := (List.pairwise_cons.mp (List.pairwise_append.mp sorted).2.1).1 other (by simp)
      have apart := (List.pairwise_cons.mp (List.pairwise_append.mp distinct).2.1).1 other (by simp)
      refine ⟨⟨other.2, other.1, false⟩, segment, rfl, entries other.2 member _ entry, ?_, ?_, close⟩
      · intro same
        exact apart (congrArg SegmentEntry.path same).symm
      · simpa [SegmentEntry.before] using order

/-- What pruning leaves: nothing is changed but prunable files, which may be gone, and may
come back with a crash. -/
structure Pruned (walDir : Directory) (includedLsn : Lsn) (before now : Machine) : Prop where
  kept : ∀ path, Disk.KeepsAt before.disk now.disk path ∨
    now.disk.contents path = none ∧ Prunable before walDir includedLsn path ∧
      ∀ bytes, now.disk.MayLeave path bytes → bytes = none ∨ before.disk.MayLeave path bytes

theorem Pruned.remove {walDir : Directory} {includedLsn : Lsn} {before now : Machine}
    (pruned : Pruned walDir includedLsn before now) {path : DiskPath}
    (prunable : Prunable before walDir includedLsn path) :
    Pruned walDir includedLsn before (now.setDisk (now.disk.remove path)) where
  kept other := by
    by_cases same : other = path
    · subst same
      refine .inr ⟨Disk.contents_eq_none.mpr ?_, prunable, fun bytes may => ?_⟩
      · exact (Disk.live_setEntry _ _ _ none).trans (if_pos rfl)
      · rcases Disk.mayLeave_remove may with none | may
        · exact .inl none
        rcases pruned.kept other with keeps | ⟨-, -, left⟩
        · exact .inr (keeps.mayLeave may)
        · exact left bytes may
    · have keeps : Disk.KeepsAt now.disk (now.disk.remove path) other :=
        Disk.setEntry_keeps same none
      rcases pruned.kept other with earlier | ⟨missing, prunable, left⟩
      · exact .inl (earlier.trans keeps)
      · exact .inr ⟨keeps.contents.trans missing, prunable,
          fun bytes may => left bytes (keeps.mayLeave may)⟩

theorem Pruned.contents {walDir : Directory} {includedLsn : Lsn} {before now : Machine}
    (pruned : Pruned walDir includedLsn before now) (path : DiskPath) :
    now.disk.contents path = before.disk.contents path ∨
      now.disk.contents path = none ∧ Prunable before walDir includedLsn path :=
  (pruned.kept path).imp Disk.KeepsAt.contents fun gone => ⟨gone.1, gone.2.1⟩

theorem pruneCoveredSegments_pruned (before : Machine) (walDir : Directory) (includedLsn : Lsn) :
    Program.Ensures Machine.Allowed (Pruned walDir includedLsn before) (fun _ _ => True)
      (pruneCoveredSegments walDir includedLsn) before := by
  have start : Pruned walDir includedLsn before before := ⟨fun path => .inl (.refl _ path)⟩
  unfold pruneCoveredSegments
  split
  · exact ⟨start, trivial⟩
  refine Program.ensures_perform_bind.mpr ⟨start, fun answer after asked => ?_⟩
  obtain ⟨rfl, ⟨error, rfl⟩ | ⟨files, rfl, listed⟩⟩ := allowed_listFiles asked
  · exact ⟨start, trivial⟩
  refine (removeFiles_ensures start fun machine path covered pruned => ?_).mono
    (fun _ pruned => pruned) fun _ _ _ _ => trivial
  exact pruned.remove (covered_prunable listed covered)

end Removal

section Outcome

variable {crc32c : ByteString → UInt32} {maxRecordBytes : Nat} {policy : TailPolicy}
variable {walDir : Directory} {includedLsn : Lsn}

/-- A segment starts at most one behind an LSN, if there is any segment. -/
def BeginsBy (machine : Machine) (walDir : Directory) (includedLsn : Lsn) : Prop :=
  ∀ segment ∈ (machine.filesIn walDir).filterMap segmentEntry,
    ∃ lead ∈ (machine.filesIn walDir).filterMap segmentEntry,
      lead.firstLsn.toNat ≤ includedLsn.toNat + 1

/-- After a crash any of the removals may be undone. -/
def UnlinksSurvive (before now later : Machine) : Prop :=
  ∀ path, later.disk.contents path = now.disk.contents path ∨
    now.disk.contents path = none ∧ later.disk.contents path = before.disk.contents path

/-- With a segment every segment before it is gone. -/
def FrontGone (before later : Machine) (walDir : Directory) : Prop :=
  ∀ left ∈ (before.filesIn walDir).filterMap segmentEntry,
    ∀ right ∈ (before.filesIn walDir).filterMap segmentEntry, left.before right →
      later.disk.contents right.path = none → later.disk.contents left.path = none

theorem before_first {left right : SegmentEntry} (one : left.before right)
    (two : right.before left) : left.firstLsn = right.firstLsn := by
  unfold SegmentEntry.before at one two
  by_cases same : left.active = right.active
  · simp only [same, ne_eq, not_true_eq_false, if_false, decide_eq_true_eq] at one two
    exact UInt64.le_antisymm one two
  · rw [if_pos same] at one
    rw [if_pos (Ne.symm same)] at two
    simp_all

/-- Segments in order with growing first LSNs. -/
def Ascending (segments : List SegmentEntry) : Prop :=
  segments.Pairwise fun left right =>
    left.before right ∧ left.firstLsn.toNat < right.firstLsn.toNat

theorem Ascending.below {segments : List SegmentEntry} (ascending : Ascending segments)
    {left right : SegmentEntry} (leftIn : left ∈ segments) (rightIn : right ∈ segments)
    (different : left ≠ right) (order : left.before right) :
    left.firstLsn.toNat < right.firstLsn.toNat := by
  have either : segments.Pairwise fun left right =>
      (left.before right ∧ left.firstLsn.toNat < right.firstLsn.toNat) ∨
        (right.before left ∧ right.firstLsn.toNat < left.firstLsn.toNat) :=
    ascending.imp Or.inl
  have : Std.Symm fun left right : SegmentEntry =>
      (left.before right ∧ left.firstLsn.toNat < right.firstLsn.toNat) ∨
        (right.before left ∧ right.firstLsn.toNat < left.firstLsn.toNat) := ⟨fun _ _ => Or.symm⟩
  rcases either.forall leftIn rightIn different with below | above
  · exact below.2
  · rw [before_first order above.1] at above
    exact absurd above.2 (lt_irrefl _)

theorem SegmentsOf.unique {machine : Machine} {segments other : List SegmentEntry}
    (listed : SegmentsOf machine walDir segments) (again : SegmentsOf machine walDir other)
    (ascending : Ascending segments) : other = segments := by
  refine List.Perm.eq_of_pairwise (fun left right leftIn rightIn one two => ?_) again.2 listed.2
    (again.1.trans listed.1.symm)
  have leftIn := listed.1.mem_iff.mpr (again.1.mem_iff.mp leftIn)
  by_contra different
  have below := ascending.below leftIn rightIn different one
  rw [before_first one two] at below
  exact lt_irrefl _ below

/-- Where what is gone lies in front of what is kept, the list splits there. -/
theorem split_of_front {segments : List SegmentEntry} {kept : SegmentEntry → Bool}
    (front : segments.Pairwise fun left right => kept right = false → kept left = false) :
    ∃ gone rest, segments = gone ++ rest ∧ (∀ segment ∈ gone, kept segment = false) ∧
      ∀ segment ∈ rest, kept segment := by
  induction segments with
  | nil => exact ⟨[], [], rfl, by simp, by simp⟩
  | cons segment segments ih =>
    obtain ⟨head, front⟩ := List.pairwise_cons.mp front
    cases keep : kept segment with
    | true =>
      refine ⟨[], segment :: segments, rfl, by simp, fun other member => ?_⟩
      rcases List.mem_cons.mp member with rfl | later
      · exact keep
      · by_contra missing
        have lost := head other later (by simpa using missing)
        rw [keep] at lost
        cases lost
    | false =>
      obtain ⟨gone, rest, rfl, removed, stay⟩ := ih front
      refine ⟨segment :: gone, rest, rfl, fun other member => ?_, stay⟩
      rcases List.mem_cons.mp member with rfl | later
      · exact keep
      · exact removed other later

section Pruning

variable {before now later : Machine} {segments : List SegmentEntry} {first : Lsn}

/-- Whether a segment is still there. -/
def isKept (later : Machine) (segment : SegmentEntry) : Bool :=
  (later.disk.contents segment.path).isSome

theorem isKept_eq_false {segment : SegmentEntry} :
    isKept later segment = false ↔ later.disk.contents segment.path = none := by
  rw [isKept, Option.isSome_eq_false_iff, Option.isNone_iff_eq_none]

/-- What may be left of a directory of segments. -/
def LeftOver (walDir : Directory) (includedLsn : Lsn) (before later : Machine) : Prop :=
  ∀ path, later.disk.contents path = before.disk.contents path ∨
    later.disk.contents path = none ∧ Prunable before walDir includedLsn path

theorem LeftOver.same (left : LeftOver walDir includedLsn before later) {path : DiskPath}
    (present : later.disk.contents path ≠ none) :
    later.disk.contents path = before.disk.contents path :=
  (left path).resolve_right fun gone => present gone.1

theorem LeftOver.filtered (left : LeftOver walDir includedLsn before later)
    (listed : SegmentsOf before walDir segments) :
    SegmentsOf later walDir (segments.filter (isKept later)) := by
  refine ⟨?_, listed.2.filter _⟩
  have nodup : ∀ {entries : List SegmentEntry},
      (entries.Pairwise fun left right => left.path ≠ right.path) → entries.Nodup :=
    fun distinct => distinct.imp fun apart same => apart (congrArg SegmentEntry.path same)
  refine (List.perm_ext_iff_of_nodup (nodup (listed.distinct.filter _))
    (nodup (entries_distinct later walDir))).mpr fun segment => ?_
  rw [List.mem_filter, mem_entries, listed.mem_iff, isKept, Option.isSome_iff_ne_none]
  constructor
  · exact fun ⟨⟨entry, inside, _⟩, present⟩ => ⟨entry, inside, present⟩
  · exact fun ⟨entry, inside, present⟩ => ⟨⟨entry, inside, left.same present ▸ present⟩, present⟩

/-- The last segment is never removed. -/
theorem LeftOver.last (left : LeftOver walDir includedLsn before later)
    (listed : SegmentsOf before walDir segments) (ascending : Ascending segments) :
    ∀ segment ∈ segments.getLast?, isKept later segment := by
  intro segment last
  by_contra missing
  have gone := isKept_eq_false.mp (Bool.eq_false_iff.mpr missing)
  have member := List.mem_of_getLast? last
  obtain ⟨entry, _, present⟩ := listed.mem_iff.mp member
  rcases left segment.path with same | ⟨-, prunable⟩
  · exact present (same ▸ gone)
  obtain ⟨_, other, next, same, _, inside, different, order, _⟩ := prunable
  obtain rfl := Option.some.inj (entry.symm.trans same)
  have nextIn := listed.1.mem_iff.mpr inside
  have below := ascending.below member nextIn different.symm order
  obtain ⟨front, split⟩ := List.getLast?_eq_some_iff.mp last
  rw [split] at nextIn ascending
  rcases List.mem_append.mp nextIn with inside | same
  · have above := ((List.pairwise_append.mp ascending).2.2 next inside segment (by simp)).2
    omega
  · exact different (List.mem_singleton.mp same)

theorem LeftOver.contiguous (left : LeftOver walDir includedLsn before later)
    (listed : SegmentsOf before walDir segments) (ascending : Ascending segments)
    (chain : contiguous crc32c maxRecordBytes policy before.disk.contents first segments)
    (begins : BeginsBy before walDir includedLsn) (front : FrontGone before later walDir) :
    (∃ first, contiguous crc32c maxRecordBytes policy later.disk.contents first
      (segments.filter (isKept later))) ∧ BeginsBy later walDir includedLsn := by
  have monotone : segments.Pairwise fun left right =>
      isKept later right = false → isKept later left = false := by
    refine List.Pairwise.imp_of_mem (fun {one two} oneIn twoIn order lost => ?_) ascending
    exact isKept_eq_false.mpr (front one (listed.1.mem_iff.mp oneIn) two
      (listed.1.mem_iff.mp twoIn) order.1 (isKept_eq_false.mp lost))
  obtain ⟨gone, rest, rfl, removed, stay⟩ := split_of_front monotone
  have filtered := left.filtered listed
  rw [filter_split removed stay] at filtered ⊢
  refine ⟨?_, fun segment member => ?_⟩
  · obtain ⟨start, chained⟩ := contiguous_suffix chain
    refine ⟨start, contiguous_congr (fun segment member => ?_) chained⟩
    exact left.same (filtered.present segment member).2
  have inRest := filtered.1.mem_iff.mpr member
  have inLater : ∀ other ∈ rest, other ∈ (later.filesIn walDir).filterMap segmentEntry :=
    fun other member => filtered.1.mem_iff.mp member
  rcases List.eq_nil_or_concat gone with rfl | ⟨earlier, last, rfl⟩
  · obtain ⟨lead, leadIn, close⟩ := begins segment
      (listed.1.mem_iff.mp (List.mem_append_right _ inRest))
    exact ⟨lead, inLater lead (listed.1.mem_iff.mpr leadIn), close⟩
  -- the last removed segment was covered by one that is still there
  have lastIn : last ∈ earlier.concat last ++ rest := by simp
  have lost := isKept_eq_false.mp (removed last (by simp))
  obtain ⟨entry, _, present⟩ := listed.mem_iff.mp lastIn
  rcases left last.path with same | ⟨-, prunable⟩
  · exact absurd (same ▸ lost) present
  obtain ⟨_, other, next, same, _, inside, different, order, close⟩ := prunable
  obtain rfl := Option.some.inj (entry.symm.trans same)
  have nextIn := listed.1.mem_iff.mpr inside
  have below := ascending.below lastIn nextIn different.symm order
  refine ⟨next, inLater next ?_, close⟩
  rcases List.mem_append.mp nextIn with inside | inside
  · rw [List.concat_eq_append] at inside ascending
    rcases List.mem_append.mp inside with inside | same
    · have above := (List.pairwise_append.mp (List.pairwise_append.mp ascending).1).2.2 next inside
        last (by simp)
      omega
    · exact absurd (List.mem_singleton.mp same) different
  · exact inside

/-- On a directory that is safely stored a crash does nothing but undo removals. -/
theorem unlinksSurvive_of_restart {stopped : FileProgram Nat}
    (stored : ∀ path, before.disk.Durable path (before.disk.contents path))
    (reached : Program.Reaches Machine.Allowed (pruneCoveredSegments walDir includedLsn) before
      stopped now) (restarted : now.Restarts later) : UnlinksSurvive before now later := by
  have pruned := ((pruneCoveredSegments_pruned before walDir includedLsn).sound reached).1
  intro path
  have may := restarted.1.mayLeave path
  rcases pruned.kept path with keeps | ⟨missing, -, left⟩
  · have found := (stored path).mayLeave (keeps.mayLeave may)
    exact .inl (found.trans keeps.contents.symm)
  · rcases left _ may with none | older
    · exact .inl (none.trans missing.symm)
    · exact .inr ⟨missing, (stored path).mayLeave older⟩

end Pruning

section Gap

example : segmentFileName 42 = "seg-00000000000000000042".toList := by decide +kernel

end Gap

end Outcome

end GeoWorld.Persistence
