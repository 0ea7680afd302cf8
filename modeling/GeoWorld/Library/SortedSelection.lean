import Mathlib

/-!
Sorting and selecting. The elements kept by `take n` of a sorted list are the
ones with fewer than `n` elements before them; two duplicate-free lists with the
same members sort to the same list when the order separates the members. When the first
ones are taken, each of the others has so many fewer ahead of it.
-/

namespace GeoWorld.Library

variable {α : Type}

section Rank

variable [DecidableEq α] (r : α → α → Prop) [DecidableRel r]

/-- How many elements of `l` other than `x` come before `x`. -/
def rank (l : List α) (x : α) : ℕ :=
  l.countP fun y => decide (r y x ∧ y ≠ x)

theorem rank_perm {first second : List α} (perm : first.Perm second) (x : α) :
    rank r first x = rank r second x :=
  perm.countP_eq _

variable {r}

/-- In a sorted list the rank of an element is its position. -/
theorem rank_append_of_sorted {before after : List α} {x : α}
    (sorted : (before ++ x :: after).Pairwise r) (distinct : (before ++ x :: after).Nodup)
    (separated : ∀ y ∈ after, r x y → r y x → x = y) :
    rank r (before ++ x :: after) x = before.length := by
  have left : ∀ y ∈ before, decide (r y x ∧ y ≠ x) = true := by
    intro y member
    have related := (List.pairwise_append.mp sorted).2.2 y member x (by simp)
    have different : y ≠ x := by
      rintro rfl
      exact (List.nodup_append.mp distinct).2.2 y member y (by simp) rfl
    simpa using ⟨related, different⟩
  have right : ∀ y ∈ after, ¬ decide (r y x ∧ y ≠ x) = true := by
    intro y member
    have sorted_tail := (List.pairwise_append.mp sorted).2.1
    have related := (List.pairwise_cons.mp sorted_tail).1 y member
    simp only [decide_eq_true_eq, not_and, not_not]
    exact fun back => (separated y member related back).symm
  rw [rank, List.countP_append, List.countP_eq_length.mpr left, List.countP_cons,
    List.countP_eq_zero.mpr right]
  simp

theorem mem_take_insertionSort_iff [Std.Total r] [IsTrans α r] {l : List α}
    (distinct : l.Nodup) (separated : ∀ x ∈ l, ∀ y ∈ l, r x y → r y x → x = y)
    (n : ℕ) (x : α) :
    x ∈ (l.insertionSort r).take n ↔ x ∈ l ∧ rank r l x < n := by
  have perm := List.perm_insertionSort r l
  have sorted := List.pairwise_insertionSort r l
  have distinct' : (l.insertionSort r).Nodup := perm.nodup_iff.mpr distinct
  constructor
  · intro member
    have member' : x ∈ l := perm.mem_iff.mp (List.mem_of_mem_take member)
    refine ⟨member', ?_⟩
    obtain ⟨before, after, split⟩ := List.append_of_mem member
    have whole : l.insertionSort r =
        before ++ x :: (after ++ (l.insertionSort r).drop n) := by
      calc l.insertionSort r = (l.insertionSort r).take n ++ (l.insertionSort r).drop n :=
            (List.take_append_drop n _).symm
        _ = _ := by rw [split]; simp
    have length : before.length < n := by
      have bound := List.length_take_le n (l.insertionSort r)
      rw [split] at bound
      simp at bound
      omega
    rw [← rank_perm r perm, whole, rank_append_of_sorted (whole ▸ sorted) (whole ▸ distinct')]
    · exact length
    · intro y member_y
      have in_sorted : y ∈ l.insertionSort r := by rw [whole]; simp [member_y]
      exact separated x member' y (perm.mem_iff.mp in_sorted)
  · rintro ⟨member, small⟩
    obtain ⟨before, after, whole⟩ := List.append_of_mem (perm.mem_iff.mpr member)
    rw [← rank_perm r perm, whole, rank_append_of_sorted (whole ▸ sorted) (whole ▸ distinct')]
      at small
    · rw [whole, List.take_append, List.mem_append]
      right
      obtain ⟨extra, exact_n⟩ := Nat.exists_eq_add_of_lt small
      have : n - before.length = extra + 1 := by omega
      simp [this]
    · intro y member_y
      have in_sorted : y ∈ l.insertionSort r := by rw [whole]; simp [member_y]
      exact separated x member y (perm.mem_iff.mp in_sorted)

/-- Fewer elements, smaller ranks. -/
theorem rank_le_of_subset {part whole : List α} (distinct : part.Nodup)
    (subset : part ⊆ whole) (x : α) : rank r part x ≤ rank r whole x :=
  (List.subperm_of_subset distinct subset).countP_le _

theorem rank_le_of_related [IsTrans α r] {l : List α} {x y : α} (related : r x y)
    (separated : ∀ z ∈ l, r z x → r x z → z = x) : rank r l x ≤ rank r l y := by
  refine List.countP_mono_left fun z member before => ?_
  simp only [decide_eq_true_eq] at before ⊢
  refine ⟨IsTrans.trans _ _ _ before.1 related, ?_⟩
  rintro rfl
  exact before.2 (separated z member before.1 related)

/-- Leaving out only elements of rank `n` or more does not change who is among the
first `n`. -/
theorem le_rank_iff_of_omitted [Std.Total r] [IsTrans α r] {part whole : List α} {n : ℕ}
    (distinct_part : part.Nodup) (distinct : whole.Nodup) (subset : part ⊆ whole)
    (separated : ∀ x ∈ whole, ∀ y ∈ whole, r x y → r y x → x = y)
    (omitted : ∀ x ∈ whole, x ∉ part → n ≤ rank r whole x) {x : α} (member : x ∈ whole) :
    n ≤ rank r part x ↔ n ≤ rank r whole x := by
  refine ⟨fun large => large.trans (rank_le_of_subset distinct_part subset x), fun large => ?_⟩
  have in_first : ∀ y, y ∈ (whole.insertionSort r).take n ↔ y ∈ whole ∧ rank r whole y < n :=
    mem_take_insertionSort_iff distinct separated n
  have first_distinct : ((whole.insertionSort r).take n).Nodup :=
    ((List.perm_insertionSort r whole).nodup_iff.mpr distinct).sublist (List.take_sublist _ _)
  have enough : n ≤ whole.length := large.trans List.countP_le_length
  have first_length : ((whole.insertionSort r).take n).length = n := by
    rw [List.length_take, List.length_insertionSort]
    omega
  have first_before : (whole.insertionSort r).take n ⊆
      part.filter fun y => decide (r y x ∧ y ≠ x) := by
    intro y taken
    obtain ⟨in_whole, small⟩ := (in_first y).mp taken
    have in_part : y ∈ part := by
      by_contra outside
      exact absurd (omitted y in_whole outside) (not_le.mpr small)
    have different : y ≠ x := by
      rintro rfl
      exact absurd large (not_le.mpr small)
    have before : r y x := by
      refine (Std.Total.total y x).resolve_right fun after => ?_
      have le := rank_le_of_related after (l := whole)
        fun z in_z first second => separated z in_z x member first second
      omega
    exact List.mem_filter.mpr ⟨in_part, decide_eq_true ⟨before, different⟩⟩
  calc n = ((whole.insertionSort r).take n).length := first_length.symm
    _ ≤ (part.filter fun y => decide (r y x ∧ y ≠ x)).length :=
        (List.subperm_of_subset first_distinct first_before).length_le
    _ = rank r part x := List.countP_eq_length_filter.symm

end Rank

/-- Sorting is determined by the members when the order separates them. -/
theorem insertionSort_congr {r : α → α → Prop} [DecidableRel r] [Std.Total r] [IsTrans α r]
    {first second : List α} (perm : first.Perm second)
    (separated : ∀ x ∈ first, ∀ y ∈ first, r x y → r y x → x = y) :
    first.insertionSort r = second.insertionSort r := by
  have sorted_perm : (first.insertionSort r).Perm (second.insertionSort r) :=
    (List.perm_insertionSort r first).trans (perm.trans (List.perm_insertionSort r second).symm)
  refine sorted_perm.eq_of_pairwise ?_ (List.pairwise_insertionSort r first)
    (List.pairwise_insertionSort r second)
  intro x y member_x member_y
  have in_first : x ∈ first := (List.mem_insertionSort r).mp member_x
  have in_second : y ∈ second := (List.mem_insertionSort r).mp member_y
  exact separated x in_first y (perm.mem_iff.mpr in_second)

section Keyed

variable {β κ : Type}

/-- Choosing at most one element per key keeps keys distinct. -/
theorem nodup_map_filterMap {f : κ → Option β} {key : β → κ}
    (keyed : ∀ k x, f k = some x → key x = k) {keys : List κ} (distinct : keys.Nodup) :
    ((keys.filterMap f).map key).Nodup := by
  refine (distinct.sublist ?_)
  induction keys with
  | nil => exact List.Sublist.slnil
  | cons head rest ih =>
    have ih := ih (List.nodup_cons.mp distinct).2
    cases chosen : f head with
    | none => simpa [chosen] using ih.trans (List.sublist_cons_self head rest)
    | some x => simpa [chosen, keyed head x chosen] using ih.cons_cons head

/-- In a list ascending by `key`, the leading elements up to a bound are all of them. -/
theorem takeWhile_eq_filter_of_ascending {key : β → ℕ} {l : List β}
    (ascending : l.Pairwise fun first second => key first < key second) (bound : ℕ) :
    l.takeWhile (fun x => key x ≤ bound) = l.filter fun x => key x ≤ bound := by
  induction l with
  | nil => rfl
  | cons head rest ih =>
    have tail := List.pairwise_cons.mp ascending
    by_cases reached : key head ≤ bound
    · simp only [List.takeWhile_cons, List.filter_cons, reached, decide_true, if_true, ih tail.2]
    · have beyond : rest.filter (fun x => decide (key x ≤ bound)) = [] := by
        refine List.filter_eq_nil_iff.mpr fun x member => ?_
        have later := tail.1 x member
        simp only [decide_eq_true_eq]
        omega
      simp only [List.takeWhile_cons, List.filter_cons, reached, decide_false,
        Bool.false_eq_true, if_false, beyond]

end Keyed

end GeoWorld.Library

/-!
What a stable sort makes of the order it is given. Two members change places in the result
just when the relation ties them, so the order of the input is lost exactly on lists
without ties.
-/

namespace GeoWorld.Library

section StableOrder

variable {α : Type} {r : α → α → Prop} [DecidableRel r] [Std.Total r] [IsTrans α r]

variable (r) in
/-- Behind the items that are not after it. -/
def insertBehind (item : α) : List α → List α
  | [] => [item]
  | head :: rest => if r head item then head :: insertBehind item rest else item :: head :: rest

theorem orderedInsert_insertBehind (first last : α) (items : List α) :
    (insertBehind r last items).orderedInsert r first =
      insertBehind r last (items.orderedInsert r first) := by
  induction items with
  | nil => by_cases before : r first last <;> simp [insertBehind, before]
  | cons head rest ih =>
    by_cases head_last : r head last
    · by_cases first_head : r first head
      · have first_last : r first last := IsTrans.trans _ _ _ first_head head_last
        simp [insertBehind, head_last, first_head, first_last]
      · simp [insertBehind, head_last, first_head, ih]
    · by_cases first_head : r first head
      · by_cases first_last : r first last <;>
          simp [insertBehind, head_last, first_head, first_last]
      · have head_first : r head first := (Std.Total.total first head).resolve_left first_head
        have first_last : ¬ r first last :=
          fun related => head_last (IsTrans.trans _ _ _ head_first related)
        simp [insertBehind, head_last, first_head, first_last]

theorem insertionSort_concat (items : List α) (item : α) :
    (items ++ [item]).insertionSort r = insertBehind r item (items.insertionSort r) := by
  induction items with
  | nil => rfl
  | cons head rest ih =>
    rw [List.cons_append, List.insertionSort_cons, ih, orderedInsert_insertBehind,
      List.insertionSort_cons]

/-- The sort of a list with one more item behind it depends on the sort of the list. -/
theorem insertionSort_concat_congr {first second : List α}
    (same : first.insertionSort r = second.insertionSort r) (item : α) :
    (first ++ [item]).insertionSort r = (second ++ [item]).insertionSort r := by
  rw [insertionSort_concat, insertionSort_concat, same]

omit [Std.Total r] in
/-- Tied items stay in the order they came in. -/
theorem eq_of_orderedInsert_comm {first second : α} (before : r first second)
    (after : r second first) {items : List α}
    (same : (items.orderedInsert r second).orderedInsert r first =
      (items.orderedInsert r first).orderedInsert r second) : first = second := by
  induction items with
  | nil =>
    have heads : first = second ∧ second = first := by simpa [before, after] using same
    exact heads.1
  | cons head rest ih =>
    by_cases first_head : r first head
    · have second_head : r second head := IsTrans.trans _ _ _ after first_head
      have heads : first = second ∧ second = first := by
        simpa [before, after, first_head, second_head] using same
      exact heads.1
    · have second_head : ¬ r second head :=
        fun related => first_head (IsTrans.trans _ _ _ before related)
      refine ih ?_
      simpa [first_head, second_head] using same

/-- The order of a list does not matter to the sort just when no two of its members tie. -/
theorem insertionSort_perm_iff [DecidableEq α] {items : List α} :
    (∀ others : List α, others.Perm items → others.insertionSort r = items.insertionSort r) ↔
      ∀ x ∈ items, ∀ y ∈ items, r x y → r y x → x = y := by
  constructor
  · intro same x member_x y member_y before after
    by_contra apart
    have behind : y ∈ items.erase x := (List.mem_erase_of_ne (Ne.symm apart)).mpr member_y
    have perm : (x :: y :: (items.erase x).erase y).Perm items :=
      ((List.perm_cons_erase behind).symm.cons x).trans (List.perm_cons_erase member_x).symm
    have forward := same _ perm
    have backward := same _ ((List.Perm.swap x y _).trans perm)
    rw [← backward] at forward
    exact apart (eq_of_orderedInsert_comm before after forward)
  · intro separated others perm
    exact (insertionSort_congr perm.symm separated).symm

/-- A sort leaves what was in order already. -/
theorem filter_insertionSort {items : List α} {keep : α → Bool}
    (ordered : (items.filter keep).Pairwise r)
    (separated : ∀ x ∈ items, ∀ y ∈ items, r x y → r y x → x = y) :
    (items.insertionSort r).filter keep = items.filter keep := by
  have perm := (List.perm_insertionSort r items).filter keep
  refine perm.eq_of_pairwise (fun x y member_x member_y => ?_)
    ((List.pairwise_insertionSort r items).filter keep) ordered
  exact separated x (List.mem_of_mem_filter (perm.mem_iff.mp member_x)) y
    (List.mem_of_mem_filter member_y)

end StableOrder

section Ahead

variable {α κ : Type} [LinearOrder κ] {key : α → κ} {r : α → α → Prop} [DecidableRel r]

/-- How many items have a smaller key. With distinct keys that is the place among the sorted
items. -/
def ahead (key : α → κ) (items : List α) (item : α) : ℕ :=
  items.countP fun other => decide (key other < key item)

end Ahead

end GeoWorld.Library
