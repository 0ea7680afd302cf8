import Mathlib

/-!
Two ascending tables walked side by side. One loop over both lists every key under which
they differ, in order, with what stands there on either side.
-/

namespace GeoWorld.Library

section Entries

variable {κ α : Type} [DecidableEq κ]

/-- The entry under a key. -/
def entryAt (entries : List (κ × α)) (key : κ) : Option α :=
  (entries.find? fun entry => entry.1 = key).map Prod.snd

theorem entryAt_nil (key : κ) : entryAt ([] : List (κ × α)) key = none :=
  rfl

theorem entryAt_cons (entry : κ × α) (entries : List (κ × α)) (key : κ) :
    entryAt (entry :: entries) key =
      if entry.1 = key then some entry.2 else entryAt entries key := by
  unfold entryAt
  rw [List.find?_cons]
  by_cases same : entry.1 = key <;> simp [same]

theorem entryAt_eq_none {entries : List (κ × α)} {key : κ}
    (absent : ∀ entry ∈ entries, entry.1 ≠ key) : entryAt entries key = none := by
  unfold entryAt
  rw [List.find?_eq_none.mpr fun entry member => by simpa using absent entry member]
  rfl

theorem mem_of_entryAt {entries : List (κ × α)} {key : κ} {value : α}
    (found : entryAt entries key = some value) : (key, value) ∈ entries := by
  obtain ⟨entry, there, rfl⟩ := Option.map_eq_some_iff.mp found
  obtain rfl : entry.1 = key := by simpa using List.find?_some there
  exact List.mem_of_find?_eq_some there

end Entries

section Ascending

variable {κ α : Type} [LT κ]

/-- The keys ascend. -/
def Ascending (entries : List (κ × α)) : Prop :=
  entries.Pairwise fun earlier later => earlier.1 < later.1

theorem Ascending.tail {entry : κ × α} {entries : List (κ × α)}
    (ascending : Ascending (entry :: entries)) : Ascending entries :=
  (List.pairwise_cons.mp ascending).2

variable [DecidableEq κ]

/-- Nothing stands behind the first entry under its key or an earlier one. -/
theorem Ascending.behind {entry : κ × α} {entries : List (κ × α)}
    (ascending : Ascending (entry :: entries)) {key : κ} (early : ¬ entry.1 < key) :
    entryAt entries key = none :=
  entryAt_eq_none fun other member same =>
    early (same ▸ (List.pairwise_cons.mp ascending).1 other member)

end Ascending

section Walk

/-- A key and the entries of both sides under it. -/
structure Difference (κ α : Type) where
  key : κ
  left : Option α
  right : Option α

variable {κ α : Type} [LT κ] [DecidableLT κ]

/-- Entries differ when one is missing, or as `differ` says. -/
def Differs (differ : α → α → Bool) : Option α → Option α → Bool
  | none, none => false
  | some left, some right => differ left right
  | _, _ => true

def differences (differ : α → α → Bool) :
    List (κ × α) → List (κ × α) → List (Difference κ α)
  | [], right => right.map fun entry => ⟨entry.1, none, some entry.2⟩
  | left, [] => left.map fun entry => ⟨entry.1, some entry.2, none⟩
  | first :: left, second :: right =>
    if first.1 < second.1 then
      ⟨first.1, some first.2, none⟩ :: differences differ left (second :: right)
    else if second.1 < first.1 then
      ⟨second.1, none, some second.2⟩ :: differences differ (first :: left) right
    else if differ first.2 second.2 then
      ⟨first.1, some first.2, some second.2⟩ :: differences differ left right
    else
      differences differ left right
  termination_by left right => left.length + right.length

end Walk

section Ordered

variable {κ α : Type} [LE κ] [LT κ] [DecidableEq κ] [Std.IsLinearOrder κ]
  [Std.LawfulOrderLT κ]

theorem Ascending.before {entry : κ × α} {entries : List (κ × α)}
    (ascending : Ascending (entry :: entries)) {key : κ} (early : key < entry.1) :
    entryAt (entry :: entries) key = none := by
  rw [entryAt_cons, if_neg fun same => Std.lt_irrefl (same ▸ early)]
  exact ascending.behind fun late => Std.lt_irrefl (Std.lt_trans early late)

omit [Std.IsLinearOrder κ] in
theorem entryAt_of_mem {entries : List (κ × α)} (ascending : Ascending entries)
    {entry : κ × α} (member : entry ∈ entries) : entryAt entries entry.1 = some entry.2 := by
  induction entries with
  | nil => cases member
  | cons first entries ih =>
    rw [entryAt_cons]
    obtain rfl | later := List.mem_cons.mp member
    · rw [if_pos rfl]
    · have apart : first.1 ≠ entry.1 := fun same =>
        Std.lt_irrefl (same ▸ (List.pairwise_cons.mp ascending).1 entry later)
      rw [if_neg apart, ih ascending.tail later]

variable [DecidableLT κ] {left right : List (κ × α)} {differ : α → α → Bool}

/-- What stands on the two sides under the key of a listed difference. -/
def Listed (differ : α → α → Bool) (left right : List (κ × α))
    (difference : Difference κ α) : Prop :=
  difference.left = entryAt left difference.key ∧
    difference.right = entryAt right difference.key ∧
    Differs differ difference.left difference.right = true

/-- The loop lists what differs, and nothing else. -/
theorem mem_differences (one : Ascending left) (two : Ascending right)
    (difference : Difference κ α) :
    difference ∈ differences differ left right ↔ Listed differ left right difference := by
  obtain ⟨key, before, after⟩ := difference
  unfold Listed
  fun_induction differences differ left right with
  | case1 right =>
    simp only [List.mem_map, Difference.mk.injEq, entryAt_nil]
    constructor
    · rintro ⟨entry, member, rfl, rfl, rfl⟩
      exact ⟨rfl, (entryAt_of_mem two member).symm, rfl⟩
    · rintro ⟨rfl, there, differs⟩
      cases after with
      | none => cases differs
      | some value => exact ⟨(key, value), mem_of_entryAt there.symm, rfl, rfl, rfl⟩
  | case2 left _ =>
    simp only [List.mem_map, Difference.mk.injEq, entryAt_nil]
    constructor
    · rintro ⟨entry, member, rfl, rfl, rfl⟩
      exact ⟨(entryAt_of_mem one member).symm, rfl, rfl⟩
    · rintro ⟨there, rfl, differs⟩
      cases before with
      | none => cases differs
      | some value => exact ⟨(key, value), mem_of_entryAt there.symm, rfl, rfl, rfl⟩
  | case3 first left second right early ih =>
    rw [List.mem_cons, ih one.tail two]
    by_cases here : first.1 = key
    · subst here
      rw [two.before early, one.behind Std.lt_irrefl, entryAt_cons, if_pos rfl]
      cases before <;> cases after <;> simp [Differs]
    · rw [entryAt_cons first, if_neg here]
      simp [Difference.mk.injEq, Ne.symm here]
  | case4 first left second right _ early ih =>
    rw [List.mem_cons, ih one two.tail]
    by_cases here : second.1 = key
    · subst here
      rw [one.before early, two.behind Std.lt_irrefl, entryAt_cons second, if_pos rfl]
      cases before <;> cases after <;> simp [Differs]
    · rw [entryAt_cons second, if_neg here]
      simp [Difference.mk.injEq, Ne.symm here]
  | case5 first left second right early late differs ih =>
    have same : first.1 = second.1 := Std.Trichotomous.trichotomous _ _ early late
    rw [List.mem_cons, ih one.tail two.tail, entryAt_cons first, entryAt_cons second, ← same]
    by_cases here : first.1 = key
    · subst here
      rw [one.behind Std.lt_irrefl, two.behind late, if_pos rfl, if_pos rfl]
      cases before <;> cases after <;> simp [Differs]
      rintro rfl rfl
      exact differs
    · rw [if_neg here, if_neg here]
      simp [Difference.mk.injEq, Ne.symm here]
  | case6 first left second right early late alike ih =>
    have same : first.1 = second.1 := Std.Trichotomous.trichotomous _ _ early late
    rw [ih one.tail two.tail, entryAt_cons first, entryAt_cons second, ← same]
    by_cases here : first.1 = key
    · subst here
      rw [one.behind Std.lt_irrefl, two.behind late, if_pos rfl, if_pos rfl]
      cases before <;> cases after <;> simp [Differs]
      rintro rfl rfl
      simpa using alike
    · rw [if_neg here, if_neg here]

theorem differences_ascending (one : Ascending left) (two : Ascending right) :
    (differences differ left right).Pairwise fun earlier later => earlier.key < later.key := by
  have later {first : κ} {left right : List (κ × α)} (one : Ascending left)
      (two : Ascending right) (out : ∀ key, ¬ first < key → entryAt left key = none ∧
        entryAt right key = none) :
      ∀ difference ∈ differences differ left right, first < difference.key := by
    intro difference member
    obtain ⟨before, after, differs⟩ := (mem_differences one two difference).mp member
    by_contra early
    obtain ⟨none, missing⟩ := out difference.key early
    rw [before, after, none, missing] at differs
    cases differs
  fun_induction differences differ left right with
  | case1 right => exact List.pairwise_map.mpr two
  | case2 left _ => exact List.pairwise_map.mpr one
  | case3 first left second right early ih =>
    refine List.pairwise_cons.mpr ⟨later one.tail two fun key before => ?_, ih one.tail two⟩
    exact ⟨one.behind before, two.before (Std.lt_of_le_of_lt (Std.not_lt.mp before) early)⟩
  | case4 first left second right _ early ih =>
    refine List.pairwise_cons.mpr ⟨later one two.tail fun key before => ?_, ih one two.tail⟩
    exact ⟨one.before (Std.lt_of_le_of_lt (Std.not_lt.mp before) early), two.behind before⟩
  | case5 first left second right early late differs ih =>
    have same : first.1 = second.1 := Std.Trichotomous.trichotomous _ _ early late
    refine List.pairwise_cons.mpr ⟨later one.tail two.tail fun key before => ?_,
      ih one.tail two.tail⟩
    exact ⟨one.behind before, two.behind (same ▸ before)⟩
  | case6 first left second right early late alike ih => exact ih one.tail two.tail

/-- The first difference stands under the least key the sides differ at. -/
theorem head_differences (one : Ascending left) (two : Ascending right)
    {difference : Difference κ α} (first : (differences differ left right).head? = some difference) :
    Listed differ left right difference ∧ ∀ key < difference.key,
      Differs differ (entryAt left key) (entryAt right key) = false := by
  have member := List.mem_of_head? first
  refine ⟨(mem_differences one two difference).mp member, fun key early => ?_⟩
  by_contra differs
  rw [Bool.not_eq_false] at differs
  have listed : (⟨key, entryAt left key, entryAt right key⟩ : Difference κ α) ∈
      differences differ left right :=
    (mem_differences one two _).mpr ⟨rfl, rfl, differs⟩
  obtain ⟨rest, split⟩ := List.head?_eq_some_iff.mp first
  have ascending : (differences differ left right).Pairwise
      fun earlier later => earlier.key < later.key := differences_ascending one two
  rw [split] at listed ascending
  obtain same | behind := List.mem_cons.mp listed
  · exact Std.lt_irrefl ((congrArg Difference.key same) ▸ early)
  · exact Std.lt_irrefl (Std.lt_trans early ((List.pairwise_cons.mp ascending).1 _ behind))

theorem differences_eq_nil (one : Ascending left) (two : Ascending right) :
    differences differ left right = [] ↔
      ∀ key, Differs differ (entryAt left key) (entryAt right key) = false := by
  rw [List.eq_nil_iff_forall_not_mem]
  constructor
  · intro none key
    by_contra differs
    rw [Bool.not_eq_false] at differs
    exact none ⟨key, _, _⟩ ((mem_differences one two _).mpr ⟨rfl, rfl, differs⟩)
  · intro alike difference member
    obtain ⟨before, after, differs⟩ := (mem_differences one two difference).mp member
    rw [before, after, alike] at differs
    cases differs

end Ordered

section TreeMaps

variable {κ α : Type} [Ord κ] [LE κ] [LT κ] [Std.TransOrd κ] [Std.LawfulOrderOrd κ]
  [Std.LawfulOrderLT κ]

theorem toList_ascending (table : Std.ExtTreeMap κ α compare) : Ascending table.toList :=
  Std.ExtTreeMap.ordered_keys_toList.imp fun before => Std.compare_eq_lt.mp before

variable [DecidableEq κ] [Std.LawfulEqOrd κ]

theorem entryAt_toList (table : Std.ExtTreeMap κ α compare) (key : κ) :
    entryAt table.toList key = table[key]? := by
  cases found : table[key]? with
  | none =>
    refine entryAt_eq_none fun entry member same => ?_
    have there := Std.ExtTreeMap.mem_toList_iff_getElem?_eq_some.mp member
    rw [same, found] at there
    cases there
  | some value =>
    exact entryAt_of_mem (toList_ascending table)
      (Std.ExtTreeMap.mem_toList_iff_getElem?_eq_some.mpr found)

end TreeMaps

end GeoWorld.Library
