import Mathlib

/-!
Lookup rules for extensional tree maps over a lawful linear comparison, in the
equality form that case splits use, and the facts about ascending traversals
(sorted keys, distinct keys, membership) that every loop over a map needs.
-/

namespace GeoWorld.Library

open Std

section Lookup

variable {α β γ : Type} {cmp : α → α → Ordering} [TransCmp cmp] [LawfulEqCmp cmp]
variable [DecidableEq α]

theorem lookup_insert (t : ExtTreeMap α β cmp) (k a : α) (v : β) :
    (t.insert k v)[a]? = if a = k then some v else t[a]? := by
  rw [ExtTreeMap.getElem?_insert]
  simp only [LawfulEqCmp.compare_eq_iff_eq, @eq_comm _ a k]

theorem lookup_erase (t : ExtTreeMap α β cmp) (k a : α) :
    (t.erase k)[a]? = if a = k then none else t[a]? := by
  rw [ExtTreeMap.getElem?_erase]
  simp only [LawfulEqCmp.compare_eq_iff_eq, @eq_comm _ a k]

@[simp] theorem lookup_insert_self (t : ExtTreeMap α β cmp) (k : α) (v : β) :
    (t.insert k v)[k]? = some v := by
  rw [lookup_insert, if_pos rfl]

theorem lookup_insert_ne (t : ExtTreeMap α β cmp) {k a : α} (h : a ≠ k) (v : β) :
    (t.insert k v)[a]? = t[a]? := by
  rw [lookup_insert, if_neg h]

@[simp] theorem lookup_erase_self (t : ExtTreeMap α β cmp) (k : α) :
    (t.erase k)[k]? = none := by
  rw [lookup_erase, if_pos rfl]

theorem lookup_erase_ne (t : ExtTreeMap α β cmp) {k a : α} (h : a ≠ k) :
    (t.erase k)[a]? = t[a]? := by
  rw [lookup_erase, if_neg h]

theorem lookup_insertIfNew (t : ExtTreeMap α β cmp) {k : α} (absent : t[k]? = none) (a : α)
    (v : β) : (t.insertIfNew k v)[a]? = if a = k then some v else t[a]? := by
  have missing : k ∉ t := by
    rw [ExtTreeMap.mem_iff_isSome_getElem?, absent]
    simp
  rw [ExtTreeMap.getElem?_insertIfNew]
  by_cases same : a = k
  · subst same
    simp [missing]
  · simp [same, Ne.symm same]

/-- An entry that is there already stays. -/
theorem lookup_insertIfNew_or (t : ExtTreeMap α β cmp) (k a : α) (v : β) :
    (t.insertIfNew k v)[a]? = t[a]?.or (if a = k then some v else none) := by
  rw [ExtTreeMap.getElem?_insertIfNew]
  by_cases same : a = k
  · subst same
    cases held : t[a]? with
    | none =>
      have missing : a ∉ t := by
        rw [ExtTreeMap.mem_iff_isSome_getElem?, held]
        simp
      simp [missing]
    | some other =>
      have present : a ∈ t := by
        rw [ExtTreeMap.mem_iff_isSome_getElem?, held]
        rfl
      simp [present]
  · have apart : ¬ (cmp k a = .eq ∧ k ∉ t) := fun both =>
      same (LawfulEqCmp.compare_eq_iff_eq.mp both.1).symm
    rw [if_neg apart, if_neg same, Option.or_none]

/-- Of the values with one key the first is kept. -/
theorem lookup_foldl_insertIfNew [BEq α] [LawfulBEq α] (key : β → α) (values : List β) (t : ExtTreeMap α β cmp) (a : α) :
    (values.foldl (fun map value => map.insertIfNew (key value) value) t)[a]? =
      t[a]?.or (values.find? fun value => key value == a) := by
  induction values generalizing t with
  | nil => simp
  | cons value rest ih =>
    rw [List.foldl_cons, ih, lookup_insertIfNew_or, List.find?_cons]
    by_cases same : key value = a
    · subst same
      cases t[key value]? <;> simp
    · have other : (key value == a) = false := beq_eq_false_iff_ne.mpr same
      simp [Ne.symm same, other]

theorem lookup_foldl_entries [BEq α] [LawfulBEq α] (entries : List (α × β))
    (t : ExtTreeMap α β cmp) (a : α) :
    (entries.foldl (fun map entry => map.insertIfNew entry.1 entry.2) t)[a]? =
      t[a]?.or ((entries.find? fun entry => entry.1 == a).map Prod.snd) := by
  induction entries generalizing t with
  | nil => simp
  | cons entry rest ih =>
    rw [List.foldl_cons, ih, lookup_insertIfNew_or, List.find?_cons]
    by_cases same : entry.1 = a
    · subst same
      cases t[entry.1]? <;> simp
    · have other : (entry.1 == a) = false := beq_eq_false_iff_ne.mpr same
      simp [Ne.symm same, other]

/-- A map is rebuilt from its own entries. -/
theorem foldl_insertIfNew_toList [BEq α] [LawfulBEq α] (t : ExtTreeMap α β cmp) :
    t.toList.foldl (fun map entry => map.insertIfNew entry.1 entry.2) ∅ = t := by
  refine ExtTreeMap.ext_getElem? fun a => ?_
  rw [lookup_foldl_entries, ExtTreeMap.getElem?_empty, Option.none_or]
  cases found : t.toList.find? fun entry => entry.1 == a with
  | none =>
    cases held : t[a]? with
    | none => rfl
    | some value =>
      have listed := ExtTreeMap.mem_toList_iff_getElem?_eq_some.mpr held
      exact absurd (beq_self_eq_true a) (List.find?_eq_none.mp found (a, value) listed)
  | some entry =>
    have listed := ExtTreeMap.mem_toList_iff_getElem?_eq_some.mp (List.mem_of_find?_eq_some found)
    obtain rfl : entry.1 = a := by simpa using List.find?_some found
    exact listed.symm

/-- A map filled in the order of its keys lists the entries as they came. -/
theorem toList_foldl_entries [BEq α] [LawfulBEq α] (entries : List (α × β))
    (ascending : entries.Pairwise fun first second => cmp first.1 second.1 = .lt) :
    (entries.foldl (fun map entry => map.insertIfNew entry.1 entry.2)
      (∅ : ExtTreeMap α β cmp)).toList = entries := by
  have strict : ∀ {first second : α × β}, cmp first.1 second.1 = .lt → first.1 ≠ second.1 := by
    intro first second before same
    have self : cmp second.1 second.1 = .eq := ReflCmp.compare_self
    rw [same, self] at before
    cases before
  have distinct : (entries.map Prod.fst).Nodup := List.pairwise_map.mpr (ascending.imp strict)
  have held : ∀ entry : α × β, entry ∈ (entries.foldl
      (fun map entry => map.insertIfNew entry.1 entry.2) (∅ : ExtTreeMap α β cmp)).toList ↔
        entry ∈ entries := by
    rintro ⟨a, v⟩
    rw [ExtTreeMap.mem_toList_iff_getElem?_eq_some, lookup_foldl_entries, ExtTreeMap.getElem?_empty,
      Option.none_or, Option.map_eq_some_iff]
    constructor
    · rintro ⟨entry, found, rfl⟩
      obtain rfl : entry.1 = a := by simpa using List.find?_some found
      exact List.mem_of_find?_eq_some found
    · intro listed
      obtain ⟨other, found⟩ := Option.isSome_iff_exists.mp
        (List.find?_isSome.mpr ⟨(a, v), listed, beq_self_eq_true a⟩ :
          (entries.find? fun entry => entry.1 == a).isSome = true)
      have key : other.1 = a := by simpa using List.find?_some found
      have same := List.inj_on_of_nodup_map distinct (List.mem_of_find?_eq_some found) listed key
      exact ⟨other, found, congrArg Prod.snd same⟩
  have sorted := (entries.foldl (fun map entry => map.insertIfNew entry.1 entry.2)
    (∅ : ExtTreeMap α β cmp)).ordered_keys_toList
  have apart : ∀ {items : List (α × β)}, (items.Pairwise fun a b => cmp a.1 b.1 = .lt) →
      items.Nodup := fun ordered => ordered.imp fun before same =>
    strict before (congrArg Prod.fst same)
  refine List.Perm.eq_of_pairwise (fun left right _ _ before after => ?_) sorted ascending
    ((List.perm_ext_iff_of_nodup (apart sorted) (apart ascending)).mpr held)
  rw [OrientedCmp.gt_of_lt before] at after
  cases after

end Lookup

section TwoFields

variable {κ α β : Type} [Ord α] [Ord β]

/-- Keys compared by one field and then by another. -/
abbrev compareFields (first : κ → α) (second : κ → β) : κ → κ → Ordering :=
  compareLex (compareOn first) (compareOn second)

theorem compareFields_lawful [TransOrd α] [TransOrd β] [LawfulEqOrd α] [LawfulEqOrd β]
    (first : κ → α) (second : κ → β)
    (determined : ∀ a b : κ, first a = first b → second a = second b → a = b) :
    LawfulEqCmp (compareFields first second) := by
  refine ⟨fun {a b} equal => ?_⟩
  simp only [compareFields, compareLex, compareOn, Ordering.then_eq_eq,
    LawfulEqCmp.compare_eq_iff_eq] at equal
  exact determined a b equal.1 equal.2

end TwoFields

end GeoWorld.Library
