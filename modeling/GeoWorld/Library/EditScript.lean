import Mathlib
import GeoWorld.Library.TreeMap

/-!
Edit scripts over partial maps. A view is a partial function from keys to
values; an edit sets or removes one key; a script is a list of edits applied in
order. A script whose keys are distinct acts independently of its order, and a
script computed against one view has the same effect on another view exactly
when the two views agree on the keys the script does not touch.
-/

namespace GeoWorld.Library

open Std

section Views

variable {K V : Type} [DecidableEq K]

/-- `some v` sets the key to `v`, `none` removes it. -/
abbrev Edit (K V : Type) := K × Option V

/-- The last edit of `key` in a script, if there is one. -/
def lastEdit (script : List (Edit K V)) (key : K) : Option (Option V) :=
  script.foldl (fun found edit => if edit.1 = key then some edit.2 else found) none

def applyScript (view : K → Option V) (script : List (Edit K V)) : K → Option V :=
  fun key => (lastEdit script key).getD (view key)

@[simp] theorem applyScript_nil (view : K → Option V) : applyScript view [] = view := rfl

theorem lastEdit_append_single (script : List (Edit K V)) (edit : Edit K V) (key : K) :
    lastEdit (script ++ [edit]) key =
      if edit.1 = key then some edit.2 else lastEdit script key := by
  simp only [lastEdit, List.foldl_append, List.foldl_cons, List.foldl_nil]

theorem lastEdit_append (first second : List (Edit K V)) (key : K) :
    lastEdit (first ++ second) key = (lastEdit second key).or (lastEdit first key) := by
  induction second using List.reverseRecOn with
  | nil => simp [lastEdit]
  | append_singleton rest edit ih =>
    rw [← List.append_assoc, lastEdit_append_single, lastEdit_append_single, ih]
    split
    · rfl
    · rfl

theorem applyScript_append (view : K → Option V) (first second : List (Edit K V)) :
    applyScript view (first ++ second) = applyScript (applyScript view first) second := by
  funext key
  simp only [applyScript, lastEdit_append]
  cases lastEdit second key <;> rfl

/-- The keys a script mentions. -/
def touched (script : List (Edit K V)) : List K :=
  script.map Prod.fst

theorem lastEdit_eq_none_iff (script : List (Edit K V)) (key : K) :
    lastEdit script key = none ↔ key ∉ touched script := by
  induction script using List.reverseRecOn with
  | nil => simp [lastEdit, touched]
  | append_singleton rest edit ih =>
    rw [lastEdit_append_single]
    by_cases same : edit.1 = key
    · simp [touched, same]
    · have differs : key ≠ edit.1 := fun equal => same equal.symm
      rw [if_neg same, ih]
      simp [touched, differs]

theorem mem_of_lastEdit {script : List (Edit K V)} {key : K} {value : Option V}
    (found : lastEdit script key = some value) : (key, value) ∈ script := by
  induction script using List.reverseRecOn with
  | nil => simp [lastEdit] at found
  | append_singleton rest edit ih =>
    rw [lastEdit_append_single] at found
    split at found
    · next same =>
      have value_eq : edit.2 = value := by simpa using found
      simp [← same, ← value_eq]
    · exact List.mem_append_left _ (ih found)

/-- With distinct keys the last edit of a key is its only one. -/
theorem lastEdit_eq_some_iff {script : List (Edit K V)} (distinct : (touched script).Nodup)
    (key : K) (value : Option V) :
    lastEdit script key = some value ↔ (key, value) ∈ script := by
  refine ⟨mem_of_lastEdit, fun member => ?_⟩
  cases found : lastEdit script key with
  | none =>
    have absent := (lastEdit_eq_none_iff script key).mp found
    exact absurd (List.mem_map_of_mem member) absent
  | some other =>
    have both := List.inj_on_of_nodup_map distinct (mem_of_lastEdit found) member rfl
    simpa using congrArg Prod.snd both

theorem lastEdit_perm {first second : List (Edit K V)} (perm : first.Perm second)
    (distinct : (touched first).Nodup) (key : K) :
    lastEdit first key = lastEdit second key := by
  have distinct' : (touched second).Nodup := (perm.map Prod.fst).nodup distinct
  refine Option.ext fun value => ?_
  rw [lastEdit_eq_some_iff distinct, lastEdit_eq_some_iff distinct', perm.mem_iff]

theorem applyScript_perm (view : K → Option V) {first second : List (Edit K V)}
    (perm : first.Perm second) (distinct : (touched first).Nodup) :
    applyScript view first = applyScript view second := by
  funext key
  simp only [applyScript, lastEdit_perm perm distinct key]

/-- Two duplicate-free scripts with the same edits are the same function. -/
theorem applyScript_congr (view : K → Option V) {first second : List (Edit K V)}
    (distinct : (touched first).Nodup) (distinct' : (touched second).Nodup)
    (same : ∀ edit, edit ∈ first ↔ edit ∈ second) :
    applyScript view first = applyScript view second := by
  have perm : first.Perm second :=
    (List.perm_ext_iff_of_nodup (List.Nodup.of_map Prod.fst distinct)
      (List.Nodup.of_map Prod.fst distinct')).mpr same
  exact applyScript_perm view perm distinct

theorem applyScript_untouched (view : K → Option V) {script : List (Edit K V)} {key : K}
    (untouched : key ∉ touched script) : applyScript view script key = view key := by
  rw [applyScript, (lastEdit_eq_none_iff script key).mpr untouched, Option.getD_none]

theorem applyScript_of_mem (view : K → Option V) {script : List (Edit K V)} {key : K}
    {value : Option V} (distinct : (touched script).Nodup) (member : (key, value) ∈ script) :
    applyScript view script key = value := by
  rw [applyScript, (lastEdit_eq_some_iff distinct key value).mpr member, Option.getD_some]

/-- Acknowledged-base replication: a script meant for `base` brings `client` to
the same view exactly when the two agree wherever the script is silent. -/
theorem applyScript_agree_iff (client base : K → Option V) (script : List (Edit K V)) :
    applyScript client script = applyScript base script ↔
      ∀ key, client key ≠ base key → key ∈ touched script := by
  constructor
  · intro agree key differs
    by_contra silent
    have at_key := congrFun agree key
    rw [applyScript_untouched client silent, applyScript_untouched base silent] at at_key
    exact differs at_key
  · intro covered
    funext key
    cases edited : lastEdit script key with
    | some value => simp only [applyScript, edited, Option.getD_some]
    | none =>
      have silent := (lastEdit_eq_none_iff script key).mp edited
      have same : client key = base key := by
        by_contra differs
        exact silent (covered key differs)
      rw [applyScript_untouched client silent, applyScript_untouched base silent, same]

/-- A script that sets every key of `target` and removes every other key that
`view` holds produces `target`. -/
theorem applyScript_eq_of_replaces {view target : K → Option V} {script : List (Edit K V)}
    (distinct : (touched script).Nodup)
    (edits : ∀ edit ∈ script, edit.2 = target edit.1)
    (sets : ∀ key value, target key = some value → key ∈ touched script)
    (removes : ∀ key, view key ≠ none → target key = none → key ∈ touched script) :
    applyScript view script = target := by
  funext key
  by_cases mentioned : key ∈ touched script
  · obtain ⟨edit, member, rfl⟩ := List.mem_map.mp mentioned
    rw [applyScript_of_mem view distinct member, edits edit member]
  · rw [applyScript_untouched view mentioned]
    cases at_target : target key with
    | some value => exact absurd (sets key value at_target) mentioned
    | none =>
      by_contra held
      exact mentioned (removes key held at_target)

end Views

section TreeMaps

variable {K V : Type} [DecidableEq K] {cmp : K → K → Ordering} [TransCmp cmp]
variable [LawfulEqCmp cmp]

def editMap (map : ExtTreeMap K V cmp) (edit : Edit K V) : ExtTreeMap K V cmp :=
  match edit.2 with
  | none => map.erase edit.1
  | some value => map.insert edit.1 value

/-- Editing a tree map step by step is applying the script to its lookups. -/
theorem lookup_editMap_foldl (map : ExtTreeMap K V cmp) (script : List (Edit K V)) :
    (fun key => (script.foldl editMap map)[key]?) =
      applyScript (fun key => map[key]?) script := by
  induction script using List.reverseRecOn with
  | nil => rfl
  | append_singleton rest edit ih =>
    funext key
    have before := congrFun ih key
    rw [List.foldl_append, List.foldl_cons, List.foldl_nil]
    simp only [applyScript, lastEdit_append_single] at before ⊢
    obtain ⟨target, value⟩ := edit
    cases value with
    | none =>
      simp only [editMap, lookup_erase]
      by_cases same : key = target
      · simp [same]
      · rw [if_neg same, if_neg (Ne.symm same), before]
    | some value =>
      simp only [editMap, lookup_insert]
      by_cases same : key = target
      · simp [same]
      · rw [if_neg same, if_neg (Ne.symm same), before]

/-- Copying every entry of one map over another. -/
theorem lookup_foldl_insert (map overlay : ExtTreeMap K V cmp) (key : K) :
    (overlay.toList.foldl (fun acc entry => acc.insert entry.1 entry.2) map)[key]? =
      (overlay[key]?).or map[key]? := by
  have distinct : (touched (overlay.toList.map fun entry => (entry.1, some entry.2))).Nodup := by
    simp only [touched, List.map_map, Function.comp_def]
    rw [ExtTreeMap.map_fst_toList_eq_keys]
    exact ExtTreeMap.nodup_keys
  have edited := congrFun (lookup_editMap_foldl map
    (overlay.toList.map fun entry => (entry.1, some entry.2))) key
  rw [List.foldl_map] at edited
  refine edited.trans ?_
  cases found : overlay[key]? with
  | some value =>
    have member : (key, some value) ∈
        overlay.toList.map fun entry => ((entry.1, some entry.2) : Edit K V) :=
      List.mem_map.mpr ⟨(key, value),
        ExtTreeMap.mem_toList_iff_getElem?_eq_some.mpr found, rfl⟩
    rw [applyScript_of_mem _ distinct member, Option.some_or]
  | none =>
    rw [applyScript_untouched, Option.none_or]
    simp only [touched, List.map_map, Function.comp_def]
    rw [ExtTreeMap.map_fst_toList_eq_keys, ExtTreeMap.mem_keys,
      ExtTreeMap.mem_iff_isSome_getElem?, found]
    simp

/-- A map is what its entries make of an empty one. -/
theorem foldl_insert_toList (map : ExtTreeMap K V cmp) :
    map.toList.foldl (fun acc entry => acc.insert entry.1 entry.2) ∅ = map := by
  refine ExtTreeMap.ext_getElem? fun key => ?_
  rw [lookup_foldl_insert]
  cases map[key]? <;> simp

theorem lookup_foldl_erase (map : ExtTreeMap K V cmp) (keys : List K) (key : K) :
    (keys.foldl (fun acc removed => acc.erase removed) map)[key]? =
      if key ∈ keys then none else map[key]? := by
  induction keys generalizing map with
  | nil => simp
  | cons head rest ih =>
    rw [List.foldl_cons, ih, lookup_erase]
    by_cases same : key = head
    · simp [same]
    · simp [same]

omit [LawfulEqCmp cmp] in
/-- Edits that depend on the key alone, repeated over a list of keys. -/
theorem lookup_foldl_edits (map : ExtTreeMap K V cmp) (keys : List K)
    (edit : K → Option (Option V)) (step : ExtTreeMap K V cmp → K → ExtTreeMap K V cmp)
    (step_lookup : ∀ acc changed key, (step acc changed)[key]? =
      if key = changed then (edit changed).getD acc[key]? else acc[key]?) (key : K) :
    (keys.foldl step map)[key]? =
      if key ∈ keys then (edit key).getD map[key]? else map[key]? := by
  induction keys generalizing map with
  | nil => simp
  | cons head rest ih =>
    rw [List.foldl_cons, ih, step_lookup]
    by_cases same : key = head
    · subst same
      cases edit key with
      | none => simp
      | some value => simp
    · simp [same]

end TreeMaps

end GeoWorld.Library
