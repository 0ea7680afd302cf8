import Mathlib
import GeoWorld.Library.TreeMap

/-!
Graphs whose nodes have keys and labels. No two nodes have one label and every edge joins two
nodes; both survive fresh nodes, new labels and the removal of a node with its edges.
-/

namespace GeoWorld.Library

open Std

variable {κ α β ε : Type} {cmp : κ → κ → Ordering} [TransCmp cmp]

/-- The key of a node is known by its label. -/
def UniqueLabels (label : α → β) (nodes : ExtTreeMap κ α cmp) : Prop :=
  ∀ (first second : κ) (left right : α), nodes[first]? = some left → nodes[second]? = some right →
    label left = label right → first = second

/-- The ends of the edges are nodes. -/
def Joins (ends : ε → κ × κ) (nodes : ExtTreeMap κ α cmp) (edges : List ε) : Prop :=
  ∀ edge ∈ edges, (ends edge).1 ∈ nodes ∧ (ends edge).2 ∈ nodes

section Labels

variable {label : α → β} {nodes changed : ExtTreeMap κ α cmp} {key : κ} {node : α}

theorem mem_iff_lookup : key ∈ nodes ↔ ∃ node, nodes[key]? = some node := by
  rw [ExtTreeMap.mem_iff_isSome_getElem?, Option.isSome_iff_exists]

/-- Nodes that keep their labels. -/
theorem UniqueLabels.relabel (unique : UniqueLabels label nodes)
    (kept : ∀ key : κ, changed[key]?.map label = nodes[key]?.map label) :
    UniqueLabels label changed := by
  have before : ∀ (key : κ) (node : α), changed[key]? = some node →
      ∃ held, nodes[key]? = some held ∧ label held = label node := by
    intro key node found
    have same := kept key
    rw [found, Option.map_some] at same
    exact Option.map_eq_some_iff.mp same.symm
  intro first second left right found found' same
  obtain ⟨held, listed, held_label⟩ := before first left found
  obtain ⟨held', listed', held_label'⟩ := before second right found'
  exact unique first second held held' listed listed' (held_label.trans (same.trans held_label'.symm))

variable [LawfulEqCmp cmp]

theorem UniqueLabels.of_nodup (distinct : (nodes.toList.map fun entry => label entry.2).Nodup) :
    UniqueLabels label nodes := by
  intro first second left right found found' same
  have listed := ExtTreeMap.mem_toList_iff_getElem?_eq_some.mpr found
  have listed' := ExtTreeMap.mem_toList_iff_getElem?_eq_some.mpr found'
  exact congrArg Prod.fst (List.inj_on_of_nodup_map distinct listed listed' same)

variable [DecidableEq κ]

theorem UniqueLabels.insert (unique : UniqueLabels label nodes)
    (fresh : ∀ (other : κ) (held : α), other ≠ key → nodes[other]? = some held → label held ≠ label node) :
    UniqueLabels label (nodes.insert key node) := by
  intro first second left right found found' same
  rw [lookup_insert] at found found'
  split at found
  · rename_i first_key
    split at found'
    · rename_i second_key
      rw [first_key, second_key]
    · rename_i other
      obtain rfl := Option.some.inj found
      exact absurd same.symm (fresh second right other found')
  · rename_i other
    split at found'
    · obtain rfl := Option.some.inj found'
      exact absurd same (fresh first left other found)
    · exact unique first second left right found found' same

theorem UniqueLabels.insertIfNew (unique : UniqueLabels label nodes)
    (fresh : key ∉ nodes → ∀ (other : κ) (held : α), nodes[other]? = some held → label held ≠ label node) :
    UniqueLabels label (nodes.insertIfNew key node) := by
  by_cases known : key ∈ nodes
  · have kept : nodes.insertIfNew key node = nodes := by
      refine ExtTreeMap.ext_getElem? fun other => ?_
      rw [lookup_insertIfNew_or]
      split
      · rename_i same
        obtain ⟨held, found⟩ := mem_iff_lookup.mp known
        rw [same, found]
        rfl
      · exact Option.or_none
    rw [kept]
    exact unique
  · have added : nodes.insertIfNew key node = nodes.insert key node := by
      refine ExtTreeMap.ext_getElem? fun other => ?_
      have missing : nodes[key]? = none := by
        rwa [ExtTreeMap.mem_iff_isSome_getElem?, Option.not_isSome_iff_eq_none] at known
      rw [lookup_insertIfNew nodes missing, lookup_insert]
    rw [added]
    exact unique.insert fun other held _ found => fresh known other held found

theorem UniqueLabels.erase (unique : UniqueLabels label nodes) (key : κ) :
    UniqueLabels label (nodes.erase key) := by
  intro first second left right found found' same
  rw [lookup_erase] at found found'
  split at found
  · cases found
  · split at found'
    · cases found'
    · exact unique first second left right found found' same

end Labels

section Edges

variable {ends : ε → κ × κ} {nodes larger : ExtTreeMap κ α cmp} {edges fewer : List ε} {key : κ}

theorem Joins.mono (joins : Joins ends nodes edges) (kept : ∀ key ∈ nodes, key ∈ larger) :
    Joins ends larger edges := fun edge member =>
  ⟨kept _ (joins edge member).1, kept _ (joins edge member).2⟩

theorem Joins.subset (joins : Joins ends nodes edges) (fewer_mem : ∀ edge ∈ fewer, edge ∈ edges) :
    Joins ends nodes fewer := fun edge member => joins edge (fewer_mem edge member)

theorem Joins.erase [LawfulEqCmp cmp] [DecidableEq κ] (joins : Joins ends nodes edges) (apart : ∀ edge ∈ fewer, edge ∈ edges ∧
    (ends edge).1 ≠ key ∧ (ends edge).2 ≠ key) : Joins ends (nodes.erase key) fewer := by
  intro edge member
  obtain ⟨listed, first, second⟩ := apart edge member
  have kept : ∀ other ∈ nodes, other ≠ key → other ∈ nodes.erase key := by
    intro other known different
    rw [ExtTreeMap.mem_iff_isSome_getElem?, lookup_erase_ne nodes different]
    exact ExtTreeMap.mem_iff_isSome_getElem?.mp known
  exact ⟨kept _ (joins edge listed).1 first, kept _ (joins edge listed).2 second⟩

end Edges

end GeoWorld.Library
