import Mathlib
import GeoWorld.Library.TreeMap
import GeoWorld.WorldModel.Object

/-!
Cells and the dynamic cell index behind area queries.
The conversions between coordinates (ECEF to local ENU, cell coordinates of a
point, corners of a box) are floating-point functions and enter as a parameter;
the index itself is followed exactly. The engine never fills the static index,
so a query is the sorted candidate list of the dynamic one.
-/

namespace GeoWorld.Projection

open WorldModel Library Std

/-- A point of the local frame, each coordinate the bit pattern of a double. -/
structure Enu where
  east : UInt64
  north : UInt64
  up : UInt64
  deriving DecidableEq

structure Aabb where
  minimum : Enu
  maximum : Enu
  deriving DecidableEq

structure CellKey where
  x : Int
  y : Int
  level : UInt8 := 0
  z : Int := 0
  deriving DecidableEq

namespace CellKey

/-- `operator<=>`: member by member in declaration order. -/
def cmp : CellKey → CellKey → Ordering :=
  compareLex (compareOn x) (compareLex (compareOn y)
    (compareLex (compareOn level) (compareOn z)))

instance : TransCmp cmp :=
  inferInstanceAs (TransCmp (compareLex (compareOn x) (compareLex (compareOn y)
    (compareLex (compareOn level) (compareOn z)))))

instance : LawfulEqCmp cmp where
  eq_of_compare {a b} same := by
    simp only [cmp, compareLex, compareOn, Ordering.then_eq_eq,
      LawfulEqCmp.compare_eq_iff_eq] at same
    obtain ⟨hx, hy, hlevel, hz⟩ := same
    cases a
    cases b
    simp_all

end CellKey

/-- The floating-point conversions of `spatial::` at the configured origin and
cell size, and the rounded number of ticks between two updates of a rate. -/
structure Geometry where
  ecefToEnu : PositionEcef → Enu
  cellX : Enu → Int
  cellY : Enu → Int
  minimumCorner : Aabb → Enu
  maximumCorner : Aabb → Enu
  boundsAround : Enu → UInt64 → Aabb
  roundedIntervalTicks : Nat → UInt64

def Geometry.cellFor (geometry : Geometry) (position : Enu) : CellKey :=
  ⟨geometry.cellX position, geometry.cellY position, 0, 0⟩

structure DynamicCellIndex where
  members : ExtTreeMap CellKey WidSet CellKey.cmp := ∅
  locations : WidMap CellKey := ∅

namespace DynamicCellIndex

def membersOf (index : DynamicCellIndex) (cell : CellKey) : WidSet :=
  (index.members[cell]?).getD ∅

def upsert (geometry : Geometry) (index : DynamicCellIndex) (id : WorldId)
    (position : Enu) : DynamicCellIndex :=
  if !id.valid then
    index
  else
    let current := geometry.cellFor position
    match index.locations[id]? with
    | none =>
      { members := index.members.insert current ((index.membersOf current).insert id)
        locations := index.locations.insert id current }
    | some previous =>
      if previous = current then
        index
      else
        let left := index.members.insert previous ((index.membersOf previous).erase id)
        { members := left.insert current (((left[current]?).getD ∅).insert id)
          locations := index.locations.insert id current }

def erase (index : DynamicCellIndex) (id : WorldId) : DynamicCellIndex :=
  match index.locations[id]? with
  | none => index
  | some cell =>
    { members := index.members.insert cell ((index.membersOf cell).erase id)
      locations := index.locations.erase id }

end DynamicCellIndex

/-- `first, first + 1, …, last`, empty when `last < first`. -/
def cellRange (first last : Int) : List Int :=
  (List.range (last - first + 1).toNat).map fun offset => first + offset

/-- The cells `query_candidates` visits for a box. -/
def Geometry.cellsOf (geometry : Geometry) (bounds : Aabb) : List CellKey :=
  let first := geometry.cellFor (geometry.minimumCorner bounds)
  let last := geometry.cellFor (geometry.maximumCorner bounds)
  (cellRange first.z last.z).flatMap fun z =>
    (cellRange first.y last.y).flatMap fun y =>
      (cellRange first.x last.x).map fun x => ⟨x, y, 0, z⟩

/-- `SpatialQuery::query`: ascending ids, each once. -/
def DynamicCellIndex.query (geometry : Geometry) (index : DynamicCellIndex)
    (bounds : Aabb) : List WorldId :=
  ((geometry.cellsOf bounds).foldl
    (fun found cell => found ∪ index.membersOf cell) (∅ : WidSet)).toList

namespace DynamicCellIndex

/-- Cell members and locations describe the same placement. -/
def Consistent (index : DynamicCellIndex) : Prop :=
  ∀ id cell, id ∈ index.membersOf cell ↔ index.locations[id]? = some cell

theorem consistent_empty : Consistent {} := by
  intro id cell
  simp [membersOf]

theorem mem_membersOf_insert (members : ExtTreeMap CellKey WidSet CellKey.cmp)
    (cell other : CellKey) (wids : WidSet) (id : WorldId) :
    id ∈ ((members.insert cell wids)[other]?).getD ∅ ↔
      if other = cell then id ∈ wids else id ∈ (members[other]?).getD ∅ := by
  rw [lookup_insert]
  split <;> rfl

theorem upsert_locations (geometry : Geometry) (index : DynamicCellIndex) (id : WorldId)
    (position : Enu) (other : WorldId) :
    (index.upsert geometry id position).locations[other]? =
      if other = id ∧ id.valid then some (geometry.cellFor position)
      else index.locations[other]? := by
  unfold upsert
  by_cases valid : id.valid
  · simp only [valid, Bool.not_true, Bool.false_eq_true, if_false, and_true]
    cases located : index.locations[id]? with
    | none => rw [lookup_insert]
    | some previous =>
      simp only
      split
      · next same =>
        split
        · next equal => rw [equal, located, same]
        · rfl
      · rw [lookup_insert]
  · simp [valid]

theorem erase_locations (index : DynamicCellIndex) (id other : WorldId) :
    (index.erase id).locations[other]? = if other = id then none else index.locations[other]? := by
  unfold erase
  cases located : index.locations[id]? with
  | none =>
    by_cases same : other = id
    · rw [if_pos same, same]
      exact located
    · rw [if_neg same]
  | some cell => rw [lookup_erase]

theorem upsert_consistent (geometry : Geometry) {index : DynamicCellIndex}
    (consistent : index.Consistent) (id : WorldId) (position : Enu) :
    (index.upsert geometry id position).Consistent := by
  intro other cell
  rw [upsert_locations]
  have before := consistent other cell
  have at_id := consistent id
  unfold membersOf at before at_id
  unfold upsert membersOf
  by_cases valid : id.valid
  · simp only [valid, Bool.not_true, Bool.false_eq_true, if_false, and_true]
    cases located : index.locations[id]? with
    | none =>
      simp only [located, reduceCtorEq, iff_false] at at_id
      rw [mem_membersOf_insert]
      by_cases same : other = id
      · subst same
        by_cases here : cell = geometry.cellFor position
        · simp [here]
        · simp [here, at_id, Ne.symm here]
      · by_cases here : cell = geometry.cellFor position
        · subst here
          simp [same, Ne.symm same, ← before]
        · simp [here, same, before]
    | some previous =>
      simp only [located, Option.some.injEq] at at_id
      simp only
      split
      · next unmoved =>
        by_cases same : other = id
        · subst same
          rw [if_pos rfl, ← unmoved, before, located]
        · rw [if_neg same, before]
      · next moved =>
        rw [mem_membersOf_insert, mem_membersOf_insert]
        by_cases same : other = id
        · subst same
          by_cases here : cell = geometry.cellFor position
          · simp [here]
          · by_cases left : cell = previous
            · simp [left, moved, Ne.symm moved]
            · have absent := at_id cell
              simp [here, left, Ne.symm here, absent, Ne.symm left]
        · by_cases here : cell = geometry.cellFor position
          · subst here
            have other_cell : geometry.cellFor position ≠ previous := Ne.symm moved
            simp [same, Ne.symm same, ← before, lookup_insert_ne _ other_cell]
          · by_cases left : cell = previous
            · subst left
              simp [here, same, Ne.symm same, ← before]
            · simp [here, left, same, before]
  · simpa [valid] using before

theorem erase_consistent {index : DynamicCellIndex} (consistent : index.Consistent)
    (id : WorldId) : (index.erase id).Consistent := by
  intro other cell
  rw [erase_locations]
  have before := consistent other cell
  have at_id := consistent id
  unfold membersOf at before at_id
  unfold erase membersOf
  cases located : index.locations[id]? with
  | none =>
    by_cases same : other = id
    · subst same
      simp [before, located]
    · simp [same, before]
  | some previous =>
    simp only [located, Option.some.injEq] at at_id
    rw [mem_membersOf_insert]
    by_cases same : other = id
    · subst same
      by_cases left : cell = previous
      · simp [left]
      · simp [left, at_id, Ne.symm left]
    · by_cases left : cell = previous
      · subst left
        simp [same, Ne.symm same, ← before]
      · simp [left, same, before]

theorem mem_query {geometry : Geometry} {index : DynamicCellIndex} {bounds : Aabb}
    {id : WorldId} :
    id ∈ index.query geometry bounds ↔
      ∃ cell ∈ geometry.cellsOf bounds, id ∈ index.membersOf cell := by
  have collected : ∀ (cells : List CellKey) (found : WidSet),
      id ∈ cells.foldl (fun found cell => found ∪ index.membersOf cell) found ↔
        id ∈ found ∨ ∃ cell ∈ cells, id ∈ index.membersOf cell := by
    intro cells
    induction cells with
    | nil => simp
    | cons cell rest ih =>
      intro found
      rw [List.foldl_cons, ih, ExtTreeSet.mem_union_iff]
      simp [or_assoc]
  rw [query, ExtTreeSet.mem_toList, collected]
  simp

theorem query_ascending (geometry : Geometry) (index : DynamicCellIndex) (bounds : Aabb) :
    (index.query geometry bounds).Pairwise (· < ·) := by
  have ordered : (index.query geometry bounds).Pairwise fun a b => compare a b = .lt :=
    ExtTreeSet.ordered_toList
  exact ordered.imp fun before => Std.compare_eq_lt.mp before

end DynamicCellIndex

end GeoWorld.Projection
