import Mathlib
import GeoWorld.Library.Placement
import GeoWorld.Projection.SpatialIndex

/-!
The cell grid and the dynamic cell index, flat and by storeys. Coordinates are any linear
order and the cells of an axis any monotone map into the integer they are cast to, so that
what is proved rests on the order of coordinates alone.
-/

namespace GeoWorld.Spatial

open WorldModel Library
open Projection (CellKey cellRange)

/-- The largest `std::int64_t`. -/
def int64Max : Int := 2 ^ 63 - 1

/-- The largest `std::int32_t`. -/
def int32Max : Int := 2 ^ 31 - 1

/-- The cells of one axis, `floor(coordinate / size)`, in an integer type up to `limit`. -/
structure AxisCells (C : Type) [LinearOrder C] (limit : Int) where
  cell : C → Int
  monotone : Monotone cell
  exact : ∀ coordinate, -limit - 1 ≤ cell coordinate ∧ cell coordinate ≤ limit

structure Enu (C : Type) where
  east : C
  north : C
  up : C
  deriving DecidableEq

/-- `cell_size` doubles with the level, so every level has its columns and rows. -/
structure CellGrid (C : Type) [LinearOrder C] where
  maxLevel : UInt8
  columns : UInt8 → AxisCells C int64Max
  rows : UInt8 → AxisCells C int64Max

variable {C : Type} [LinearOrder C]

namespace CellGrid

def clampLevel (grid : CellGrid C) (level : UInt8) : UInt8 :=
  if grid.maxLevel < level then grid.maxLevel else level

def cellFor (grid : CellGrid C) (position : Enu C) (level : UInt8) : CellKey :=
  let level := grid.clampLevel level
  ⟨(grid.columns level).cell position.east, (grid.rows level).cell position.north, level, 0⟩

def cellFor25d (grid : CellGrid C) (position : Enu C) (level : UInt8)
    (storeys : AxisCells C int32Max) : CellKey :=
  let level := grid.clampLevel level
  ⟨(grid.columns level).cell position.east, (grid.rows level).cell position.north, level,
    storeys.cell position.up⟩

end CellGrid

structure CellMigration where
  worldId : WorldId
  previous : CellKey
  current : CellKey
  deriving DecidableEq

/-- The index keeps the storeys of a positive floor height, and is flat without one. -/
structure DynamicCellIndex (C : Type) [LinearOrder C] where
  grid : CellGrid C
  level : UInt8
  storeys : Option (AxisCells C int32Max)
  placed : Placement WorldId CellKey compare CellKey.cmp := {}

/-- The values `first` to `last` of a counter; `++` past its largest value is undefined. -/
def loopRange (limit first last : Int) : Option (List Int) :=
  if last < first then some []
  else if last = limit then none
  else some (cellRange first last)

namespace DynamicCellIndex

def cellOf (index : DynamicCellIndex C) (position : Enu C) : CellKey :=
  match index.storeys with
  | some storeys => index.grid.cellFor25d position index.level storeys
  | none => index.grid.cellFor position index.level

def upsert (index : DynamicCellIndex C) (id : WorldId) (position : Enu C) :
    Option CellMigration × DynamicCellIndex C :=
  if !id.valid then (none, index)
  else
    let current := index.cellOf position
    let moved := { index with placed := index.placed.place id current }
    match index.placed.locations[id]? with
    | none => (none, moved)
    | some previous =>
      if previous = current then (none, moved)
      else (some ⟨id, previous, current⟩, moved)

def erase (index : DynamicCellIndex C) (id : WorldId) : Bool × DynamicCellIndex C :=
  (index.placed.locations.contains id, { index with placed := index.placed.remove id })

/-- The cells that `query_candidates` looks up. The corners are put in order, so every loop
is entered. -/
def visitedCells (index : DynamicCellIndex C) (minimum maximum : Enu C) :
    Option (List CellKey) := do
  let least : Enu C := ⟨min minimum.east maximum.east, min minimum.north maximum.north,
    min minimum.up maximum.up⟩
  let greatest : Enu C := ⟨max minimum.east maximum.east, max minimum.north maximum.north,
    max minimum.up maximum.up⟩
  let first := index.grid.cellFor least index.level
  let last := index.grid.cellFor greatest index.level
  let zs ← loopRange int32Max (index.cellOf least).z (index.cellOf greatest).z
  let ys ← loopRange int64Max first.y last.y
  let xs ← loopRange int64Max first.x last.x
  return zs.flatMap fun z => ys.flatMap fun y => xs.map fun x => ⟨x, y, index.level, z⟩

/-- Ascending ids, each once. -/
def queryCandidates (index : DynamicCellIndex C) (minimum maximum : Enu C) :
    Option (List WorldId) := do
  let cells ← index.visitedCells minimum maximum
  return (index.placed.collect cells).toList

end DynamicCellIndex

inductive CellOp (C : Type) where
  | upsert (id : WorldId) (position : Enu C)
  | erase (id : WorldId)

def DynamicCellIndex.perform (index : DynamicCellIndex C) : CellOp C → DynamicCellIndex C
  | .upsert id position => (index.upsert id position).2
  | .erase id => (index.erase id).2

/-- An index that was built empty, after some operations. -/
def DynamicCellIndex.after (grid : CellGrid C) (level : UInt8)
    (storeys : Option (AxisCells C int32Max)) (ops : List (CellOp C)) : DynamicCellIndex C :=
  ops.foldl DynamicCellIndex.perform { grid := grid, level := level, storeys := storeys }

/-- The same operation on a plain map of positions. -/
def moveId (positions : WidMap (Enu C)) : CellOp C → WidMap (Enu C)
  | .upsert id position => if id.valid then positions.insert id position else positions
  | .erase id => positions.erase id

/-- The positions last given to the ids that are not erased. -/
def lastPositions (ops : List (CellOp C)) : WidMap (Enu C) :=
  ops.foldl moveId ∅

section Placed

/-- Every id that has a position is recorded in the cell of that position. -/
structure DynamicCellIndex.Records (index : DynamicCellIndex C) (positions : WidMap (Enu C)) :
    Prop where
  consistent : index.placed.Consistent
  placed : ∀ id : WorldId, index.placed.locations[id]? = (positions[id]?).map index.cellOf

variable {index : DynamicCellIndex C} {positions : WidMap (Enu C)}

theorem DynamicCellIndex.upsert_eq (index : DynamicCellIndex C) (id : WorldId)
    (position : Enu C) :
    (index.upsert id position).2 = if id.valid then
      { index with placed := index.placed.place id (index.cellOf position) } else index := by
  unfold DynamicCellIndex.upsert
  cases id.valid with
  | false => rfl
  | true =>
    simp only [Bool.not_true, Bool.false_eq_true, if_false, if_true]
    split
    · rfl
    · split <;> rfl

theorem DynamicCellIndex.Records.perform (records : index.Records positions) (op : CellOp C) :
    (index.perform op).Records (moveId positions op) := by
  cases op with
  | upsert id position =>
    simp only [DynamicCellIndex.perform, DynamicCellIndex.upsert_eq, moveId]
    split
    · refine ⟨Placement.place_consistent records.consistent id _, fun other => ?_⟩
      rw [Placement.place_locations, lookup_insert]
      split
      · rfl
      · exact records.placed other
    · exact records
  | erase id =>
    refine ⟨Placement.remove_consistent records.consistent id, fun other => ?_⟩
    refine (Placement.remove_locations index.placed id other).trans ?_
    rw [moveId, lookup_erase]
    split
    · rfl
    · exact records.placed other

theorem DynamicCellIndex.Records.run (records : index.Records positions)
    (ops : List (CellOp C)) :
    (ops.foldl DynamicCellIndex.perform index).Records (ops.foldl moveId positions) := by
  induction ops generalizing index positions with
  | nil => exact records
  | cons op ops ih => exact ih (records.perform op)

theorem DynamicCellIndex.records_after (grid : CellGrid C) (level : UInt8)
    (storeys : Option (AxisCells C int32Max)) (ops : List (CellOp C)) :
    (DynamicCellIndex.after grid level storeys ops).Records (lastPositions ops) :=
  DynamicCellIndex.Records.run ⟨Placement.consistent_empty, by simp⟩ ops

/-- Operations leave the configuration alone. -/
theorem DynamicCellIndex.after_config (grid : CellGrid C) (level : UInt8)
    (storeys : Option (AxisCells C int32Max)) (ops : List (CellOp C)) :
    (DynamicCellIndex.after grid level storeys ops).grid = grid ∧
      (DynamicCellIndex.after grid level storeys ops).level = level := by
  have kept : ∀ (index : DynamicCellIndex C) (op : CellOp C),
      (index.perform op).grid = index.grid ∧ (index.perform op).level = index.level := by
    intro index op
    cases op with
    | upsert id position =>
      simp only [DynamicCellIndex.perform, DynamicCellIndex.upsert_eq]
      split <;> exact ⟨rfl, rfl⟩
    | erase id => exact ⟨rfl, rfl⟩
  have run : ∀ (ops : List (CellOp C)) (index : DynamicCellIndex C),
      (ops.foldl DynamicCellIndex.perform index).grid = index.grid ∧
        (ops.foldl DynamicCellIndex.perform index).level = index.level := by
    intro ops
    induction ops with
    | nil => exact fun index => ⟨rfl, rfl⟩
    | cons op ops ih =>
      intro index
      exact ⟨(ih _).1.trans (kept index op).1, (ih _).2.trans (kept index op).2⟩
  exact run ops _

end Placed

section Query

/-- The cells spanned by two corners, whichever way round they are given. -/
def DynamicCellIndex.Spanned (index : DynamicCellIndex C) (minimum maximum : Enu C)
    (cell : CellKey) : Prop :=
  cell.x ∈ Set.uIcc (index.cellOf minimum).x (index.cellOf maximum).x ∧
    cell.y ∈ Set.uIcc (index.cellOf minimum).y (index.cellOf maximum).y ∧
    cell.z ∈ Set.uIcc (index.cellOf minimum).z (index.cellOf maximum).z

/-- A position in the box of two corners; heights count when the index has storeys. -/
def DynamicCellIndex.Inside (index : DynamicCellIndex C) (minimum maximum position : Enu C) :
    Prop :=
  position.east ∈ Set.uIcc minimum.east maximum.east ∧
    position.north ∈ Set.uIcc minimum.north maximum.north ∧
    (index.storeys.isSome → position.up ∈ Set.uIcc minimum.up maximum.up)

/-- The ids that a query is to return. -/
structure DynamicCellIndex.FindsExactly (index : DynamicCellIndex C)
    (positions : WidMap (Enu C)) (minimum maximum : Enu C) (found : List WorldId) : Prop where
  ascending : found.Pairwise (· < ·)
  exactly : ∀ id, id ∈ found ↔ ∃ position, positions[id]? = some position ∧
    index.Spanned minimum maximum (index.cellOf position)
  inside : ∀ id position, positions[id]? = some position →
    index.Inside minimum maximum position → id ∈ found

/-- No loop over cells reaches the last value of its counter. -/
def DynamicCellIndex.LoopsEnd (index : DynamicCellIndex C) (minimum maximum : Enu C) : Prop :=
  max (index.cellOf minimum).x (index.cellOf maximum).x ≠ int64Max ∧
    max (index.cellOf minimum).y (index.cellOf maximum).y ≠ int64Max ∧
    max (index.cellOf minimum).z (index.cellOf maximum).z ≠ int32Max

instance (index : DynamicCellIndex C) (minimum maximum : Enu C) :
    Decidable (index.LoopsEnd minimum maximum) :=
  inferInstanceAs (Decidable (_ ≠ int64Max ∧ _ ≠ int64Max ∧ _ ≠ int32Max))

/-- The cells between the lesser and the greater one of every axis, under the level that the
index was given. -/
def DynamicCellIndex.cellsBetween (index : DynamicCellIndex C) (minimum maximum : Enu C) :
    List CellKey :=
  let one := index.cellOf minimum
  let other := index.cellOf maximum
  (cellRange (min one.z other.z) (max one.z other.z)).flatMap fun z =>
    (cellRange (min one.y other.y) (max one.y other.y)).flatMap fun y =>
      (cellRange (min one.x other.x) (max one.x other.x)).map fun x => ⟨x, y, index.level, z⟩

variable {index : DynamicCellIndex C} {minimum maximum : Enu C}

theorem mem_cellRange {first last value : Int} :
    value ∈ cellRange first last ↔ first ≤ value ∧ value ≤ last := by
  simp only [cellRange, List.mem_map, List.bind_eq_flatMap, List.mem_flatMap, List.mem_range,
    List.pure_def, List.mem_singleton]
  constructor
  · rintro ⟨_, ⟨offset, below, rfl⟩, rfl⟩
    omega
  · rintro ⟨above, below⟩
    exact ⟨value - first, ⟨(value - first).toNat, by omega, by omega⟩, by omega⟩

theorem loopRange_eq {limit first last : Int} (ordered : first ≤ last) :
    loopRange limit first last = if last = limit then none else some (cellRange first last) := by
  rw [loopRange, if_neg (by omega)]

theorem cellOf_x (index : DynamicCellIndex C) (position : Enu C) :
    (index.cellOf position).x = (index.grid.columns (index.grid.clampLevel index.level)).cell
      position.east := by
  unfold DynamicCellIndex.cellOf
  cases index.storeys <;> rfl

theorem cellOf_y (index : DynamicCellIndex C) (position : Enu C) :
    (index.cellOf position).y = (index.grid.rows (index.grid.clampLevel index.level)).cell
      position.north := by
  unfold DynamicCellIndex.cellOf
  cases index.storeys <;> rfl

theorem cellOf_level (index : DynamicCellIndex C) (position : Enu C) :
    (index.cellOf position).level = index.grid.clampLevel index.level := by
  unfold DynamicCellIndex.cellOf
  cases index.storeys <;> rfl

theorem cellOf_z (index : DynamicCellIndex C) (position : Enu C) :
    (index.cellOf position).z = (index.storeys.map fun storeys => storeys.cell position.up).getD 0 := by
  unfold DynamicCellIndex.cellOf
  cases index.storeys <;> rfl

theorem mem_cellsBetween {cell : CellKey} :
    cell ∈ index.cellsBetween minimum maximum ↔
      cell.level = index.level ∧ index.Spanned minimum maximum cell := by
  obtain ⟨x, y, level, z⟩ := cell
  simp only [DynamicCellIndex.cellsBetween, List.mem_flatMap, List.mem_map, mem_cellRange,
    CellKey.mk.injEq, DynamicCellIndex.Spanned, Set.uIcc, Set.mem_Icc]
  constructor
  · rintro ⟨_, inZ, _, inY, _, inX, rfl, rfl, rfl, rfl⟩
    exact ⟨rfl, inX, inY, inZ⟩
  · rintro ⟨rfl, inX, inY, inZ⟩
    exact ⟨z, inZ, y, inY, x, inX, rfl, rfl, rfl, rfl⟩

/-- The loops run over the cells between the corners, unless one of them does not end. -/
theorem visitedCells_eq (index : DynamicCellIndex C) (minimum maximum : Enu C) :
    index.visitedCells minimum maximum =
      if index.LoopsEnd minimum maximum then some (index.cellsBetween minimum maximum)
      else none := by
  have columns := (index.grid.columns (index.grid.clampLevel index.level)).monotone
  have rows := (index.grid.rows (index.grid.clampLevel index.level)).monotone
  have storeys : Monotone fun height =>
      (index.storeys.map fun storeys => storeys.cell height).getD 0 := by
    intro low high le
    cases index.storeys with
    | none => exact le_refl _
    | some storeys => exact storeys.monotone le
  simp only [DynamicCellIndex.visitedCells, DynamicCellIndex.LoopsEnd,
    DynamicCellIndex.cellsBetween, CellGrid.cellFor, cellOf_x, cellOf_y, cellOf_z,
    columns.map_min, columns.map_max, rows.map_min, rows.map_max, storeys.map_min, storeys.map_max]
  rw [loopRange_eq min_le_max, loopRange_eq min_le_max, loopRange_eq min_le_max]
  split_ifs <;> first | rfl | tauto

theorem queryCandidates_eq (index : DynamicCellIndex C) (minimum maximum : Enu C) :
    index.queryCandidates minimum maximum =
      if index.LoopsEnd minimum maximum then
        some (index.placed.collect (index.cellsBetween minimum maximum)).toList
      else none := by
  rw [DynamicCellIndex.queryCandidates, visitedCells_eq]
  split <;> rfl

/-- A position in the box lies in one of the cells its corners span. -/
theorem spanned_of_inside {position : Enu C} (inside : index.Inside minimum maximum position) :
    index.Spanned minimum maximum (index.cellOf position) := by
  obtain ⟨east, north, up⟩ := inside
  refine ⟨?_, ?_, ?_⟩
  · simp only [cellOf_x]
    exact (index.grid.columns _).monotone.image_uIcc_subset ⟨_, east, rfl⟩
  · simp only [cellOf_y]
    exact (index.grid.rows _).monotone.image_uIcc_subset ⟨_, north, rfl⟩
  · simp only [cellOf_z]
    cases found : index.storeys with
    | none => simp
    | some storeys =>
      rw [found] at up
      exact storeys.monotone.image_uIcc_subset ⟨_, up rfl, rfl⟩

end Query

section Exactness

variable {index : DynamicCellIndex C} {positions : WidMap (Enu C)} {minimum maximum : Enu C}

/-- What a query returns, for an index that records the positions. -/
theorem mem_candidates (records : index.Records positions) (id : WorldId) :
    id ∈ (index.placed.collect (index.cellsBetween minimum maximum)).toList ↔
      ∃ position, positions[id]? = some position ∧
        index.Spanned minimum maximum (index.cellOf position) ∧
        index.grid.clampLevel index.level = index.level := by
  rw [Std.ExtTreeSet.mem_toList, Placement.mem_collect_iff records.consistent]
  simp only [mem_cellsBetween, records.placed, Option.map_eq_some_iff]
  constructor
  · rintro ⟨_, ⟨level, spanned⟩, position, found, rfl⟩
    exact ⟨position, found, spanned, (cellOf_level index position).symm.trans level⟩
  · rintro ⟨position, found, spanned, level⟩
    exact ⟨_, ⟨(cellOf_level index position).trans level, spanned⟩, position, found, rfl⟩

theorem clampLevel_eq_iff (grid : CellGrid C) (level : UInt8) :
    grid.clampLevel level = level ↔ level ≤ grid.maxLevel := by
  unfold CellGrid.clampLevel
  split
  · rename_i above
    constructor
    · rintro same
      exact absurd (same ▸ above) (UInt8.lt_irrefl _)
    · intro below
      exact absurd above (UInt8.not_lt.mpr below)
  · rename_i below
    simpa using UInt8.not_lt.mp below

/-- The property for one query, on an index that records the positions. -/
theorem findsExactly_iff (records : index.Records positions) :
    (∃ found, index.queryCandidates minimum maximum = some found ∧
      index.FindsExactly positions minimum maximum found) ↔
      index.LoopsEnd minimum maximum ∧ (index.level ≤ index.grid.maxLevel ∨
        ∀ (id : WorldId) (position : Enu C), positions[id]? = some position →
          ¬ index.Spanned minimum maximum (index.cellOf position)) := by
  rw [queryCandidates_eq]
  by_cases ends : index.LoopsEnd minimum maximum
  · rw [if_pos ends]
    constructor
    · rintro ⟨found, query, exact⟩
      obtain rfl := Option.some.inj query
      refine ⟨ends, or_iff_not_imp_left.mpr fun above id position found spanned => ?_⟩
      have member := (exact.exactly id).mpr ⟨position, found, spanned⟩
      obtain ⟨_, -, -, kept⟩ := (mem_candidates records id).mp member
      exact above ((clampLevel_eq_iff _ _).mp kept)
    · rintro ⟨-, holds⟩
      have exactly : ∀ id : WorldId,
          id ∈ (index.placed.collect (index.cellsBetween minimum maximum)).toList ↔
            ∃ position, positions[id]? = some position ∧
              index.Spanned minimum maximum (index.cellOf position) := by
        intro id
        rw [mem_candidates records]
        constructor
        · rintro ⟨position, found, spanned, -⟩
          exact ⟨position, found, spanned⟩
        · rintro ⟨position, found, spanned⟩
          refine ⟨position, found, spanned, (clampLevel_eq_iff _ _).mpr ?_⟩
          exact holds.resolve_right fun none => none id position found spanned
      refine ⟨_, rfl, ?_, exactly, fun id position found inside => ?_⟩
      · exact Std.ExtTreeSet.ordered_toList.imp fun before => Std.compare_eq_lt.mp before
      · exact (exactly id).mpr ⟨position, found, spanned_of_inside inside⟩
  · rw [if_neg ends]
    simp [ends]

/-- After any operations both tables record the cell of every last position, and a query
returns the ids of the spanned cells, exactly when no loop runs into the end of its counter
and the index has a level of the grid, or nothing is placed in those cells. -/
theorem candidates_exact_iff (C : Type) [LinearOrder C] (grid : CellGrid C) (level : UInt8)
    (storeys : Option (AxisCells C int32Max)) (ops : List (CellOp C)) (minimum maximum : Enu C) :
    (DynamicCellIndex.after grid level storeys ops).Records (lastPositions ops) ∧
      ((∃ found, (DynamicCellIndex.after grid level storeys ops).queryCandidates minimum maximum =
          some found ∧
        (DynamicCellIndex.after grid level storeys ops).FindsExactly (lastPositions ops) minimum
          maximum found) ↔
        (DynamicCellIndex.after grid level storeys ops).LoopsEnd minimum maximum ∧
          (level ≤ grid.maxLevel ∨
            ∀ (id : WorldId) (position : Enu C), (lastPositions ops)[id]? = some position →
              ¬ (DynamicCellIndex.after grid level storeys ops).Spanned minimum maximum
                ((DynamicCellIndex.after grid level storeys ops).cellOf position))) := by
  have records := DynamicCellIndex.records_after grid level storeys ops
  have law := @findsExactly_iff _ _ _ _ minimum maximum records
  obtain ⟨same_grid, same_level⟩ := DynamicCellIndex.after_config grid level storeys ops
  rw [same_grid, same_level] at law
  exact ⟨records, law⟩

/-- Whole metres in cells of a whole number of metres. -/
def metreCells (size : Nat) : AxisCells (Fin 1024) int64Max where
  cell metres := Int.ofNat (metres.val / size)
  monotone low high le := Int.ofNat_le.mpr (Nat.div_le_div_right le)
  exact metres := by
    have quotient : metres.val / size ≤ metres.val := Nat.div_le_self _ _
    have bound := metres.isLt
    rw [int64Max, Int.ofNat_eq_natCast]
    generalize metres.val / size = cell at quotient ⊢
    omega

def kilometreGrid : CellGrid (Fin 1024) where
  maxLevel := 1
  columns level := metreCells (128 * 2 ^ level.toNat)
  rows level := metreCells (128 * 2 ^ level.toNat)

/-- At a level above the grid's the cells are recorded under another level than the query
looks up. -/
theorem clamped_level_not_found :
    ¬ ∀ (C : Type) [LinearOrder C] (grid : CellGrid C) (level : UInt8)
      (storeys : Option (AxisCells C int32Max)) (ops : List (CellOp C)) (minimum maximum : Enu C),
      (DynamicCellIndex.after grid level storeys ops).LoopsEnd minimum maximum →
      ∃ found, (DynamicCellIndex.after grid level storeys ops).queryCandidates minimum maximum =
          some found ∧
        (DynamicCellIndex.after grid level storeys ops).FindsExactly (lastPositions ops) minimum
          maximum found := by
  intro claim
  obtain ⟨found, query, exact⟩ := claim (Fin 1024) kilometreGrid 2 none
    [.upsert 1 ⟨5, 5, 0⟩] ⟨0, 0, 0⟩ ⟨9, 9, 0⟩ (by decide +kernel)
  have nothing : (DynamicCellIndex.after kilometreGrid 2 none [.upsert 1 ⟨5, 5, 0⟩]).queryCandidates
      ⟨0, 0, 0⟩ ⟨9, 9, 0⟩ = some [] := by
    decide +kernel
  have between : (5 : Fin 1024) ∈ Set.uIcc 0 9 :=
    Set.mem_uIcc.mpr (.inl ⟨by decide, by decide⟩)
  have member := exact.inside 1 ⟨5, 5, 0⟩ (by decide +kernel)
    ⟨between, between, fun storeys => absurd storeys (by decide +kernel)⟩
  rw [← Option.some.inj (nothing.symm.trans query)] at member
  cases member

end Exactness

end GeoWorld.Spatial

/-!
How many cells a query looks up. Cells have a size and storeys a height, so the extent of
the box bounds their number.
-/

namespace GeoWorld.Spatial

open Projection (CellKey cellRange)

/-- An index with the cells of `cell_for` and `cell_for_2_5d`: the coordinate over the size,
rounded down. The coordinates are those whose cells fit their integer types. -/
structure MetricIndex (C : Type) [LinearOrder C] where
  index : DynamicCellIndex C
  value : C → ℚ
  baseCellSizeMeters : ℚ
  floorHeightMeters : ℚ
  base_positive : 0 < baseCellSizeMeters
  floor_positive : 0 < floorHeightMeters
  columns : ∀ level coordinate, (index.grid.columns level).cell coordinate =
    ⌊value coordinate / (baseCellSizeMeters * 2 ^ level.toNat)⌋
  rows : ∀ level coordinate, (index.grid.rows level).cell coordinate =
    ⌊value coordinate / (baseCellSizeMeters * 2 ^ level.toNat)⌋
  storeys : ∀ axis ∈ index.storeys, ∀ coordinate,
    axis.cell coordinate = ⌊value coordinate / floorHeightMeters⌋

namespace MetricIndex

variable {C : Type} [LinearOrder C] (metric : MetricIndex C)

/-- `cell_size` of the level of the index. -/
def cellSize : ℚ :=
  metric.baseCellSizeMeters * 2 ^ (metric.index.grid.clampLevel metric.index.level).toNat

/-- The most cells that a box of an extent touches along an axis. -/
def cellsAcross (size extent : ℚ) : Nat :=
  ⌊extent / size⌋.toNat + 2

/-- The most cells that a box of an extent touches. -/
def cellBudget (extent : ℚ) : Nat :=
  (if metric.index.storeys.isSome then cellsAcross metric.floorHeightMeters extent else 1) *
    (cellsAcross metric.cellSize extent * cellsAcross metric.cellSize extent)

end MetricIndex

section Count

variable {C : Type} [LinearOrder C]

theorem length_cellRange (first last : Int) :
    (cellRange first last).length = (last - first + 1).toNat := by
  simp [cellRange]

theorem length_cellsBetween (index : DynamicCellIndex C) (minimum maximum : Enu C) :
    (index.cellsBetween minimum maximum).length =
      (cellRange (min (index.cellOf minimum).z (index.cellOf maximum).z)
        (max (index.cellOf minimum).z (index.cellOf maximum).z)).length *
      ((cellRange (min (index.cellOf minimum).y (index.cellOf maximum).y)
        (max (index.cellOf minimum).y (index.cellOf maximum).y)).length *
      (cellRange (min (index.cellOf minimum).x (index.cellOf maximum).x)
        (max (index.cellOf minimum).x (index.cellOf maximum).x)).length) := by
  simp only [DynamicCellIndex.cellsBetween, List.length_flatMap, List.length_map,
    List.map_const', List.sum_replicate, smul_eq_mul]

/-- Along one axis the cells of two coordinates are not further apart than their distance. -/
theorem length_axis {size extent one other : ℚ} (positive : 0 < size)
    (close : |one - other| ≤ extent) :
    (cellRange (min ⌊one / size⌋ ⌊other / size⌋) (max ⌊one / size⌋ ⌊other / size⌋)).length ≤
      MetricIndex.cellsAcross size extent := by
  have apart (left right : ℚ) (close : left - right ≤ extent) :
      ⌊left / size⌋ - ⌊right / size⌋ ≤ ⌊extent / size⌋ + 1 := by
    have split := Int.le_floor_add_floor (right / size) (left / size - right / size)
    have less : ⌊left / size - right / size⌋ ≤ ⌊extent / size⌋ := by
      rw [← sub_div]
      exact Int.floor_le_floor (div_le_div_of_nonneg_right close positive.le)
    rw [add_sub_cancel] at split
    omega
  have forward := apart one other (le_of_abs_le close)
  have backward := apart other one (le_of_abs_le (abs_sub_comm one other ▸ close))
  rw [length_cellRange, MetricIndex.cellsAcross]
  omega

/-- A query of a box looks up no more cells than its extent allows. -/
theorem visitedCells_length_le (metric : MetricIndex C) {minimum maximum : Enu C} {extent : ℚ}
    (east : |metric.value minimum.east - metric.value maximum.east| ≤ extent)
    (north : |metric.value minimum.north - metric.value maximum.north| ≤ extent)
    (up : |metric.value minimum.up - metric.value maximum.up| ≤ extent)
    {cells : List CellKey} (visited : metric.index.visitedCells minimum maximum = some cells) :
    cells.length ≤ metric.cellBudget extent := by
  have size : 0 < metric.cellSize := mul_pos metric.base_positive (by positivity)
  rw [visitedCells_eq] at visited
  split at visited
  · obtain rfl := Option.some.inj visited
    rw [length_cellsBetween]
    simp only [cellOf_x, cellOf_y, cellOf_z, metric.columns, metric.rows]
    refine Nat.mul_le_mul ?_ (Nat.mul_le_mul (length_axis size north) (length_axis size east))
    cases found : metric.index.storeys with
    | none => simp [length_cellRange]
    | some axis =>
      simp only [Option.map_some, Option.getD_some, metric.storeys axis found]
      exact length_axis metric.floor_positive up
  · cases visited

end Count

end GeoWorld.Spatial
