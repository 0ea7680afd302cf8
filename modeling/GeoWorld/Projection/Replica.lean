import Mathlib
import GeoWorld.Library.EditScript
import GeoWorld.Projection.Frame

/-!
The reference client: a replica maps each id to its feature id and entity hash.
A keyframe replaces the whole map; a delta removes its leaves and then writes
its enters and updates. The hash of an entity is the canonical hash of the
projection the frame carries.
-/

namespace GeoWorld.Projection

open WorldModel Library

/-- `ReplicaAccumulator`, by its `entities_`. -/
abbrev ReplicaAccumulator := WidMap (FeatureId × UInt64)

/-- What a replica or a server view holds for each id. -/
abbrev View := WorldId → Option (FeatureId × UInt64)

namespace ReplicaAccumulator

def view (replica : ReplicaAccumulator) : View :=
  fun wid => replica[wid]?

def writeEnter (replica : ReplicaAccumulator) (enter : EntityEnter) : ReplicaAccumulator :=
  replica.insert enter.wid (enter.fid, projectedEntityHash enter.entity)

def writeUpdate (replica : ReplicaAccumulator) (update : EntityUpdate) : ReplicaAccumulator :=
  replica.insert update.wid (update.fid, projectedEntityHash update.entity)

def applyKeyframe (_replica : ReplicaAccumulator) (keyframe : Keyframe) :
    ReplicaAccumulator :=
  keyframe.entities.foldl writeEnter ∅

def applyDelta (replica : ReplicaAccumulator) (delta : Delta) : ReplicaAccumulator :=
  let replica := delta.leaves.foldl (fun acc leave => acc.erase leave.wid) replica
  let replica := delta.enters.foldl writeEnter replica
  delta.updates.foldl writeUpdate replica

def apply (replica : ReplicaAccumulator) : StateFrame → ReplicaAccumulator
  | .keyframe frame => replica.applyKeyframe frame
  | .delta frame => replica.applyDelta frame

end ReplicaAccumulator

def EntityEnter.edit (enter : EntityEnter) : Edit WorldId (FeatureId × UInt64) :=
  (enter.wid, some (enter.fid, projectedEntityHash enter.entity))

def EntityUpdate.edit (update : EntityUpdate) : Edit WorldId (FeatureId × UInt64) :=
  (update.wid, some (update.fid, projectedEntityHash update.entity))

def EntityLeave.edit (leave : EntityLeave) : Edit WorldId (FeatureId × UInt64) :=
  (leave.wid, none)

/-- A delta as an edit script. -/
def Delta.edits (delta : Delta) : List (Edit WorldId (FeatureId × UInt64)) :=
  delta.leaves.map EntityLeave.edit ++ delta.enters.map EntityEnter.edit ++
    delta.updates.map EntityUpdate.edit

namespace ReplicaAccumulator

theorem applyDelta_view (replica : ReplicaAccumulator) (delta : Delta) :
    (replica.applyDelta delta).view = applyScript replica.view delta.edits := by
  have folded : replica.applyDelta delta = delta.edits.foldl editMap replica := by
    simp only [applyDelta, Delta.edits, List.foldl_append, List.foldl_map]
    rfl
  rw [folded]
  exact lookup_editMap_foldl replica delta.edits

theorem applyKeyframe_view (replica : ReplicaAccumulator) (keyframe : Keyframe) :
    (replica.applyKeyframe keyframe).view =
      applyScript (fun _ => none) (keyframe.entities.map EntityEnter.edit) := by
  have folded : replica.applyKeyframe keyframe =
      (keyframe.entities.map EntityEnter.edit).foldl editMap ∅ := by
    simp only [applyKeyframe, List.foldl_map]
    rfl
  have empty : (fun wid : WorldId => (∅ : ReplicaAccumulator)[wid]?) = fun _ => none := by
    funext wid
    exact Std.ExtTreeMap.getElem?_empty
  rw [folded, ← empty]
  exact lookup_editMap_foldl ∅ _

end ReplicaAccumulator

end GeoWorld.Projection
