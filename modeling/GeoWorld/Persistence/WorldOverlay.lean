import Mathlib
import GeoWorld.Library.NumberedQueue
import GeoWorld.Library.SortedMerge
import GeoWorld.Persistence.WorldCheckpoint

/-!
A branch of the world: a frozen baseline under an overlay of changed objects and the
tombstones of removed ones. It behaves as a plain map that starts as the baseline.
-/

namespace GeoWorld.Persistence

open WorldModel Library

/-- Every object stands under its own id, which is a valid one. -/
def OwnIds (objects : WidMap WorldObject) : Prop :=
  ∀ (id : WorldId) (object : WorldObject), objects[id]? = some object → object.id = id ∧ id.valid

/-- A frozen snapshot with the blocks it reads. -/
structure FrozenWorldSnapshot where
  storage : FrozenStorage
  heap : Std.ExtTreeMap Address WorldObject compare
  own : OwnIds (denote heap storage.objects)

namespace FrozenWorldSnapshot

def find (snapshot : FrozenWorldSnapshot) (id : WorldId) : Option WorldObject :=
  snapshot.storage.objects[id]?.bind fun entry => snapshot.heap[entry.object]?

/-- The objects `for_each_object` calls back with. -/
def visited (snapshot : FrozenWorldSnapshot) (traversal : Traversal) : List WorldObject :=
  (traversal.visit snapshot.storage.objects).filterMap fun entry => snapshot.heap[entry.2.object]?

/-- The snapshot as a plain map. -/
def objects (snapshot : FrozenWorldSnapshot) : WidMap WorldObject :=
  denote snapshot.heap snapshot.storage.objects

end FrozenWorldSnapshot

structure WorldOverlay where
  baseline : FrozenWorldSnapshot
  overlay : WidMap WorldObject := ∅
  tombstones : WidSet := ∅

namespace WorldOverlay

def find (branch : WorldOverlay) (id : WorldId) : Option WorldObject :=
  if branch.tombstones.contains id then none
  else match branch.overlay[id]? with
    | some object => some object
    | none => branch.baseline.find id

def upsert (branch : WorldOverlay) (object : WorldObject) : Bool × WorldOverlay :=
  if !object.id.valid then (false, branch)
  else (true, { branch with
    tombstones := branch.tombstones.erase object.id
    overlay := branch.overlay.insert object.id object })

def erase (branch : WorldOverlay) (id : WorldId) : Bool × WorldOverlay :=
  if !id.valid || (branch.find id).isNone then (false, branch)
  else (true, { branch with
    overlay := branch.overlay.erase id
    tombstones := branch.tombstones.insert id })

/-- The baseline without the removed objects, then the changed ones. -/
def merged (branch : WorldOverlay) (traversal : Traversal) : WidMap WorldObject :=
  branch.overlay.toList.foldl (fun merged entry => merged.insert entry.1 entry.2)
    ((branch.baseline.visited traversal).foldl (fun merged object =>
      if branch.tombstones.contains object.id then merged
      else merged.insertIfNew object.id object) ∅)

def materialize (branch : WorldOverlay) (traversal : Traversal) : WorldSnapshot where
  objects := (branch.merged traversal).toList.map Prod.snd
  nextRevision := branch.baseline.storage.nextRevision
  eraseRevision := UInt64.ofNat branch.baseline.storage.eraseRevision

end WorldOverlay

inductive OverlayOp where
  | upsert (object : WorldObject)
  | erase (id : WorldId)

def WorldOverlay.perform (branch : WorldOverlay) : OverlayOp → Bool × WorldOverlay
  | .upsert object => branch.upsert object
  | .erase id => branch.erase id

/-- The branch as the plain map it stands for. -/
structure WorldOverlay.Refines (branch : WorldOverlay) (objects : WidMap WorldObject) : Prop where
  finds : ∀ id, branch.find id = objects[id]?
  disjoint : ∀ id, branch.tombstones.contains id → branch.overlay[id]? = none
  own : OwnIds branch.overlay

section Layers

variable {snapshot : FrozenWorldSnapshot} {branch : WorldOverlay} {objects : WidMap WorldObject}

theorem FrozenWorldSnapshot.find_eq (snapshot : FrozenWorldSnapshot) (id : WorldId) :
    snapshot.find id = snapshot.objects[id]? :=
  (denote_getElem? snapshot.heap snapshot.storage.objects id).symm

theorem WorldOverlay.Refines.plain_own (refines : branch.Refines objects) : OwnIds objects := by
  intro id object held
  rw [← refines.finds, WorldOverlay.find] at held
  split at held
  · cases held
  · split at held
    · next changed found =>
      obtain rfl := Option.some.inj held
      exact refines.own id changed found
    · exact branch.baseline.own id object ((branch.baseline.find_eq id).symm.trans held)

/-- What is materialised stands in the order of its ids. -/
theorem WorldOverlay.Refines.ascending (refines : branch.Refines objects) :
    (objects.toList.map Prod.snd).Pairwise fun earlier later => earlier.id < later.id := by
  refine List.pairwise_map.mpr ((toList_ascending objects).imp_of_mem ?_)
  intro first second left right before
  have own := refines.plain_own
  rw [(own _ _ (Std.ExtTreeMap.mem_toList_iff_getElem?_eq_some.mp left)).1,
    (own _ _ (Std.ExtTreeMap.mem_toList_iff_getElem?_eq_some.mp right)).1]
  exact before

end Layers

section Runs

/-- A branch after some operations. -/
abbrev WorldOverlay.ran (baseline : FrozenWorldSnapshot) (ops : List OverlayOp) : WorldOverlay :=
  moveAll WorldOverlay.perform { baseline := baseline } ops

end Runs

end GeoWorld.Persistence
