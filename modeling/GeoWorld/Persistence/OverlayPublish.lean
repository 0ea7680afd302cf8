import Mathlib
import GeoWorld.Persistence.WorldOverlay

/-!
Publishing what a branch materialises: it is restored into a world, frozen and encoded.
The provider takes the payload back when every object fits its limits and carries counters
that were given out; the overlay checks neither.
-/

namespace GeoWorld.Persistence

open WorldModel Library ByteReader WorldCheckpointProvider

section Admission

variable {limits : PayloadLimits}

/-- Lengths that a 32-bit size does not cut. -/
def sizeLimits : PayloadLimits where
  stringBytes := 256 ^ 4 - 1
  collectionItems := 256 ^ 4 - 1
  emptyKeys := true
  stringBytes_lt := by decide
  collectionItems_lt := by decide

theorem admits_string {value : ByteString} (uncut : sizeLimits.AllowsString value) :
    Admits (PayloadReader.string limits) (PayloadWriter.string value) (limits.AllowsString value)
      value :=
  (Reads.fixed (uncut.trans_lt sizeLimits.stringBytes_lt)).bindAdmits
    (Admits.guard fun short => (Reads.take rfl).admits short)

namespace WorldCheckpointProvider

end WorldCheckpointProvider

end Admission

section Published

/-- Restoring what a branch materialises into a world, freezing and encoding that world. -/
def WorldOverlay.publish (branch : WorldOverlay) (build : StorageBuild)
    (visiting encoding : Traversal) (target : World) : ByteString :=
  checkpointPayload build encoding (restoreSnapshot target (branch.materialize visiting))

variable {objects : WidMap WorldObject} {nextRevision eraseRevision : UInt64}

end Published

end GeoWorld.Persistence
