import Mathlib

/-!
Identifiers, property values and the semantic object of the world.
Byte strings are lists of bytes and doubles are carried as their 64-bit
patterns: the code below compares positions with memcmp and hashes doubles
through bit_cast, so nothing here needs floating-point arithmetic.
Ordered and hashed containers are extensional tree maps; a loop over a hashed
container whose order could be observed states its order where it is modelled.
-/

namespace GeoWorld.WorldModel

/-- `foundation::WorldId`; the value 0 is the invalid id. -/
abbrev WorldId := UInt64

def WorldId.valid (id : WorldId) : Bool := id != 0

/-- `foundation::FeatureId`, local to one connection and one stream epoch. -/
abbrev FeatureId := Nat

/-- `std::string`: the bytes it holds. -/
abbrev ByteString := List UInt8

instance : LawfulBEq ByteString := inferInstanceAs (LawfulBEq (List UInt8))

abbrev WidMap (β : Type) := Std.ExtTreeMap WorldId β compare

abbrev WidSet := Std.ExtTreeSet WorldId compare

/-- `schema::Value`, the variant `<int64, double, bool, string>` in index order. -/
inductive Value where
  | integer (value : Int64)
  | real (bits : UInt64)
  | boolean (value : Bool)
  | text (value : ByteString)
  deriving DecidableEq

abbrev PropertyBag := Std.ExtTreeMap ByteString Value compare

structure PositionEcef where
  x : UInt64
  y : UInt64
  z : UInt64
  deriving DecidableEq

inductive LifecycleState where
  | staged
  | active
  | suspended
  | retired
  deriving DecidableEq

def LifecycleState.code : LifecycleState → UInt8
  | staged => 0
  | active => 1
  | suspended => 2
  | retired => 3

structure Relation where
  target : WorldId
  type : ByteString
  attributes : PropertyBag
  deriving DecidableEq

structure WorldObject where
  id : WorldId
  geometryRef : ByteString := []
  position : PositionEcef := ⟨0, 0, 0⟩
  semanticType : ByteString := []
  properties : PropertyBag := ∅
  state : PropertyBag := ∅
  relations : List Relation := []
  capabilities : List ByteString := []
  lifecycle : LifecycleState := .staged
  version : UInt64 := 1
  /-- Assigned by `World::insert`; read only by dirty checks. -/
  revision : UInt64 := 0
  deriving DecidableEq

end GeoWorld.WorldModel
