import Mathlib
import GeoWorld.Library.LittleEndian
import GeoWorld.WorldModel.Object

/-!
The state hash of a world: FNV-1a over the objects by ascending id. Doubles go in by their
bits, and revisions stay out.
-/

namespace GeoWorld.Debug

open WorldModel Library

namespace HashBuilder

/-- The bytes of `add(std::uint64_t)`. -/
def word (value : UInt64) : ByteString := bytesLE 8 value.toNat

def size (count : Nat) : ByteString := word (UInt64.ofNat count)

/-- The bytes of `add(std::string_view)`. -/
def text (value : ByteString) : ByteString := size value.length ++ value

def add (hash : UInt64) (byte : UInt8) : UInt64 :=
  (hash ^^^ byte.toUInt64) * 1099511628211

def value (bytes : ByteString) : UInt64 :=
  bytes.foldl add 14695981039346656037

end HashBuilder

open HashBuilder

/-- The index of the alternative, then its value. -/
def propertyBytes : Value → ByteString
  | .integer item => word 0 ++ word item.toUInt64
  | .real bits => word 1 ++ word bits
  | .boolean item => word 2 ++ word (if item then 1 else 0)
  | .text item => word 3 ++ text item

def entryBytes (entry : ByteString × Value) : ByteString :=
  text entry.1 ++ propertyBytes entry.2

def propertiesBytes (properties : PropertyBag) : ByteString :=
  size properties.size ++ properties.toList.flatMap entryBytes

def relationBytes (relation : Relation) : ByteString :=
  word relation.target ++ (text relation.type ++ propertiesBytes relation.attributes)

def objectBytes (object : WorldObject) : ByteString :=
  word object.id ++ (text object.geometryRef ++ (word object.position.x ++
    (word object.position.y ++ (word object.position.z ++ (text object.semanticType ++
    (propertiesBytes object.properties ++ (propertiesBytes object.state ++
    (word object.lifecycle.code.toUInt64 ++ (word object.version ++
    (size object.capabilities.length ++ (object.capabilities.flatMap text ++
    (size object.relations.length ++ object.relations.flatMap relationBytes))))))))))))

/-- Everything the hash is fed, object by object. -/
def stateBytes (objects : List WorldObject) : ByteString :=
  size objects.length ++ objects.flatMap objectBytes

def worldStateHash (objects : List WorldObject) : UInt64 :=
  HashBuilder.value (stateBytes objects)

end GeoWorld.Debug
