import Mathlib
import GeoWorld.Debug.StateHash
import GeoWorld.Library.AlignedCode
import GeoWorld.Library.Binary64
import GeoWorld.Library.SortedMerge
import GeoWorld.Persistence.WorldProvider

/-!
The object-level comparison of two snapshots, against the state hash and the provider's
encoding. The comparison takes doubles for equal that compare equal, and these write them
by their bits: the two zeros are what it does not see.
-/

namespace GeoWorld.Persistence

open WorldModel Library Debug WorldCheckpointProvider

/-- `==` of two variants. -/
def sameValue : Value → Value → Bool
  | .integer left, .integer right => left == right
  | .real left, .real right => Binary64.equal left right
  | .boolean left, .boolean right => left == right
  | .text left, .text right => left == right
  | _, _ => false

def sameProperty (left right : ByteString × Value) : Bool :=
  left.1 == right.1 && sameValue left.2 right.2

/-- `==` of two maps. -/
def sameProperties (left right : PropertyBag) : Bool :=
  left.size == right.size && left.toList.isEqv right.toList sameProperty

def sameRelation (left right : Relation) : Bool :=
  left.target == right.target && left.type == right.type &&
    sameProperties left.attributes right.attributes

def sameObject (left right : WorldObject) : Bool :=
  left.id == right.id && left.geometryRef == right.geometryRef &&
    Binary64.equal left.position.x right.position.x &&
    Binary64.equal left.position.y right.position.y &&
    Binary64.equal left.position.z right.position.z &&
    left.semanticType == right.semanticType &&
    sameProperties left.properties right.properties && sameProperties left.state right.state &&
    left.relations.length == right.relations.length &&
    left.capabilities == right.capabilities && left.lifecycle == right.lifecycle &&
    left.version == right.version && left.revision == right.revision &&
    left.relations.isEqv right.relations sameRelation

inductive DifferenceKind where
  | added
  | removed
  | changed
  deriving DecidableEq

structure ObjectDifference where
  id : WorldId
  kind : DifferenceKind
  deriving DecidableEq

/-- The loop of `compare_world_snapshots` over what the two indexes have left. -/
def compareObjects : List WorldObject → List WorldObject → List ObjectDifference
  | [], [] => []
  | a :: left, [] => ⟨a.id, .removed⟩ :: compareObjects left []
  | [], b :: right => ⟨b.id, .added⟩ :: compareObjects [] right
  | a :: left, b :: right =>
    if a.id < b.id then ⟨a.id, .removed⟩ :: compareObjects left (b :: right)
    else if b.id < a.id then ⟨b.id, .added⟩ :: compareObjects (a :: left) right
    else if sameObject a b then compareObjects left right
    else ⟨a.id, .changed⟩ :: compareObjects left right
  termination_by left right => left.length + right.length

def compareWorldSnapshots (left right : WorldSnapshot) : List ObjectDifference :=
  compareObjects left.objects right.objects

section Doubles

def valueDoubles : Value → List UInt64
  | .real bits => [bits]
  | _ => []

def propertyDoubles (properties : PropertyBag) : List UInt64 :=
  properties.toList.flatMap fun entry => valueDoubles entry.2

/-- The doubles of an object, from its position to the attributes of its relations. -/
def objectDoubles (object : WorldObject) : List UInt64 :=
  [object.position.x] ++ ([object.position.y] ++ ([object.position.z] ++
    (propertyDoubles object.properties ++ (propertyDoubles object.state ++
    object.relations.flatMap fun relation => propertyDoubles relation.attributes))))

/-- A zero on one side and the zero of the other sign on the other. -/
def ZeroFlipped (left right : UInt64) : Prop :=
  left = 0 ∧ right = Binary64.negativeZero ∨ left = Binary64.negativeZero ∧ right = 0

end Doubles

section Writing

variable {β : Type}

theorem aligned_double_bytes : Aligned Binary64.equal HashBuilder.word where
  length left right _ := by simp [HashBuilder.word]
  injective left right _ written := by
    have numbers := congrArg valueLE written
    rw [HashBuilder.word, HashBuilder.word, valueLE_bytesLE _ _ left.toNat_lt,
      valueLE_bytesLE _ _ right.toNat_lt] at numbers
    exact UInt64.toNat_inj.mp numbers

theorem aligned_value_bytes : Aligned sameValue propertyBytes := by
  constructor
  · intro left right alike
    cases left <;> cases right <;> simp_all [sameValue, propertyBytes, HashBuilder.word]
  · intro left right alike written
    cases left <;> cases right <;> simp only [sameValue, beq_iff_eq, Bool.false_eq_true] at alike
    · rw [alike]
    · have bits := (List.append_cancel_left written)
      rw [aligned_double_bytes.injective _ _ alike bits]
    · rw [alike]
    · rw [alike]

theorem aligned_value_doubles : Aligned sameValue valueDoubles := by
  constructor
  · intro left right alike
    cases left <;> cases right <;> simp_all [sameValue, valueDoubles]
  · intro left right alike written
    cases left <;> cases right <;> simp_all [sameValue, valueDoubles]

theorem sameProperty_iff {left right : ByteString × Value} :
    sameProperty left right = true ↔ left.1 = right.1 ∧ sameValue left.2 right.2 = true := by
  simp [sameProperty]

theorem sameProperties_iff {left right : PropertyBag} :
    sameProperties left right = true ↔ left.size = right.size ∧
      left.toList.isEqv right.toList sameProperty = true := by
  simp [sameProperties]

theorem sameRelation_iff {left right : Relation} :
    sameRelation left right = true ↔ left.target = right.target ∧ left.type = right.type ∧
      sameProperties left.attributes right.attributes = true := by
  simp [sameRelation, and_assoc]

/-- What two objects that count as equal have in common. -/
structure SameObject (left right : WorldObject) : Prop where
  id : left.id = right.id
  geometryRef : left.geometryRef = right.geometryRef
  x : Binary64.equal left.position.x right.position.x = true
  y : Binary64.equal left.position.y right.position.y = true
  z : Binary64.equal left.position.z right.position.z = true
  semanticType : left.semanticType = right.semanticType
  properties : sameProperties left.properties right.properties = true
  state : sameProperties left.state right.state = true
  relationCount : left.relations.length = right.relations.length
  capabilities : left.capabilities = right.capabilities
  lifecycle : left.lifecycle = right.lifecycle
  version : left.version = right.version
  revision : left.revision = right.revision
  relations : left.relations.isEqv right.relations sameRelation = true

theorem sameObject_spec {left right : WorldObject} (alike : sameObject left right = true) :
    SameObject left right := by
  simp only [sameObject, Bool.and_eq_true, beq_iff_eq, and_assoc] at alike
  obtain ⟨id, geometryRef, x, y, z, semanticType, properties, state, relationCount, capabilities,
    lifecycle, version, revision, relations⟩ := alike
  exact ⟨id, geometryRef, x, y, z, semanticType, properties, state, relationCount, capabilities,
    lifecycle, version, revision, relations⟩

/-- A bag, with whatever is written of its size and its names. -/
theorem aligned_properties {name : ByteString → List β} {size : Nat → List β}
    {write : Value → List β} (aligned : Aligned sameValue write) :
    Aligned sameProperties fun properties =>
      size properties.size ++
        properties.toList.flatMap fun entry => name entry.1 ++ write entry.2 := by
  have property : Aligned sameProperty fun entry => name entry.1 ++ write entry.2 := by
    constructor
    · intro left right alike
      obtain ⟨key, value⟩ := sameProperty_iff.mp alike
      rw [List.length_append, List.length_append, key, aligned.length _ _ value]
    · intro left right alike written
      obtain ⟨key, value⟩ := sameProperty_iff.mp alike
      rw [key] at written
      exact Prod.ext key (aligned.injective _ _ value (List.append_cancel_left written))
  constructor
  · intro left right alike
    obtain ⟨count, entries⟩ := sameProperties_iff.mp alike
    rw [List.length_append, List.length_append, count, property.flatMap.length _ _ entries]
  · intro left right alike written
    obtain ⟨count, entries⟩ := sameProperties_iff.mp alike
    rw [count] at written
    exact Std.ExtTreeMap.toList_inj.mp
      (property.flatMap.injective _ _ entries (List.append_cancel_left written))

theorem aligned_relation {lead : WorldId → ByteString → List β} {write : PropertyBag → List β}
    (aligned : Aligned sameProperties write) :
    Aligned sameRelation fun relation =>
      lead relation.target relation.type ++ write relation.attributes := by
  constructor
  · intro left right alike
    obtain ⟨target, type, attributes⟩ := sameRelation_iff.mp alike
    rw [List.length_append, List.length_append, target, type, aligned.length _ _ attributes]
  · intro left right alike written
    obtain ⟨target, type, attributes⟩ := sameRelation_iff.mp alike
    rw [target, type] at written
    have bags := aligned.injective _ _ attributes (List.append_cancel_left written)
    obtain ⟨_, _, _⟩ := left
    obtain ⟨_, _, _⟩ := right
    simp only at target type bags
    rw [target, type, bags]

/-- An object, with whatever is written of its exact fields before, between and behind its
position and its bags. -/
theorem aligned_object {lead middle last : WorldObject → List β} {double : UInt64 → List β}
    {bag : PropertyBag → List β} {relation : Relation → List β}
    (agree : ∀ left right, SameObject left right →
      lead left = lead right ∧ middle left = middle right ∧ last left = last right)
    (doubles : Aligned Binary64.equal double) (bags : Aligned sameProperties bag)
    (relations : Aligned sameRelation relation) :
    Aligned sameObject fun object => lead object ++ (double object.position.x ++
      (double object.position.y ++ (double object.position.z ++ (middle object ++
      (bag object.properties ++ (bag object.state ++ (last object ++
      object.relations.flatMap relation))))))) := by
  constructor
  · intro left right alike
    have same := sameObject_spec alike
    obtain ⟨leads, middles, lasts⟩ := agree left right same
    simp only [List.length_append, leads, middles, lasts, doubles.length _ _ same.x,
      doubles.length _ _ same.y, doubles.length _ _ same.z, bags.length _ _ same.properties,
      bags.length _ _ same.state, relations.flatMap.length _ _ same.relations]
  · intro left right alike written
    have same := sameObject_spec alike
    obtain ⟨leads, middles, lasts⟩ := agree left right same
    rw [leads, middles, lasts] at written
    obtain ⟨x, written⟩ := doubles.split same.x (List.append_cancel_left written)
    obtain ⟨y, written⟩ := doubles.split same.y written
    obtain ⟨z, written⟩ := doubles.split same.z written
    obtain ⟨properties, written⟩ := bags.split same.properties (List.append_cancel_left written)
    obtain ⟨state, written⟩ := bags.split same.state written
    have related := relations.flatMap.injective _ _ same.relations
      (List.append_cancel_left written)
    obtain ⟨id, geometryRef, ⟨_, _, _⟩, _, _, _, _, _, _, _, _⟩ := left
    obtain ⟨_, _, ⟨_, _, _⟩, _, _, _, _, _, _, _, _⟩ := right
    obtain ⟨rfl, rfl, -, -, -, rfl, -, -, -, rfl, rfl, rfl, rfl, -⟩ := same
    simp only at x y z properties state related
    rw [x, y, z, properties, state, related]

theorem aligned_object_bytes : Aligned sameObject objectBytes := by
  have bags : Aligned sameProperties propertiesBytes :=
    aligned_properties aligned_value_bytes
  have relations : Aligned sameRelation relationBytes := by
    have parts := @aligned_relation _
      (fun target type => HashBuilder.word target ++ HashBuilder.text type) _ bags
    simp only [List.append_assoc] at parts
    exact parts
  have parts := @aligned_object _
    (fun object => HashBuilder.word object.id ++ HashBuilder.text object.geometryRef)
    (fun object => HashBuilder.text object.semanticType)
    (fun object => HashBuilder.word object.lifecycle.code.toUInt64 ++
      (HashBuilder.word object.version ++ (HashBuilder.size object.capabilities.length ++
      (object.capabilities.flatMap HashBuilder.text ++
      HashBuilder.size object.relations.length))))
    _ _ _
    (fun left right same => by
      simp only [same.id, same.geometryRef, same.semanticType, same.lifecycle, same.version,
        same.capabilities, same.relationCount, and_self])
    aligned_double_bytes bags relations
  simp only [List.append_assoc] at parts
  exact parts

theorem aligned_object_doubles : Aligned sameObject objectDoubles := by
  have bags : Aligned sameProperties propertyDoubles :=
    @aligned_properties _ (fun _ => []) (fun _ => []) _ aligned_value_doubles
  have doubles : Aligned Binary64.equal fun bits => [bits] :=
    ⟨fun _ _ _ => rfl, fun _ _ _ written => List.head_eq_of_cons_eq written⟩
  exact @aligned_object _ (fun _ => []) (fun _ => []) (fun _ => []) _ _ _
    (fun _ _ _ => ⟨rfl, rfl, rfl⟩) doubles bags (@aligned_relation _ (fun _ _ => []) _ bags)

end Writing

section Zeros

abbrev DoublesEqual : List UInt64 → List UInt64 → Prop :=
  List.Forall₂ fun left right => Binary64.equal left right = true

theorem forall₂_of_isEqv {α : Type} {same : α → α → Bool} {left right : List α}
    (alike : left.isEqv right same = true) :
    List.Forall₂ (fun one other => same one other = true) left right := by
  induction left generalizing right with
  | nil =>
    cases right with
    | nil => exact .nil
    | cons other right => cases alike
  | cons one left ih =>
    cases right with
    | nil => cases alike
    | cons other right =>
      rw [List.isEqv_cons_cons, Bool.and_eq_true] at alike
      exact .cons alike.1 (ih alike.2)

theorem valueDoubles_equal {left right : Value} (alike : sameValue left right = true) :
    DoublesEqual (valueDoubles left) (valueDoubles right) := by
  cases left <;> cases right <;> simp_all [sameValue, valueDoubles]

theorem propertyDoubles_equal {left right : PropertyBag}
    (alike : sameProperties left right = true) :
    DoublesEqual (propertyDoubles left) (propertyDoubles right) :=
  List.rel_flatMap (forall₂_of_isEqv (sameProperties_iff.mp alike).2) fun _ _ both =>
    valueDoubles_equal (sameProperty_iff.mp both).2

theorem objectDoubles_equal {left right : WorldObject} (alike : sameObject left right = true) :
    DoublesEqual (objectDoubles left) (objectDoubles right) := by
  have same := sameObject_spec alike
  refine .cons same.x (.cons same.y (.cons same.z ?_))
  refine List.rel_append (propertyDoubles_equal same.properties)
    (List.rel_append (propertyDoubles_equal same.state) ?_)
  exact List.rel_flatMap (forall₂_of_isEqv same.relations) fun _ _ both =>
    propertyDoubles_equal (sameRelation_iff.mp both).2.2

/-- No zero stands against the zero of the other sign. -/
def ZerosKept (left right : List UInt64) : Prop :=
  ∀ pair ∈ left.zip right, ¬ ZeroFlipped pair.1 pair.2

/-- Doubles that compare equal differ in the signs of zeros only. -/
theorem zerosKept_iff {left right : List UInt64} (equal : DoublesEqual left right) :
    ZerosKept left right ↔ left = right := by
  induction equal with
  | nil => simp [ZerosKept]
  | @cons one other left right both rest ih =>
    unfold ZerosKept at ih ⊢
    rw [List.zip_cons_cons, List.forall_mem_cons, ih, List.cons.injEq]
    refine and_congr_left' ⟨fun kept => ?_, ?_⟩
    · obtain same | flipped := Binary64.equal_cases both
      · exact same
      · exact absurd flipped kept
    · rintro rfl (⟨zero, negative⟩ | ⟨negative, zero⟩)
      · exact absurd (zero.symm.trans negative) (by decide)
      · exact absurd (zero.symm.trans negative) (by decide)

end Zeros

section Comparison

variable {left right : List WorldObject}

def keyed (objects : List WorldObject) : List (WorldId × WorldObject) :=
  objects.map fun object => (object.id, object)

/-- The kind of a difference by the sides an object stands on. -/
def kindOf (difference : Difference WorldId WorldObject) : ObjectDifference :=
  ⟨difference.key, match difference.left, difference.right with
    | some _, none => .removed
    | none, _ => .added
    | some _, some _ => .changed⟩

@[simp] theorem keyed_nil : keyed [] = [] :=
  rfl

@[simp] theorem keyed_cons (object : WorldObject) (objects : List WorldObject) :
    keyed (object :: objects) = (object.id, object) :: keyed objects :=
  rfl

theorem compareObjects_removed (left : List WorldObject) :
    compareObjects left [] = left.map fun object => ⟨object.id, .removed⟩ := by
  induction left with
  | nil => rw [compareObjects, List.map_nil]
  | cons object left ih => rw [compareObjects, ih, List.map_cons]

theorem compareObjects_added (right : List WorldObject) :
    compareObjects [] right = right.map fun object => ⟨object.id, .added⟩ := by
  induction right with
  | nil => rw [compareObjects, List.map_nil]
  | cons object right ih => rw [compareObjects, ih, List.map_cons]

theorem compareObjects_eq (left right : List WorldObject) :
    compareObjects left right =
      (differences (fun one other => !sameObject one other) (keyed left) (keyed right)).map
        kindOf := by
  fun_induction compareObjects left right with
  | case1 => simp [differences]
  | case2 a left _ =>
    rw [compareObjects_removed]
    simp [differences, kindOf, keyed]
  | case3 b right _ =>
    rw [compareObjects_added]
    simp [differences, kindOf, keyed]
  | case4 a left b right before ih =>
    rw [ih, keyed_cons, keyed_cons, differences, if_pos before]
    rfl
  | case5 a left b right before after ih =>
    rw [ih, keyed_cons, keyed_cons, differences, if_neg before, if_pos after]
    rfl
  | case6 a left b right before after same ih =>
    rw [ih, keyed_cons, keyed_cons, differences, if_neg before, if_neg after, same]
    rfl
  | case7 a left b right before after differ ih =>
    rw [Bool.not_eq_true] at differ
    rw [ih, keyed_cons, keyed_cons, differences, if_neg before, if_neg after, differ]
    rfl

/-- The loop lists nothing when the objects count as equal one by one. -/
theorem compareObjects_eq_nil (left right : List WorldObject) :
    compareObjects left right = [] ↔ left.isEqv right sameObject = true := by
  have apart {a b : WorldObject} (order : a.id < b.id ∨ b.id < a.id) : sameObject a b = false := by
    rw [Bool.eq_false_iff]
    intro alike
    have same := (sameObject_spec alike).id
    rcases order with before | after
    · exact UInt64.lt_irrefl _ (same ▸ before)
    · exact UInt64.lt_irrefl _ (same ▸ after)
  fun_induction compareObjects left right with
  | case1 => simp
  | case2 a left _ => simp
  | case3 b right _ => simp
  | case4 a left b right before _ => simp [List.isEqv_cons_cons, apart (.inl before)]
  | case5 a left b right before after _ => simp [List.isEqv_cons_cons, apart (.inr after)]
  | case6 a left b right before after same ih => simpa [List.isEqv_cons_cons, same] using ih
  | case7 a left b right before after differ _ => simp [List.isEqv_cons_cons, differ]

theorem entryAt_keyed (objects : List WorldObject) (id : WorldId) :
    (entryAt (keyed objects) id).isSome ↔ id ∈ objects.map fun object => object.id := by
  induction objects with
  | nil => simp [entryAt_nil]
  | cons object objects ih =>
    rw [keyed_cons, entryAt_cons, List.map_cons, List.mem_cons, ← ih]
    by_cases own : object.id = id
    · simp [own]
    · simp [own, Ne.symm own]

theorem keyed_ascending (ascending : left.Pairwise fun one other => one.id < other.id) :
    Library.Ascending (keyed left) :=
  List.pairwise_map.mpr ascending

theorem kindOf_removed (difference : Difference WorldId WorldObject) (id : WorldId) :
    kindOf difference = ⟨id, .removed⟩ ↔
      difference.key = id ∧ difference.left.isSome ∧ difference.right = none := by
  obtain ⟨key, before, after⟩ := difference
  cases before <;> cases after <;> simp [kindOf]

theorem kindOf_added (difference : Difference WorldId WorldObject) (id : WorldId) :
    kindOf difference = ⟨id, .added⟩ ↔ difference.key = id ∧ difference.left = none := by
  obtain ⟨key, before, after⟩ := difference
  cases before <;> cases after <;> simp [kindOf]

/-- What the comparison of two snapshots lists. -/
structure ListsDifferences (left right : WorldSnapshot) (listed : List ObjectDifference) :
    Prop where
  ascending : listed.Pairwise fun earlier later => earlier.id < later.id
  removed : ∀ id, ⟨id, .removed⟩ ∈ listed ↔
    id ∈ left.objects.map (fun object => object.id) ∧
      id ∉ right.objects.map fun object => object.id
  added : ∀ id, ⟨id, .added⟩ ∈ listed ↔
    id ∉ left.objects.map (fun object => object.id) ∧
      id ∈ right.objects.map fun object => object.id

theorem lists_differences {left right : WorldSnapshot}
    (one : left.objects.Pairwise fun earlier later => earlier.id < later.id)
    (two : right.objects.Pairwise fun earlier later => earlier.id < later.id) :
    ListsDifferences left right (compareWorldSnapshots left right) := by
  have first := keyed_ascending one
  have second := keyed_ascending two
  have listed := compareObjects_eq left.objects right.objects
  constructor
  · rw [compareWorldSnapshots, listed]
    exact List.pairwise_map.mpr (differences_ascending first second)
  · intro id
    rw [compareWorldSnapshots, listed, List.mem_map, ← entryAt_keyed, ← entryAt_keyed]
    simp only [kindOf_removed, mem_differences first second, Library.Listed]
    constructor
    · rintro ⟨difference, ⟨before, after, -⟩, rfl, there, missing⟩
      rw [← before, ← after, missing]
      exact ⟨there, by simp⟩
    · rintro ⟨there, missing⟩
      rw [Option.not_isSome_iff_eq_none] at missing
      refine ⟨⟨id, entryAt (keyed left.objects) id, none⟩, ⟨rfl, missing.symm, ?_⟩, rfl, there, rfl⟩
      obtain ⟨object, found⟩ := Option.isSome_iff_exists.mp there
      rw [found]
      rfl
  · intro id
    rw [compareWorldSnapshots, listed, List.mem_map, ← entryAt_keyed, ← entryAt_keyed]
    simp only [kindOf_added, mem_differences first second, Library.Listed]
    constructor
    · rintro ⟨difference, ⟨before, after, differs⟩, rfl, missing⟩
      rw [← before, ← after, missing]
      refine ⟨by simp, ?_⟩
      rw [missing] at differs
      cases held : difference.right with
      | none => rw [held] at differs; cases differs
      | some object => rfl
    · rintro ⟨missing, there⟩
      rw [Option.not_isSome_iff_eq_none] at missing
      refine ⟨⟨id, none, entryAt (keyed right.objects) id⟩, ⟨missing.symm, rfl, ?_⟩, rfl, rfl⟩
      obtain ⟨object, found⟩ := Option.isSome_iff_exists.mp there
      rw [found]
      rfl

/-- The two serialisations of a snapshot's objects. -/
structure WrittenAlike (left right : WorldSnapshot) : Prop where
  hashed : stateBytes left.objects = stateBytes right.objects
  encoded : left.objects.map writeObject = right.objects.map writeObject

/-- The comparison lists each differing id once and in order, and what it finds equal is
hashed and encoded alike, unless objects that count as equal hold zeros of different signs. -/
theorem snapshot_comparison_written_iff (left right : WorldSnapshot)
    (one : left.objects.Pairwise fun earlier later => earlier.id < later.id)
    (two : right.objects.Pairwise fun earlier later => earlier.id < later.id) :
    ListsDifferences left right (compareWorldSnapshots left right) ∧
      ((compareWorldSnapshots left right = [] → WrittenAlike left right) ↔
        (left.objects.isEqv right.objects sameObject = true →
          ZerosKept (left.objects.flatMap objectDoubles) (right.objects.flatMap objectDoubles))) := by
  refine ⟨lists_differences one two, ?_⟩
  rw [compareWorldSnapshots, compareObjects_eq_nil]
  refine imp_congr_right fun alike => ?_
  have doubles : DoublesEqual (left.objects.flatMap objectDoubles)
      (right.objects.flatMap objectDoubles) :=
    List.rel_flatMap (forall₂_of_isEqv alike) fun _ _ both => objectDoubles_equal both
  rw [zerosKept_iff doubles]
  constructor
  · intro written
    have counts := (forall₂_of_isEqv alike).length_eq
    have hashed := written.hashed
    rw [stateBytes, stateBytes, counts] at hashed
    rw [aligned_object_bytes.flatMap.injective _ _ alike (List.append_cancel_left hashed)]
  · intro same
    have objects := aligned_object_doubles.flatMap.injective _ _ alike same
    exact ⟨by rw [objects], by rw [objects]⟩

/-- Two snapshots of one object, at the two zeros. -/
def zeroSnapshot (zero : UInt64) : WorldSnapshot where
  objects := [{ id := 1, position := ⟨zero, 0, 0⟩, revision := 1 }]
  nextRevision := 1

theorem snapshot_comparison_written_moved :
    compareWorldSnapshots (zeroSnapshot 0) (zeroSnapshot 1) = [⟨1, .changed⟩] ∧
      ListsDifferences (zeroSnapshot 0) (zeroSnapshot 1)
        (compareWorldSnapshots (zeroSnapshot 0) (zeroSnapshot 1)) :=
  ⟨by decide +kernel,
    (snapshot_comparison_written_iff (zeroSnapshot 0) (zeroSnapshot 1) (by decide) (by decide)).1⟩

/-- Negative zero compares equal to zero and is hashed as another number. -/
theorem negative_zero_unseen :
    ¬ ∀ (left right : WorldSnapshot),
      (left.objects.Pairwise fun earlier later => earlier.id < later.id) →
      (right.objects.Pairwise fun earlier later => earlier.id < later.id) →
      compareWorldSnapshots left right = [] → WrittenAlike left right := by
  intro claim
  have written := claim (zeroSnapshot 0) (zeroSnapshot Binary64.negativeZero) (by decide)
    (by decide) (by decide +kernel)
  have hashed := written.hashed
  revert hashed
  decide +kernel

end Comparison

end GeoWorld.Persistence
