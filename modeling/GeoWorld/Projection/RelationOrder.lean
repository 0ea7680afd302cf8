import Mathlib
import GeoWorld.Library.SortedSelection
import GeoWorld.Projection.Entity

/-!
What a projection makes of the order of relations and capabilities. Capabilities are sorted
as a whole; relations are sorted by type and target, so two relations that differ in their
attributes alone stay in the order the object lists them in, and so does their hash.
-/

namespace GeoWorld.Projection

open WorldModel Library

namespace ProjectionPolicy

section RelationSort

theorem relationBefore_iff (left right : Relation) :
    relationBefore left right ↔
      left.type < right.type ∨ left.type = right.type ∧ left.target ≤ right.target := by
  unfold relationBefore
  by_cases same : left.type = right.type
  · simp [same, List.lt_irrefl]
  · rw [if_pos same]
    constructor
    · intro before
      refine .inl ?_
      by_contra late
      exact same (List.le_antisymm before (List.not_lt.mp late))
    · rintro (before | ⟨equal, _⟩)
      · exact List.not_lt.mp (List.lt_asymm before)
      · exact absurd equal same

instance : Std.Total relationBefore where
  total left right := by
    rw [relationBefore_iff, relationBefore_iff]
    by_cases before : left.type < right.type
    · exact .inl (.inl before)
    · by_cases after : right.type < left.type
      · exact .inr (.inl after)
      · have same := List.le_antisymm (List.not_lt.mp after) (List.not_lt.mp before)
        obtain target | target := UInt64.le_total left.target right.target
        · exact .inl (.inr ⟨same, target⟩)
        · exact .inr (.inr ⟨same.symm, target⟩)

instance : IsTrans Relation relationBefore where
  trans one two three first second := by
    rw [relationBefore_iff] at first second ⊢
    rcases first with first | ⟨first, targets⟩ <;> rcases second with second | ⟨second, others⟩
    · exact .inl (List.lt_trans first second)
    · exact .inl (second ▸ first)
    · exact .inl (first ▸ second)
    · exact .inr ⟨first.trans second, UInt64.le_trans targets others⟩

/-- The sort does not separate relations of one type and one target. -/
theorem relationBefore_tie {left right : Relation} :
    relationBefore left right ∧ relationBefore right left ↔
      left.type = right.type ∧ left.target = right.target := by
  rw [relationBefore_iff, relationBefore_iff]
  constructor
  · rintro ⟨before | ⟨same, target⟩, after | ⟨_, back⟩⟩
    · exact absurd after (List.lt_asymm before)
    · simp_all [List.lt_irrefl]
    · simp_all [List.lt_irrefl]
    · exact ⟨same, UInt64.le_antisymm target back⟩
  · rintro ⟨same, target⟩
    exact ⟨.inr ⟨same, target ▸ UInt64.le_refl _⟩, .inr ⟨same.symm, target ▸ UInt64.le_refl _⟩⟩

end RelationSort

/-- Objects that differ in the order of relations and capabilities alone. -/
structure SameButOrder (object other : WorldObject) : Prop where
  relations : other.relations.Perm object.relations
  capabilities : other.capabilities.Perm object.capabilities
  rest : other =
    { object with relations := other.relations, capabilities := other.capabilities }

/-- Two objects are projected alike, and hashed alike. -/
structure ProjectedAlike (policy : ProjectionPolicy) (object other : WorldObject) : Prop where
  project : policy.project other = policy.project object
  hash : projectedEntityHash (policy.project other) = projectedEntityHash (policy.project object)

/-- No two relations the policy lets through have one type and one target but different
attributes. -/
def RelationsApart (policy : ProjectionPolicy) (object : WorldObject) : Prop :=
  ∀ left ∈ object.relations, ∀ right ∈ object.relations,
    policy.allowedRelationTypes.contains left.type →
    left.type = right.type → left.target = right.target → left.attributes = right.attributes

/-- The resolvers, which are given the whole object, do not look at the order. -/
def ResolversIgnoreOrder (policy : ProjectionPolicy) (object : WorldObject) : Prop :=
  ∀ other, SameButOrder object other →
    (∀ resolver, policy.frequencyResolver = some resolver → resolver other = resolver object) ∧
      ∀ resolver, policy.priorityResolver = some resolver → resolver other = resolver object

variable {policy : ProjectionPolicy} {object other : WorldObject}

def allowedRelations (policy : ProjectionPolicy) (relations : List Relation) : List Relation :=
  relations.filter fun relation => policy.allowedRelationTypes.contains relation.type

theorem relationsApart_iff : policy.RelationsApart object ↔
    ∀ left ∈ policy.allowedRelations object.relations,
      ∀ right ∈ policy.allowedRelations object.relations,
        relationBefore left right → relationBefore right left → left = right := by
  simp only [allowedRelations, List.mem_filter]
  constructor
  · rintro apart left ⟨member, allowed⟩ right ⟨member', _⟩ before after
    obtain ⟨type, target⟩ := relationBefore_tie.mp ⟨before, after⟩
    have attributes := apart left member right member' allowed type target
    cases left
    cases right
    simp_all
  · intro apart left member right member' allowed type target
    obtain ⟨before, after⟩ := relationBefore_tie.mpr ⟨type, target⟩
    rw [apart left ⟨member, allowed⟩ right ⟨member', type ▸ allowed⟩ before after]

theorem capabilities_eq (perm : other.capabilities.Perm object.capabilities) :
    (policy.project other).capabilities = (policy.project object).capabilities := by
  change (List.insertionSort _ _).dedup = (List.insertionSort _ _).dedup
  rw [insertionSort_congr (perm.filter _) fun _ _ _ _ => List.le_antisymm]

theorem metadata_iff : (policy.project other).metadata = (policy.project object).metadata ↔
    (∀ resolver, policy.frequencyResolver = some resolver → resolver other = resolver object) ∧
      ∀ resolver, policy.priorityResolver = some resolver → resolver other = resolver object := by
  simp only [project, ProjectionMetadata.mk.injEq, and_true]
  refine and_congr ?_ ?_
  · cases policy.frequencyResolver <;> simp
  · cases policy.priorityResolver <;> simp

theorem project_eq (apart : policy.RelationsApart object)
    (resolvers : policy.ResolversIgnoreOrder object) (same : SameButOrder object other) :
    policy.project other = policy.project object := by
  have relations : (policy.project other).relations = (policy.project object).relations :=
    insertionSort_perm_iff.mpr (relationsApart_iff.mp apart) _ (same.relations.filter _)
  have capabilities := @capabilities_eq policy _ _ same.capabilities
  have metadata := metadata_iff.mpr (resolvers other same)
  obtain ⟨-, -, rest⟩ := same
  have fields : policy.project other = { policy.project object with
      relations := (policy.project other).relations
      capabilities := (policy.project other).capabilities
      metadata := (policy.project other).metadata } := by
    rw [rest]
    rfl
  rw [fields, relations, capabilities, metadata]

/-- Any order of the allowed relations is the order of some object's relations. -/
theorem exists_order {relations : List Relation}
    (perm : relations.Perm (policy.allowedRelations object.relations)) :
    ∃ other, SameButOrder object other ∧ policy.allowedRelations other.relations = relations := by
  let hidden := object.relations.filter fun relation =>
    !policy.allowedRelationTypes.contains relation.type
  refine ⟨{ object with relations := relations ++ hidden }, ⟨?_, List.Perm.refl _, rfl⟩, ?_⟩
  · exact (perm.append_right hidden).trans (List.filter_append_perm _ object.relations)
  · have kept : policy.allowedRelations relations = relations :=
      List.filter_eq_self.mpr fun relation member =>
        (List.mem_filter.mp (perm.subset member)).2
    have gone : policy.allowedRelations hidden = [] := by
      refine List.filter_eq_nil_iff.mpr fun relation member => ?_
      have refused := (List.mem_filter.mp member).2
      rw [Bool.not_eq_true'] at refused
      rw [refused]
      exact Bool.false_ne_true
    change policy.allowedRelations (relations ++ hidden) = relations
    rw [allowedRelations, List.filter_append]
    change policy.allowedRelations relations ++ policy.allowedRelations hidden = relations
    rw [kept, gone, List.append_nil]

/-- The order of relations and capabilities does not matter to a projection and its hash
just when the sort separates the relations and the resolvers do not look at it. -/
theorem order_ignored_iff (policy : ProjectionPolicy) (object : WorldObject) :
    (∀ other, SameButOrder object other → policy.ProjectedAlike object other) ↔
      policy.RelationsApart object ∧ policy.ResolversIgnoreOrder object := by
  constructor
  · intro alike
    refine ⟨relationsApart_iff.mpr (insertionSort_perm_iff.mp fun relations perm => ?_),
      fun other same =>
        metadata_iff.mp (congrArg ProjectedEntity.metadata (alike other same).project)⟩
    obtain ⟨other, same, rfl⟩ := exists_order perm
    exact congrArg ProjectedEntity.relations (alike other same).project
  · rintro ⟨apart, resolvers⟩ other same
    have projected := project_eq apart resolvers same
    exact ⟨projected, congrArg projectedEntityHash projected⟩

/-- Two relations of one type to one target, with different attributes. -/
def tiedRelations : List Relation :=
  [⟨5, [1], ∅⟩, ⟨5, [1], (∅ : PropertyBag).insert [2] (.boolean true)⟩]

def tiedObject (relations : List Relation) : WorldObject := { id := 1, relations := relations }

def tiedPolicy : ProjectionPolicy := allowRelationType {} [1]

theorem tied_relations_keep_order : ¬ ∀ (policy : ProjectionPolicy) (object other : WorldObject),
    SameButOrder object other → policy.ProjectedAlike object other := by
  intro alike
  have same : SameButOrder (tiedObject tiedRelations) (tiedObject tiedRelations.reverse) :=
    ⟨List.reverse_perm _, List.Perm.refl _, rfl⟩
  exact absurd (alike tiedPolicy _ _ same).project (by decide +kernel)

end ProjectionPolicy

end GeoWorld.Projection
