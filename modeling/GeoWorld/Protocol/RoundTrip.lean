import Mathlib
import GeoWorld.Library.TreeMap
import GeoWorld.Protocol.ServerEncoder
import GeoWorld.Protocol.ServerDecoder

/-!
What the decoder makes of the encoder's tables: the frame that was sent, but
for the doubles that a table does not keep and the payloads its kind leaves out.
With it go the number of tables and the nesting that the verifier counts.
-/

namespace GeoWorld.Protocol

open WorldModel Library

def storedValue : WireValue → WireValue
  | .real bits => .real (readBack bits)
  | value => value

def storedBag (bag : WireAttributes) : WireAttributes :=
  bag.map fun _ value => storedValue value

def WireEntity.stored (entity : WireEntity) : WireEntity :=
  { entity with
    position := ⟨readBack entity.position.x, readBack entity.position.y,
      readBack entity.position.z⟩
    properties := storedBag entity.properties
    state := storedBag entity.state }

def WireEnter.stored (enter : WireEnter) : WireEnter :=
  { enter with entity := enter.entity.stored }

def WireUpdate.stored (update : WireUpdate) : WireUpdate :=
  { update with entity := update.entity.stored }

def WireReliable.stored (reliable : WireReliable) : WireReliable where
  kind := reliable.kind
  receipt := if reliable.kind = .commandReceipt then reliable.receipt else {}
  error := if reliable.kind = .protocolError then reliable.error else {}

def WireFrame.stored : WireFrame → WireFrame
  | keyframe frame => .keyframe { frame with entities := frame.entities.map WireEnter.stored }
  | delta frame =>
    .delta { frame with
      enters := frame.enters.map WireEnter.stored
      updates := frame.updates.map WireUpdate.stored }
  | reliable frame => .reliable frame.stored
  | heartbeat frame => .heartbeat frame

section Lists

variable {α β γ δ : Type}

theorem mapM_ok (decode : β → Except δ γ) (read : α → γ) {items : List α}
    {built : List β}
    (each : List.Forall₂ (fun item made => decode made = .ok (read item)) items built) :
    built.mapM decode = .ok (items.map read) := by
  induction each with
  | nil => rfl
  | cons head _ ih =>
    rw [List.mapM_cons, head, ih]
    rfl

theorem map_eq_of_forall₂ (measure : α → γ) (measured : β → γ) {items : List α}
    {built : List β}
    (each : List.Forall₂ (fun item made => measured made = measure item) items built) :
    built.map measured = items.map measure := by
  induction each with
  | nil => rfl
  | cons head _ ih => rw [List.map_cons, List.map_cons, head, ih]

end Lists

section Rebuild

variable {α β : Type} {cmp : α → α → Ordering} [Std.TransCmp cmp] [Std.LawfulEqCmp cmp]

theorem lookup_foldl_insertIfNew (entries : List (α × β))
    (distinct : entries.Pairwise fun a b => a.1 ≠ b.1) (start : Std.ExtTreeMap α β cmp)
    (fresh : ∀ entry ∈ entries, start[entry.1]? = none) (key : α) (value : β) :
    (entries.foldl (fun out entry => out.insertIfNew entry.1 entry.2) start)[key]? =
        some value ↔
      start[key]? = some value ∨ (key, value) ∈ entries := by
  classical
  induction entries generalizing start with
  | nil => simp
  | cons entry entries ih =>
    have apart := List.pairwise_cons.mp distinct
    have absent := fresh entry List.mem_cons_self
    have later : ∀ other ∈ entries, (start.insertIfNew entry.1 entry.2)[other.1]? = none := by
      intro other member
      rw [lookup_insertIfNew start absent, if_neg (Ne.symm (apart.1 other member))]
      exact fresh other (List.mem_cons_of_mem _ member)
    rw [List.foldl_cons, ih apart.2 _ later, lookup_insertIfNew start absent,
      List.mem_cons, Prod.ext_iff]
    by_cases same : key = entry.1
    · subst same
      simp [absent, eq_comm]
    · simp [same]

/-- Emplacing the entries of a map one by one builds the map again. -/
theorem emplaceAll_toList (bag : WireAttributes) : emplaceAll bag.toList = bag := by
  have distinct : bag.toList.Pairwise fun a b => a.1 ≠ b.1 :=
    bag.distinct_keys_toList.imp fun apart same => apart (by simp [same])
  apply Std.ExtTreeMap.ext_getElem?
  intro key
  ext value
  rw [emplaceAll, lookup_foldl_insertIfNew _ distinct ∅ (by simp)]
  simp [Std.ExtTreeMap.mem_toList_iff_getElem?_eq_some]

end Rebuild

/-- The largest of a list of depths. -/
def deepest (depths : List Nat) : Nat := depths.foldr max 0

namespace Tables

/-! Tables and nesting levels, as the verifier meets them. -/

def PropertyValue.tables : PropertyValue → Nat
  | none => 0
  | _ => 1

def PropertyEntry.tables (entry : PropertyEntry) : Nat := 1 + entry.value.tables

def ProjectedEntity.tables (entity : ProjectedEntity) : Nat :=
  1 + entity.position.elim 0 (fun _ => 1)
    + ((entity.properties.getD []).map PropertyEntry.tables).sum
    + ((entity.state.getD []).map PropertyEntry.tables).sum
    + (entity.relations.getD []).length

def ProjectedEntity.depth (entity : ProjectedEntity) : Nat :=
  1 + deepest
    [entity.position.elim 0 (fun _ => 1),
      deepest ((entity.properties.getD []).map PropertyEntry.tables),
      deepest ((entity.state.getD []).map PropertyEntry.tables),
      deepest ((entity.relations.getD []).map fun _ => 1)]

def EntityEnter.tables (enter : EntityEnter) : Nat :=
  1 + enter.entity.elim 0 ProjectedEntity.tables

def EntityEnter.depth (enter : EntityEnter) : Nat :=
  1 + enter.entity.elim 0 ProjectedEntity.depth

def EntityUpdate.tables (update : EntityUpdate) : Nat :=
  1 + update.entity.elim 0 ProjectedEntity.tables

def EntityUpdate.depth (update : EntityUpdate) : Nat :=
  1 + update.entity.elim 0 ProjectedEntity.depth

def ServerFrame.tables : ServerFrame → Nat
  | none => 0
  | keyframe frame => 1 + ((frame.entities.getD []).map EntityEnter.tables).sum
  | delta frame =>
    1 + ((frame.enters.getD []).map EntityEnter.tables).sum
      + ((frame.updates.getD []).map EntityUpdate.tables).sum
      + (frame.leaves.getD []).length
  | reliable frame => 1 + frame.receipt.elim 0 (fun _ => 1) + frame.error.elim 0 (fun _ => 1)
  | heartbeat _ => 1

def ServerFrame.depth : ServerFrame → Nat
  | none => 0
  | keyframe frame => 1 + deepest ((frame.entities.getD []).map EntityEnter.depth)
  | delta frame =>
    1 + deepest
      [deepest ((frame.enters.getD []).map EntityEnter.depth),
        deepest ((frame.updates.getD []).map EntityUpdate.depth),
        deepest ((frame.leaves.getD []).map fun _ => 1)]
  | reliable frame =>
    1 + deepest [frame.receipt.elim 0 (fun _ => 1), frame.error.elim 0 (fun _ => 1)]
  | heartbeat _ => 1

def WorldStreamFrame.tables (root : WorldStreamFrame) : Nat := 1 + root.frame.tables

def WorldStreamFrame.depth (root : WorldStreamFrame) : Nat := 1 + root.frame.depth

end Tables

/-! The same counts, read off the frame. -/

def WireEntity.tables (entity : WireEntity) : Nat :=
  2 + 2 * entity.properties.size + 2 * entity.state.size + entity.relations.length

/-- A property nests two tables, a position or a relation one. -/
def WireEntity.nesting (entity : WireEntity) : Nat :=
  1 + deepest
    [1, deepest (entity.properties.toList.map fun _ => 2),
      deepest (entity.state.toList.map fun _ => 2),
      deepest (entity.relations.map fun _ => 1)]

def WireFrame.tables : WireFrame → Nat
  | keyframe frame => 2 + (frame.entities.map fun enter => 1 + enter.entity.tables).sum
  | delta frame =>
    2 + (frame.enters.map fun enter => 1 + enter.entity.tables).sum
      + (frame.updates.map fun update => 1 + update.entity.tables).sum
      + frame.leaves.length
  | reliable frame =>
    2 + (if frame.kind = .commandReceipt ∨ frame.kind = .protocolError then 1 else 0)
  | heartbeat _ => 2

def WireFrame.nesting : WireFrame → Nat
  | keyframe frame => 2 + deepest (frame.entities.map fun enter => 1 + enter.entity.nesting)
  | delta frame =>
    2 + deepest
      [deepest (frame.enters.map fun enter => 1 + enter.entity.nesting),
        deepest (frame.updates.map fun update => 1 + update.entity.nesting),
        deepest (frame.leaves.map fun _ => 1)]
  | reliable frame =>
    2 + (if frame.kind = .commandReceipt ∨ frame.kind = .protocolError then 1 else 0)
  | heartbeat _ => 2

theorem encodeString_returns (limits : ProtocolLimits) (text : ByteString) :
    Returns (encodeString limits text) fun handle =>
      textWithinLimits text limits ∧ handle.target = text :=
  Returns.bind Returns.require fun _ fits =>
    Returns.issue.mono fun _ same => ⟨fits, same⟩

/-- The decoder reads a property back as it was stored. -/
structure BuiltProperty (limits : ProtocolLimits) (entry : ByteString × WireValue)
    (table : Tables.PropertyEntry) : Prop where
  decoded : decodeProperty limits table = .ok (entry.1, storedValue entry.2)
  tables : table.tables = 2

theorem encodeValue_returns (limits : ProtocolLimits) (value : WireValue) :
    Returns (encodeValue limits value) fun handle =>
      decodeValue handle.target limits = .ok (storedValue value) ∧
        handle.target.tables = 1 := by
  cases value with
  | integer value =>
    refine Returns.issue.mono fun handle same => ?_
    rw [same]
    exact ⟨rfl, rfl⟩
  | real bits =>
    refine Returns.issue.mono fun handle same => ?_
    rw [same]
    exact ⟨rfl, rfl⟩
  | boolean value =>
    refine Returns.issue.mono fun handle same => ?_
    rw [same]
    exact ⟨rfl, rfl⟩
  | text text =>
    refine Returns.bind Returns.require fun _ fits => ?_
    refine Returns.bind Returns.issue fun shared sharedIs => ?_
    refine Returns.issue.mono fun handle same => ?_
    rw [same, sharedIs]
    refine ⟨?_, rfl⟩
    change (within (textWithinLimits text limits) _ >>= fun _ => _) = _
    rw [within, if_pos fits]
    rfl

theorem encodeProperty_returns (limits : ProtocolLimits) (entry : ByteString × WireValue) :
    Returns (encodeProperty limits entry) fun handle =>
      BuiltProperty limits entry handle.target := by
  refine Returns.bind Returns.require fun _ fits => ?_
  refine Returns.bind (encodeValue_returns limits entry.2) fun payload read => ?_
  refine Returns.bind Returns.issue fun key keyIs => ?_
  refine Returns.issue.mono fun handle same => ?_
  rw [same, keyIs]
  refine ⟨?_, ?_⟩
  · change (within (textWithinLimits entry.1 limits) _ >>= fun _ => _) = _
    rw [within, if_pos fits]
    change (decodeValue payload.target limits >>= fun value => _) = _
    rw [read.1]
    rfl
  · simp only [Tables.PropertyEntry.tables, read.2]

structure BuiltBag (limits : ProtocolLimits) (bag : WireAttributes)
    (entries : List Tables.PropertyEntry) : Prop where
  decoded : decodeBag (some entries) limits = .ok (storedBag bag)
  tables : entries.map Tables.PropertyEntry.tables = bag.toList.map fun _ => 2

theorem encodeBag_returns (bag : WireAttributes) (limits : ProtocolLimits) :
    Returns (encodeBag bag limits) fun handles =>
      BuiltBag limits bag (handles.map Handle.target) := by
  refine Returns.bind Returns.require fun _ fits => ?_
  refine (Returns.mapM (encodeProperty_returns limits) bag.toList).mono
    fun handles built => ?_
  have each : List.Forall₂ (BuiltProperty limits) bag.toList (handles.map Handle.target) :=
    List.forall₂_map_right_iff.mpr built
  have count : (handles.map Handle.target).length ≤ limits.maxPropertiesPerEntity := by
    rw [← each.length_eq, Std.ExtTreeMap.length_toList]
    exact fits
  have read := mapM_ok (decodeProperty limits)
    (fun entry : ByteString × WireValue => (entry.1, storedValue entry.2))
    (each.imp fun _ _ built => built.decoded)
  refine ⟨?_, map_eq_of_forall₂ _ _ (each.imp fun _ _ built => built.tables)⟩
  change (within _ _ >>= fun _ => _) = _
  rw [within, if_pos count]
  change (List.mapM (decodeProperty limits) (handles.map Handle.target) >>= fun made =>
    pure (emplaceAll made)) = _
  rw [read]
  change Except.ok (emplaceAll _) = _
  rw [storedBag, ← emplaceAll_toList (bag.map fun _ value => storedValue value),
    Std.ExtTreeMap.toList_map]

theorem encodeStrings_returns (source : List ByteString) (limits : ProtocolLimits)
    (message : String) :
    Returns (encodeStrings source limits) fun handles =>
      decodeStrings (some (handles.map Handle.target)) limits message = .ok source := by
  refine (Returns.mapM (encodeString_returns limits) source).mono fun handles built => ?_
  have each : List.Forall₂ (fun text made => decodeString limits message made = .ok text)
      source (handles.map Handle.target) := by
    refine List.forall₂_map_right_iff.mpr (built.imp fun text handle same => ?_)
    rw [same.2]
    change (within (textWithinLimits text limits) message >>= fun _ => _) = _
    rw [within, if_pos same.1]
    rfl
  have read := mapM_ok (decodeString limits message) id each
  rw [List.map_id] at read
  exact read

theorem encodeRelations_returns (relations : List WireRelation) (limits : ProtocolLimits)
    (fits : relations.length ≤ limits.maxRelationsPerEntity) :
    Returns (relations.mapM (encodeRelation limits)) fun handles =>
      decodeRelations (some (handles.map Handle.target)) limits = .ok relations ∧
        (handles.map Handle.target).length = relations.length := by
  have one : ∀ relation, Returns (encodeRelation limits relation) fun handle =>
      decodeRelation limits handle.target = .ok relation := by
    intro relation
    refine Returns.bind Returns.require fun _ short => ?_
    refine Returns.bind Returns.issue fun type typeIs => ?_
    refine Returns.issue.mono fun handle same => ?_
    rw [same, typeIs]
    change (within (textWithinLimits relation.type limits) _ >>= fun _ => _) = _
    rw [within, if_pos short]
    rfl
  refine (Returns.mapM one relations).mono fun handles built => ?_
  have each : List.Forall₂ (fun relation made =>
      decodeRelation limits made = .ok (id relation)) relations
      (handles.map Handle.target) := List.forall₂_map_right_iff.mpr built
  have read := mapM_ok (decodeRelation limits) id each
  refine ⟨?_, each.length_eq.symm⟩
  change (within _ _ >>= fun _ => _) = _
  rw [within, if_pos (by rw [← each.length_eq]; exact fits)]
  rw [List.map_id] at read
  exact read

structure BuiltEntity (limits : ProtocolLimits) (entity : WireEntity)
    (table : Tables.ProjectedEntity) : Prop where
  decoded : decodeEntity (some table) limits = .ok entity.stored
  tables : table.tables = entity.tables
  depth : table.depth = entity.nesting

theorem sum_map_two {α : Type} (items : List α) :
    (items.map fun _ => 2).sum = 2 * items.length := by
  rw [List.map_const', List.sum_replicate, smul_eq_mul, Nat.mul_comm]

theorem encodeEntity_returns (limits : ProtocolLimits) (entity : WireEntity) :
    Returns (encodeEntity limits entity) fun handle =>
      BuiltEntity limits entity handle.target := by
  refine Returns.bind Returns.require fun _ fits => ?_
  refine Returns.bind (encodeBag_returns entity.properties limits)
    fun properties propertiesAre => ?_
  refine Returns.bind (encodeBag_returns entity.state limits) fun state stateIs => ?_
  refine Returns.bind (encodeRelations_returns entity.relations limits fits.2.2)
    fun relations relationsAre => ?_
  refine Returns.bind (encodeStrings_returns entity.capabilities limits
    "capability 超过长度上限") fun capabilities capabilitiesAre => ?_
  refine Returns.bind (encodeStrings_returns entity.visibilityTags limits
    "visibility tag 超过长度上限") fun tags tagsAre => ?_
  refine Returns.bind Returns.issue fun position positionIs => ?_
  refine Returns.bind Returns.issue fun semanticType semanticTypeIs => ?_
  refine Returns.bind Returns.issue fun geometryRef geometryRefIs => ?_
  refine Returns.bind Returns.issue fun propertiesVector propertiesVectorIs => ?_
  refine Returns.bind Returns.issue fun stateVector stateVectorIs => ?_
  refine Returns.bind Returns.issue fun relationsVector relationsVectorIs => ?_
  refine Returns.bind Returns.issue fun capabilitiesVector capabilitiesVectorIs => ?_
  refine Returns.bind Returns.issue fun tagsVector tagsVectorIs => ?_
  refine Returns.issue.mono fun handle same => ?_
  rw [same, positionIs, semanticTypeIs, geometryRefIs, propertiesVectorIs, stateVectorIs,
    relationsVectorIs, capabilitiesVectorIs, tagsVectorIs]
  refine ⟨?_, ?_, ?_⟩
  · change (within (textWithinLimits entity.semanticType limits ∧
      textWithinLimits entity.geometryRef limits) _ >>= fun _ => _) = _
    rw [within, if_pos ⟨fits.1, fits.2.1⟩]
    simp only [present, Lifecycle.ofCode_code, FrequencyClass.ofCode_code,
      propertiesAre.decoded, stateIs.decoded, relationsAre.1, capabilitiesAre, tagsAre]
    rfl
  · simp only [Tables.ProjectedEntity.tables, WireEntity.tables, Option.getD_some,
      Option.elim_some, propertiesAre.tables, stateIs.tables, relationsAre.2, sum_map_two,
      Std.ExtTreeMap.length_toList]
  · have single : ((relations.map Handle.target).map fun _ => 1) =
        entity.relations.map fun _ => 1 := by
      rw [List.map_const', List.map_const', relationsAre.2]
    simp only [Tables.ProjectedEntity.depth, WireEntity.nesting, Option.getD_some,
      Option.elim_some, propertiesAre.tables, stateIs.tables, single]

/-- An enter or an update: the entity with one table around it. -/
structure BuiltAround {ω τ : Type} (decode : τ → Decoding ω) (tables depth : τ → Nat)
    (stored : ω) (entity : WireEntity) (table : τ) : Prop where
  decoded : decode table = .ok stored
  tables : tables table = 1 + entity.tables
  depth : depth table = 1 + entity.nesting

abbrev BuiltEnter (limits : ProtocolLimits) (enter : WireEnter) :
    Tables.EntityEnter → Prop :=
  BuiltAround (decodeEnter limits) Tables.EntityEnter.tables Tables.EntityEnter.depth
    enter.stored enter.entity

abbrev BuiltUpdate (limits : ProtocolLimits) (update : WireUpdate) :
    Tables.EntityUpdate → Prop :=
  BuiltAround (decodeUpdate limits) Tables.EntityUpdate.tables Tables.EntityUpdate.depth
    update.stored update.entity

theorem encodeEnter_returns (limits : ProtocolLimits) (enter : WireEnter) :
    Returns (encodeEnter limits enter) fun handle =>
      BuiltEnter limits enter handle.target := by
  refine Returns.bind (encodeEntity_returns limits enter.entity) fun entity built => ?_
  refine Returns.issue.mono fun handle same => ?_
  rw [same]
  refine ⟨?_, ?_, ?_⟩
  · change (decodeEntity (some entity.target) limits >>= fun _ => _) = _
    rw [built.decoded]
    rfl
  · simp only [Tables.EntityEnter.tables, Option.elim_some, built.tables]
  · simp only [Tables.EntityEnter.depth, Option.elim_some, built.depth]

theorem encodeUpdate_returns (limits : ProtocolLimits) (update : WireUpdate) :
    Returns (encodeUpdate limits update) fun handle =>
      BuiltUpdate limits update handle.target := by
  refine Returns.bind (encodeEntity_returns limits update.entity) fun entity built => ?_
  refine Returns.issue.mono fun handle same => ?_
  rw [same]
  refine ⟨?_, ?_, ?_⟩
  · change (decodeEntity (some entity.target) limits >>= fun _ => _) = _
    rw [built.decoded]
    rfl
  · simp only [Tables.EntityUpdate.tables, Option.elim_some, built.tables]
  · simp only [Tables.EntityUpdate.depth, Option.elim_some, built.depth]

theorem encodeLeave_returns (leave : WireLeave) :
    Returns (encodeLeave leave) fun handle => decodeLeave handle.target = .ok leave := by
  refine Returns.issue.mono fun handle same => ?_
  rw [same, decodeLeave, LeaveReason.ofCode_code]
  rfl

/-- What a loop over enters or updates leaves, as the frame needs it. -/
structure BuiltList {ω τ : Type} (decode : τ → Decoding ω) (tables depth : τ → Nat)
    (stored : ω → ω) (entity : ω → WireEntity) (items : List ω) (made : List τ) :
    Prop where
  decoded : made.mapM decode = .ok (items.map stored)
  length : made.length = items.length
  tables : made.map tables = items.map fun item => 1 + (entity item).tables
  depth : made.map depth = items.map fun item => 1 + (entity item).nesting

theorem mapM_returns {ω τ : Type} {encode : ω → Building (Handle τ)}
    {decode : τ → Decoding ω} {tables depth : τ → Nat} {stored : ω → ω}
    {entity : ω → WireEntity}
    (one : ∀ item, Returns (encode item) fun handle =>
      BuiltAround decode tables depth (stored item) (entity item) handle.target)
    (items : List ω) :
    Returns (items.mapM encode) fun handles =>
      BuiltList decode tables depth stored entity items (handles.map Handle.target) := by
  refine (Returns.mapM one items).mono fun handles built => ?_
  have each : List.Forall₂ (fun item made =>
      BuiltAround decode tables depth (stored item) (entity item) made) items
      (handles.map Handle.target) := List.forall₂_map_right_iff.mpr built
  exact
    { decoded := mapM_ok decode stored (each.imp fun _ _ made => made.decoded)
      length := each.length_eq.symm
      tables := map_eq_of_forall₂ (fun item => 1 + (entity item).tables) tables
        (each.imp fun _ _ made => made.tables)
      depth := map_eq_of_forall₂ (fun item => 1 + (entity item).nesting) depth
        (each.imp fun _ _ made => made.depth) }

structure BuiltFrame (limits : ProtocolLimits) (frame : WireFrame)
    (root : Tables.WorldStreamFrame) : Prop where
  decoded : decodeRoot root limits = .ok frame.stored
  tables : root.tables = frame.tables
  depth : root.depth = frame.nesting

theorem encodeKeyframe_returns (keyframe : WireKeyframe) (limits : ProtocolLimits) :
    Returns (encodeKeyframe keyframe limits) fun handle =>
      BuiltFrame limits (.keyframe keyframe) handle.target := by
  refine Returns.bind Returns.require fun _ fits => ?_
  refine Returns.bind (mapM_returns (encodeEnter_returns limits) keyframe.entities)
    fun entities built => ?_
  refine Returns.bind Returns.issue fun vector vectorIs => ?_
  refine Returns.bind Returns.issue fun frame frameIs => ?_
  refine Returns.issue.mono fun handle same => ?_
  rw [same, frameIs, vectorIs]
  refine ⟨?_, ?_, ?_⟩
  · change decodeKeyframe ⟨keyframe.toWireHeader, some (entities.map Handle.target)⟩
      limits = _
    simp only [decodeKeyframe, Option.getD_some]
    rw [within, if_pos (by rw [built.length]; exact fits), built.decoded]
    rfl
  · simp only [Tables.WorldStreamFrame.tables, Tables.ServerFrame.tables,
      WireFrame.tables, Option.getD_some, built.tables]
    omega
  · simp only [Tables.WorldStreamFrame.depth, Tables.ServerFrame.depth,
      WireFrame.nesting, Option.getD_some, built.depth]
    omega

theorem encodeDelta_returns (delta : WireDelta) (limits : ProtocolLimits) :
    Returns (encodeDelta delta limits) fun handle =>
      BuiltFrame limits (.delta delta) handle.target := by
  refine Returns.bind Returns.require fun _ fits => ?_
  refine Returns.bind (mapM_returns (encodeEnter_returns limits) delta.enters)
    fun enters entersAre => ?_
  refine Returns.bind (mapM_returns (encodeUpdate_returns limits) delta.updates)
    fun updates updatesAre => ?_
  refine Returns.bind (Returns.mapM encodeLeave_returns delta.leaves)
    fun leaves built => ?_
  refine Returns.bind Returns.issue fun entersVector entersVectorIs => ?_
  refine Returns.bind Returns.issue fun updatesVector updatesVectorIs => ?_
  refine Returns.bind Returns.issue fun leavesVector leavesVectorIs => ?_
  refine Returns.bind Returns.issue fun frame frameIs => ?_
  refine Returns.issue.mono fun handle same => ?_
  rw [same, frameIs, entersVectorIs, updatesVectorIs, leavesVectorIs]
  have leavesAre : List.Forall₂ (fun leave made => decodeLeave made = .ok (id leave))
      delta.leaves (leaves.map Handle.target) := List.forall₂_map_right_iff.mpr built
  have leavesLength := leavesAre.length_eq.symm
  have leavesDecoded := mapM_ok decodeLeave id leavesAre
  rw [List.map_id] at leavesDecoded
  refine ⟨?_, ?_, ?_⟩
  · change decodeDelta ⟨delta.toWireHeader, some (enters.map Handle.target),
      some (updates.map Handle.target), some (leaves.map Handle.target)⟩ limits = _
    simp only [decodeDelta, Option.getD_some]
    rw [within, if_pos (by
      rw [entersAre.length, updatesAre.length, leavesLength]
      exact fits)]
    rw [entersAre.decoded, updatesAre.decoded, leavesDecoded]
    rfl
  · simp only [Tables.WorldStreamFrame.tables, Tables.ServerFrame.tables,
      WireFrame.tables, Option.getD_some, entersAre.tables, updatesAre.tables,
      leavesLength]
    omega
  · have single : ((leaves.map Handle.target).map fun _ => 1) =
        delta.leaves.map fun _ => 1 := by
      rw [List.map_const', List.map_const', leavesLength]
    simp only [Tables.WorldStreamFrame.depth, Tables.ServerFrame.depth,
      WireFrame.nesting, Option.getD_some, entersAre.depth, updatesAre.depth, single]
    omega

theorem encodeReceipt_returns (receipt : WireCommandReceipt) (limits : ProtocolLimits) :
    Returns (encodeReceipt receipt limits) fun handle =>
      decodeReceipt (some handle.target) = .ok receipt := by
  refine Returns.bind Returns.require fun _ _ => ?_
  refine Returns.bind Returns.issue fun errorCode errorCodeIs => ?_
  refine Returns.issue.mono fun handle same => ?_
  rw [same, errorCodeIs, decodeReceipt, ReceiptStatus.ofCode_code]
  rfl

theorem encodeError_returns (error : WireProtocolError) (limits : ProtocolLimits) :
    Returns (encodeError error limits) fun handle =>
      decodeError (some handle.target) = error := by
  refine Returns.bind Returns.require fun _ _ => ?_
  refine Returns.bind Returns.issue fun code codeIs => ?_
  refine Returns.bind Returns.issue fun message messageIs => ?_
  refine Returns.issue.mono fun handle same => ?_
  rw [same, codeIs, messageIs]
  rfl

/-- An optional payload: the handle is there just when the kind asks for it. -/
theorem payloadWhen_returns {α : Type} {program : Building (Handle α)}
    {post : Handle α → Prop} (condition : Prop) [Decidable condition]
    (returns : Returns program post) :
    Returns (payloadWhen condition program) fun made =>
      if condition then ∃ handle, made = some handle ∧ post handle else made = none := by
  unfold payloadWhen
  by_cases asked : condition
  · simp only [if_pos asked, map_eq_pure_bind]
    exact Returns.bind returns fun handle holds => Returns.pure ⟨handle, rfl, holds⟩
  · simp only [if_neg asked]
    exact Returns.pure rfl

theorem encodeReliable_returns (reliable : WireReliable) (limits : ProtocolLimits) :
    Returns (encodeReliable reliable limits) fun handle =>
      BuiltFrame limits (.reliable reliable) handle.target := by
  refine Returns.bind (payloadWhen_returns (reliable.kind = .commandReceipt)
    (encodeReceipt_returns reliable.receipt limits)) fun receipt receiptIs => ?_
  refine Returns.bind (payloadWhen_returns (reliable.kind = .protocolError)
    (encodeError_returns reliable.error limits)) fun error errorIs => ?_
  refine Returns.bind Returns.issue fun frame frameIs => ?_
  refine Returns.issue.mono fun handle same => ?_
  rw [same, frameIs]
  have kindRead : ReliableKind.ofCode reliable.kind.code = some reliable.kind :=
    ReliableKind.ofCode_code _
  by_cases isReceipt : reliable.kind = .commandReceipt
  · have notError : ¬ reliable.kind = .protocolError := by simp [isReceipt]
    rw [if_pos isReceipt] at receiptIs
    rw [if_neg notError] at errorIs
    obtain ⟨made, rfl, decoded⟩ := receiptIs
    subst errorIs
    refine ⟨?_, ?_, ?_⟩
    · change decodeReliable ⟨reliable.kind.code, some made.target, none⟩ = _
      simp only [decodeReliable, kindRead, present, decoded]
      simp [WireFrame.stored, WireReliable.stored, isReceipt, decodeError, bind,
        Except.bind, pure, Except.pure]
    · simp [Tables.WorldStreamFrame.tables, Tables.ServerFrame.tables, WireFrame.tables,
        isReceipt]
    · simp [Tables.WorldStreamFrame.depth, Tables.ServerFrame.depth, WireFrame.nesting,
        isReceipt, deepest]
  · rw [if_neg isReceipt] at receiptIs
    subst receiptIs
    by_cases isError : reliable.kind = .protocolError
    · rw [if_pos isError] at errorIs
      obtain ⟨made, rfl, decoded⟩ := errorIs
      refine ⟨?_, ?_, ?_⟩
      · change decodeReliable ⟨reliable.kind.code, none, some made.target⟩ = _
        simp only [decodeReliable, kindRead, present, decoded]
        simp [WireFrame.stored, WireReliable.stored, isError, decodeReceipt, bind,
          Except.bind, pure, Except.pure]
      · simp [Tables.WorldStreamFrame.tables, Tables.ServerFrame.tables,
          WireFrame.tables, isError]
      · simp [Tables.WorldStreamFrame.depth, Tables.ServerFrame.depth,
          WireFrame.nesting, isError, deepest]
    · rw [if_neg isError] at errorIs
      subst errorIs
      refine ⟨?_, ?_, ?_⟩
      · change decodeReliable ⟨reliable.kind.code, none, none⟩ = _
        simp only [decodeReliable, kindRead, present]
        simp [WireFrame.stored, WireReliable.stored, isReceipt, isError, decodeReceipt,
          decodeError, bind, Except.bind, pure, Except.pure]
      · simp [Tables.WorldStreamFrame.tables, Tables.ServerFrame.tables,
          WireFrame.tables, isReceipt, isError]
      · simp [Tables.WorldStreamFrame.depth, Tables.ServerFrame.depth,
          WireFrame.nesting, isReceipt, isError, deepest]

theorem encodeHeartbeat_returns (heartbeat : WireHeartbeat) (limits : ProtocolLimits) :
    Returns (encodeHeartbeat heartbeat) fun handle =>
      BuiltFrame limits (.heartbeat heartbeat) handle.target := by
  refine Returns.bind Returns.issue fun frame frameIs => ?_
  refine Returns.issue.mono fun handle same => ?_
  rw [same, frameIs]
  exact ⟨rfl, rfl, rfl⟩

/-- The tables of an accepted frame decode to the frame as stored. -/
theorem encodeServerFrameRoot_returns (frame : WireFrame) (limits : ProtocolLimits) :
    Returns (encodeServerFrameRoot frame limits) fun handle =>
      BuiltFrame limits frame handle.target := by
  cases frame with
  | keyframe keyframe => exact encodeKeyframe_returns keyframe limits
  | delta delta => exact encodeDelta_returns delta limits
  | reliable reliable => exact encodeReliable_returns reliable limits
  | heartbeat heartbeat => exact encodeHeartbeat_returns heartbeat limits

/-! The encoder's own bounds. -/

def valueWithin (limits : ProtocolLimits) : WireValue → Prop
  | .text text => textWithinLimits text limits
  | _ => True

def bagWithin (limits : ProtocolLimits) (bag : WireAttributes) : Prop :=
  bag.size ≤ limits.maxPropertiesPerEntity ∧
    ∀ entry ∈ bag.toList, textWithinLimits entry.1 limits ∧ valueWithin limits entry.2

structure WireEntity.Within (limits : ProtocolLimits) (entity : WireEntity) : Prop where
  semanticType : textWithinLimits entity.semanticType limits
  geometryRef : textWithinLimits entity.geometryRef limits
  relationCount : entity.relations.length ≤ limits.maxRelationsPerEntity
  properties : bagWithin limits entity.properties
  state : bagWithin limits entity.state
  relations : ∀ relation ∈ entity.relations, textWithinLimits relation.type limits
  capabilities : ∀ text ∈ entity.capabilities, textWithinLimits text limits
  visibilityTags : ∀ text ∈ entity.visibilityTags, textWithinLimits text limits

def WireFrame.Within (limits : ProtocolLimits) : WireFrame → Prop
  | keyframe frame =>
    frame.entities.length ≤ limits.maxEntitiesPerFrame ∧
      ∀ enter ∈ frame.entities, enter.entity.Within limits
  | delta frame =>
    frame.enters.length + frame.updates.length + frame.leaves.length ≤
        limits.maxEntitiesPerFrame ∧
      (∀ enter ∈ frame.enters, enter.entity.Within limits) ∧
      ∀ update ∈ frame.updates, update.entity.Within limits
  | reliable frame =>
    (frame.kind = .commandReceipt → textWithinLimits frame.receipt.errorCode limits) ∧
      (frame.kind = .protocolError →
        textWithinLimits frame.error.code limits ∧
          textWithinLimits frame.error.message limits)
  | heartbeat _ => True

theorem encodeValue_accepts {limits : ProtocolLimits} {value : WireValue}
    (fits : valueWithin limits value) : Accepts (encodeValue limits value) := by
  cases value with
  | text text =>
    exact Accepts.bind (Accepts.require fits) fun _ =>
      Accepts.bind Accepts.issue fun _ => Accepts.issue
  | _ => exact Accepts.issue

theorem encodeBag_accepts {limits : ProtocolLimits} {bag : WireAttributes}
    (fits : bagWithin limits bag) : Accepts (encodeBag bag limits) := by
  refine Accepts.bind (Accepts.require fits.1) fun _ => ?_
  refine Accepts.mapM bag.toList fun entry member => ?_
  have entryFits := fits.2 entry member
  refine Accepts.bind (Accepts.require entryFits.1) fun _ => ?_
  refine Accepts.bind (encodeValue_accepts entryFits.2) fun _ => ?_
  exact Accepts.bind Accepts.issue fun _ => Accepts.issue

theorem encodeStrings_accepts {limits : ProtocolLimits} {source : List ByteString}
    (fits : ∀ text ∈ source, textWithinLimits text limits) :
    Accepts (encodeStrings source limits) :=
  Accepts.mapM source fun text member =>
    Accepts.bind (Accepts.require (fits text member)) fun _ => Accepts.issue

theorem encodeEntity_accepts {limits : ProtocolLimits} {entity : WireEntity}
    (fits : entity.Within limits) : Accepts (encodeEntity limits entity) := by
  refine Accepts.bind (Accepts.require
    ⟨fits.semanticType, fits.geometryRef, fits.relationCount⟩) fun _ => ?_
  refine Accepts.bind (encodeBag_accepts fits.properties) fun _ => ?_
  refine Accepts.bind (encodeBag_accepts fits.state) fun _ => ?_
  refine Accepts.bind (Accepts.mapM entity.relations fun relation member =>
    Accepts.bind (Accepts.require (fits.relations relation member)) fun _ =>
      Accepts.bind Accepts.issue fun _ => Accepts.issue) fun _ => ?_
  refine Accepts.bind (encodeStrings_accepts fits.capabilities) fun _ => ?_
  refine Accepts.bind (encodeStrings_accepts fits.visibilityTags) fun _ => ?_
  refine Accepts.bind Accepts.issue fun _ => ?_
  refine Accepts.bind Accepts.issue fun _ => Accepts.bind Accepts.issue fun _ => ?_
  refine Accepts.bind Accepts.issue fun _ => Accepts.bind Accepts.issue fun _ => ?_
  refine Accepts.bind Accepts.issue fun _ => Accepts.bind Accepts.issue fun _ => ?_
  exact Accepts.bind Accepts.issue fun _ => Accepts.issue

theorem encodeEnters_accepts {limits : ProtocolLimits} {enters : List WireEnter}
    (fits : ∀ enter ∈ enters, enter.entity.Within limits) :
    Accepts (encodeEnters enters limits) :=
  Accepts.mapM enters fun enter member =>
    Accepts.bind (encodeEntity_accepts (fits enter member)) fun _ => Accepts.issue

theorem payloadWhen_accepts {α : Type} {selected : Prop} [Decidable selected]
    {program : Building (Handle α)} (accepts : selected → Accepts program) :
    Accepts (payloadWhen selected program) := by
  unfold payloadWhen
  by_cases asked : selected
  · simp only [if_pos asked, map_eq_pure_bind]
    exact Accepts.bind (accepts asked) fun _ => Accepts.pure
  · simp only [if_neg asked]
    exact Accepts.pure

/-- A frame within the encoder's bounds is never refused. -/
theorem encodeServerFrameRoot_accepts {limits : ProtocolLimits} {frame : WireFrame}
    (fits : frame.Within limits) : Accepts (encodeServerFrameRoot frame limits) := by
  cases frame with
  | keyframe frame =>
    refine Accepts.bind (Accepts.require fits.1) fun _ => ?_
    refine Accepts.bind (encodeEnters_accepts fits.2) fun _ => ?_
    refine Accepts.bind Accepts.issue fun _ => Accepts.bind Accepts.issue fun _ => ?_
    exact Accepts.issue
  | delta frame =>
    refine Accepts.bind (Accepts.require fits.1) fun _ => ?_
    refine Accepts.bind (encodeEnters_accepts fits.2.1) fun _ => ?_
    refine Accepts.bind (Accepts.mapM frame.updates fun update member =>
      Accepts.bind (encodeEntity_accepts (fits.2.2 update member)) fun _ =>
        Accepts.issue) fun _ => ?_
    refine Accepts.bind (Accepts.mapM frame.leaves fun _ _ => Accepts.issue) fun _ => ?_
    refine Accepts.bind Accepts.issue fun _ => Accepts.bind Accepts.issue fun _ => ?_
    refine Accepts.bind Accepts.issue fun _ => Accepts.bind Accepts.issue fun _ => ?_
    exact Accepts.issue
  | reliable frame =>
    refine Accepts.bind (payloadWhen_accepts fun isReceipt =>
      Accepts.bind (Accepts.require (fits.1 isReceipt)) fun _ =>
        Accepts.bind Accepts.issue fun _ => Accepts.issue) fun _ => ?_
    refine Accepts.bind (payloadWhen_accepts fun isError =>
      Accepts.bind (Accepts.require (fits.2 isError)) fun _ =>
        Accepts.bind Accepts.issue fun _ => Accepts.bind Accepts.issue fun _ =>
          Accepts.issue) fun _ => ?_
    exact Accepts.bind Accepts.issue fun _ => Accepts.issue
  | heartbeat frame => exact Accepts.bind Accepts.issue fun _ => Accepts.issue

end GeoWorld.Protocol
