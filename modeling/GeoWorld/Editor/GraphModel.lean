import Mathlib
import GeoWorld.Library.LabelledGraph
import GeoWorld.Tooling.BehaviorTree

/-!
What the two graph models of the behaviour editor share: node ids from a counter, connections
between ports, and the numbers that the nodes of a loaded document get.
-/

namespace GeoWorld.Editor

open WorldModel Library Tooling

abbrev NodeId := UInt32

abbrev PortIndex := UInt32

/-- `QtNodes::InvalidNodeId`. -/
def invalidNodeId : NodeId := 0xFFFFFFFF

structure ConnectionId where
  outNodeId : NodeId
  outPortIndex : PortIndex
  inNodeId : NodeId
  inPortIndex : PortIndex
  deriving DecidableEq

def ConnectionId.ends (connection : ConnectionId) : NodeId × NodeId :=
  (connection.outNodeId, connection.inNodeId)

/-- The connection touches the node. -/
def ConnectionId.touches (connection : ConnectionId) (id : NodeId) : Bool :=
  connection.inNodeId == id || connection.outNodeId == id

/-- The orders in which hash tables list what they hold and a sort leaves what is equal. -/
structure Hashing where
  order : {α : Type} → List α → List α
  perm : ∀ {α : Type} (items : List α), (order items).Perm items

/-- `begin()->first` of a table, the invalid id when it is empty. -/
def Hashing.first (hashing : Hashing) (ids : List NodeId) : NodeId :=
  (hashing.order ids).head?.getD invalidNodeId

/-- `QString(text).arg(id)`. -/
def numbered (text : String) (id : NodeId) : ByteString := utf8 (text ++ toString id.toNat)

theorem mapM_of_forall {α β : Type} {read : α → Option β} {items : List α} (kept : α → β)
    (each : ∀ item ∈ items, read item = some (kept item)) :
    items.mapM read = some (items.map kept) := by
  induction items with
  | nil => rfl
  | cons item rest ih =>
    rw [List.forall_mem_cons] at each
    rw [List.mapM_cons, each.1, ih each.2]
    rfl

section Numbers

variable {α : Type} {items : List α} {labels : List ByteString} {label : ByteString}
variable {start index other : Nat}

/-- The id of the node at an index of a loaded document. -/
def numberOf (index : Nat) : NodeId := UInt32.ofNat (index + 1)

def numberFrom (start : Nat) : List α → List (NodeId × α)
  | [] => []
  | item :: rest => (numberOf start, item) :: numberFrom (start + 1) rest

theorem numberOf_succ (index : Nat) : numberOf index + 1 = numberOf (index + 1) := by
  refine UInt32.toNat_inj.mp ?_
  simp [numberOf, UInt32.toNat_add]

theorem numberOf_toNat (small : index + 1 < 2 ^ 32) : (numberOf index).toNat = index + 1 :=
  UInt32.toNat_ofNat_of_lt' small

theorem numberOf_inj (small : index + 1 < 2 ^ 32) (small' : other + 1 < 2 ^ 32)
    (same : numberOf index = numberOf other) : index = other := by
  have numbers := congrArg UInt32.toNat same
  rw [numberOf_toNat small, numberOf_toNat small'] at numbers
  exact Nat.succ.inj numbers

theorem mem_numberFrom {entry : NodeId × α} : entry ∈ numberFrom start items ↔
    ∃ index, items[index]? = some entry.2 ∧ entry.1 = numberOf (start + index) := by
  induction items generalizing start with
  | nil => simp [numberFrom]
  | cons item rest ih =>
    rw [numberFrom, List.mem_cons, ih]
    constructor
    · rintro (rfl | ⟨index, found, id⟩)
      · exact ⟨0, rfl, rfl⟩
      · exact ⟨index + 1, found, by rw [id, Nat.add_right_comm, Nat.add_assoc]⟩
    · rintro ⟨_ | index, found, id⟩
      · exact .inl (Prod.ext id (Option.some.inj found).symm)
      · exact .inr ⟨index, found, by rw [id, Nat.add_right_comm, Nat.add_assoc]⟩

theorem numberFrom_ascending (small : start + items.length < 2 ^ 32) :
    (numberFrom start items).Pairwise fun first second => compare first.1 second.1 = .lt := by
  induction items generalizing start with
  | nil => exact .nil
  | cons item rest ih =>
    rw [List.length_cons] at small
    refine List.pairwise_cons.mpr ⟨fun entry member => ?_, ih (by omega)⟩
    obtain ⟨index, found, id⟩ := mem_numberFrom.mp member
    have inside := (List.getElem?_eq_some_iff.mp found).1
    have before : (numberOf start).toNat < entry.1.toNat := by
      rw [id, numberOf_toNat (by omega), numberOf_toNat (by omega)]
      omega
    exact Std.compare_eq_lt.mpr (UInt32.lt_iff_toNat_lt.mpr before)

theorem map_snd_numberFrom : (numberFrom start items).map Prod.snd = items := by
  induction items generalizing start with
  | nil => rfl
  | cons item rest ih => rw [numberFrom, List.map_cons, ih]

theorem numberFrom_map {β : Type} (change : α → β) : numberFrom start (items.map change) =
    (numberFrom start items).map fun entry => (entry.1, change entry.2) := by
  induction items generalizing start with
  | nil => rfl
  | cons item rest ih => rw [List.map_cons, numberFrom, ih, numberFrom, List.map_cons]

/-- The nodes of a loaded document by their ids. -/
def numberNodes (items : List α) : Std.ExtTreeMap NodeId α compare :=
  (numberFrom 0 items).foldl (fun map entry => map.insertIfNew entry.1 entry.2) ∅

theorem toList_numberNodes (small : items.length < 2 ^ 32) :
    (numberNodes items).toList = numberFrom 0 items :=
  toList_foldl_entries _ (numberFrom_ascending (by omega))

theorem lookup_numberNodes (small : items.length < 2 ^ 32) {item : α} :
    (numberNodes items)[numberOf index]? = some item ∧ index < items.length ↔
      items[index]? = some item := by
  rw [← Std.ExtTreeMap.mem_toList_iff_getElem?_eq_some, toList_numberNodes small, mem_numberFrom]
  constructor
  · rintro ⟨⟨other, found, same⟩, inside⟩
    have bound := (List.getElem?_eq_some_iff.mp found).1
    obtain rfl := numberOf_inj (by omega) (by omega) same
    rw [Nat.zero_add]
    exact found
  · intro found
    exact ⟨⟨index, found, by rw [Nat.zero_add]⟩, (List.getElem?_eq_some_iff.mp found).1⟩

/-- The first id of each label, as `emplace` keeps it. -/
def labelIds (labels : List ByteString) : Std.ExtTreeMap ByteString NodeId compare :=
  (numberFrom 0 labels).foldl (fun map entry => map.insertIfNew entry.2 entry.1) ∅

/-- The id of the first node with a label. -/
def labelId (labels : List ByteString) (label : ByteString) : NodeId :=
  numberOf (labels.idxOf label)

theorem labelId_inj (small : labels.length < 2 ^ 32) {left right : ByteString} (known : left ∈ labels)
    (known' : right ∈ labels) (same : labelId labels left = labelId labels right) : left = right := by
  have inside := List.idxOf_lt_length_iff.mpr known
  have inside' := List.idxOf_lt_length_iff.mpr known'
  exact (List.idxOf_inj known).mp (numberOf_inj (by omega) (by omega) same)

theorem lookup_labelIds (labels : List ByteString) (label : ByteString) : (labelIds labels)[label]? =
    if label ∈ labels then some (labelId labels label) else none := by
  have first : ∀ start, (((numberFrom start labels).map Prod.swap).find? fun entry =>
      entry.1 == label).map Prod.snd =
        if label ∈ labels then some (numberOf (start + labels.idxOf label)) else none := by
    induction labels with
    | nil => exact fun _ => rfl
    | cons head rest ih =>
      intro start
      rw [numberFrom, List.map_cons, List.find?_cons]
      by_cases same : head = label
      · simp [same]
      · have differ : (head == label) = false := beq_eq_false_iff_ne.mpr same
        simp only [Prod.swap_prod_mk, differ, ih, List.mem_cons, Ne.symm same, false_or,
          List.idxOf_cons, Nat.add_right_comm, Nat.add_assoc, cond_false]
  have swapped : labelIds labels = ((numberFrom 0 labels).map Prod.swap).foldl
      (fun map entry => map.insertIfNew entry.1 entry.2) ∅ := by
    rw [labelIds, List.foldl_map]
    rfl
  rw [swapped, lookup_foldl_entries, Std.ExtTreeMap.getElem?_empty, Option.none_or, first, Nat.zero_add]
  rfl

section Labels

variable {β : Type} {label : α → ByteString} (node : α → β)

theorem labelId_of_getElem (distinct : (items.map label).Nodup) {item : α}
    (found : items[index]? = some item) : labelId (items.map label) (label item) = numberOf index := by
  have inside : (items.map label)[index]? = some (label item) := by
    rw [List.getElem?_map, found, Option.map_some]
  obtain ⟨bound, named⟩ := List.getElem?_eq_some_iff.mp inside
  rw [labelId, ← named, distinct.idxOf_getElem index bound]

/-- A node of a loaded document is found under the id of its label. -/
theorem lookup_labelId (small : items.length < 2 ^ 32) (distinct : (items.map label).Nodup) {item : α}
    (member : item ∈ items) :
    (numberNodes (items.map node))[labelId (items.map label) (label item)]? = some (node item) := by
  obtain ⟨index, found⟩ := List.mem_iff_getElem?.mp member
  rw [labelId_of_getElem distinct found]
  refine ((lookup_numberNodes (by rwa [List.length_map])).mpr ?_).1
  rw [List.getElem?_map, found, Option.map_some]

theorem toList_labelId (small : items.length < 2 ^ 32) (distinct : (items.map label).Nodup) :
    (numberNodes (items.map node)).toList =
      items.map fun item => (labelId (items.map label) (label item), node item) := by
  have numbers : (numberFrom 0 items).map (fun entry => (entry.1, node entry.2)) =
      (numberFrom 0 items).map fun entry =>
        (labelId (items.map label) (label entry.2), node entry.2) := by
    refine List.map_congr_left fun entry member => ?_
    obtain ⟨index, found, id⟩ := mem_numberFrom.mp member
    rw [labelId_of_getElem distinct found, id, Nat.zero_add]
  have plain : (numberFrom 0 items).map Prod.snd = items := map_snd_numberFrom
  rw [toList_numberNodes (by rwa [List.length_map]), numberFrom_map, numbers]
  conv_rhs => rw [← plain, List.map_map, plain]
  rfl

end Labels

/-- The id of the last node with the label, or the one held before. -/
def markedId (label : ByteString) (entries : List (NodeId × ByteString)) (held : NodeId) : NodeId :=
  entries.foldl (fun held entry => if entry.2 = label then entry.1 else held) held

theorem markedId_numberFrom (distinct : labels.Nodup) (known : label ∈ labels) (held : NodeId) :
    markedId label (numberFrom start labels) held = numberOf (start + labels.idxOf label) := by
  induction labels generalizing start held with
  | nil => cases known
  | cons head rest ih =>
    obtain ⟨fresh, distinct⟩ := List.nodup_cons.mp distinct
    rw [numberFrom, markedId, List.foldl_cons]
    by_cases same : head = label
    · have other : ∀ entry ∈ numberFrom (start + 1) rest, entry.2 ≠ label := by
        rintro entry member rfl
        obtain ⟨index, found, -⟩ := mem_numberFrom.mp member
        exact fresh (same ▸ List.mem_of_getElem? found)
      have kept : ∀ (entries : List (NodeId × ByteString)) (held : NodeId),
          (∀ entry ∈ entries, entry.2 ≠ label) →
            entries.foldl (fun held entry => if entry.2 = label then entry.1 else held) held =
              held := by
        intro entries
        induction entries with
        | nil => exact fun _ _ => rfl
        | cons entry entries keep =>
          intro held others
          rw [List.forall_mem_cons] at others
          rw [List.foldl_cons, if_neg others.1, keep held others.2]
      rw [if_pos same, kept _ _ other, same]
      simp
    · rw [if_neg same]
      have later : (numberFrom (start + 1) rest).foldl
          (fun held entry => if entry.2 = label then entry.1 else held) held =
            numberOf (start + 1 + rest.idxOf label) :=
        ih distinct ((List.mem_cons.mp known).resolve_left (Ne.symm same)) held
      rw [later, List.idxOf_cons_ne _ same, Nat.add_right_comm, Nat.add_assoc]

end Numbers

end GeoWorld.Editor
