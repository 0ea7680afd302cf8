import Mathlib
import GeoWorld.Library.DependencyOrder
import GeoWorld.Library.SortedSelection
import GeoWorld.Persistence.CheckpointCodec

/-!
The registry of checkpoint providers and the order in which they are restored: a
depth-first search by id that puts every provider behind the ones it depends on. It fails
on a dependency that is not registered and on one that is still being visited.
-/

namespace GeoWorld.Persistence

open WorldModel Library Relation

/-- A provider, as far as the registry looks at it. -/
structure RegisteredProvider where
  schema : CheckpointSchema
  restoreDependencies : List ByteString := []
  deriving DecidableEq

abbrev RegisteredProvider.id (provider : RegisteredProvider) : ByteString :=
  provider.schema.providerId

namespace CheckpointRegistry

/-- Ids are searched for in the order of the registrations. -/
def find (registry : List RegisteredProvider) (id : ByteString) : Option RegisteredProvider :=
  registry.find? fun provider => provider.id = id

/-- `none` stands for a null pointer. -/
def registerProvider (registry : List RegisteredProvider) (provider : Option RegisteredProvider) :
    PersistenceError × List RegisteredProvider :=
  match provider with
  | none => (.recordInvalid, registry)
  | some provider =>
    if provider.id = [] ∨ provider.schema.schemaVersion = 0 then (.recordInvalid, registry)
    else if (find registry provider.id).isSome then (.configInvalid, registry)
    else (.none, registry ++ [provider])

def providersById (registry : List RegisteredProvider) : List RegisteredProvider :=
  registry.insertionSort fun left right => (compare left.id right.id).isLE

/-- The variables of `providers_in_restore_order`. -/
structure RestoreVisit where
  done : List ByteString := []
  inProgress : List ByteString := []
  order : List RegisteredProvider := []

/-- What follows a visit; an error ends the search. -/
def afterVisit (visited : Option (Except PersistenceError RestoreVisit))
    (next : RestoreVisit → Option (Except PersistenceError RestoreVisit)) :
    Option (Except PersistenceError RestoreVisit) :=
  match visited with
  | some (.ok after) => next after
  | other => other

/-- The loop over the dependencies of a provider. -/
def visitDependencies (find : ByteString → Option RegisteredProvider)
    (visit : RestoreVisit → RegisteredProvider → Option (Except PersistenceError RestoreVisit)) :
    RestoreVisit → List ByteString → Option (Except PersistenceError RestoreVisit)
  | state, [] => some (.ok state)
  | state, dependency :: rest =>
    match find dependency with
    | none => some (.error .checkpointInvalid)
    | some target =>
      afterVisit (visit state target) fun after => visitDependencies find visit after rest

/-- `none` is a recursion deeper than the fuel. -/
def visit (find : ByteString → Option RegisteredProvider) :
    Nat → RestoreVisit → RegisteredProvider → Option (Except PersistenceError RestoreVisit)
  | 0, _, _ => none
  | fuel + 1, state, provider =>
    if provider.id ∈ state.done then some (.ok state)
    else if provider.id ∈ state.inProgress then some (.error .checkpointInvalid)
    else
      afterVisit (visitDependencies find (visit find fuel)
        { state with inProgress := provider.id :: state.inProgress }
        provider.restoreDependencies) fun after => some (.ok {
          done := provider.id :: after.done
          inProgress := after.inProgress.erase provider.id
          order := after.order ++ [provider] })

/-- The loop over the providers by id. -/
def visitProviders (find : ByteString → Option RegisteredProvider) (fuel : Nat) :
    RestoreVisit → List RegisteredProvider → Option (Except PersistenceError RestoreVisit)
  | state, [] => some (.ok state)
  | state, provider :: rest =>
    afterVisit (visit find fuel state provider) fun after => visitProviders find fuel after rest

/-- Ids in progress are registered and each there once, so no recursion is deeper than their
number allows. -/
def providersInRestoreOrder (registry : List RegisteredProvider) :
    Option (Except PersistenceError (List RegisteredProvider)) :=
  (visitProviders (find registry) (registry.length + 1) {} (providersById registry)).map
    fun visited => visited.map RestoreVisit.order

end CheckpointRegistry

open CheckpointRegistry

/-- The registries that registrations lead to. -/
inductive Registered : List RegisteredProvider → Prop where
  | empty : Registered []
  | register {registry : List RegisteredProvider} (provider : Option RegisteredProvider)
      (before : Registered registry) : Registered (registerProvider registry provider).2

/-- The one depends on the other. -/
def DependsOn (registry : List RegisteredProvider) (provider needed : RegisteredProvider) : Prop :=
  needed ∈ registry ∧ needed.id ∈ provider.restoreDependencies

/-- Every dependency is registered. -/
def Complete (registry : List RegisteredProvider) : Prop :=
  ∀ provider ∈ registry, ∀ dependency ∈ provider.restoreDependencies,
    ∃ needed ∈ registry, needed.id = dependency

/-- No provider depends on itself, directly or through others. -/
def Acyclic (registry : List RegisteredProvider) : Prop :=
  ∀ provider ∈ registry, ¬ TransGen (DependsOn registry) provider provider

section Registry

variable {registry : List RegisteredProvider}

theorem Registered.distinct (registered : Registered registry) :
    (registry.map RegisteredProvider.id).Nodup := by
  induction registered with
  | empty => exact List.nodup_nil
  | @register registry provider _ ih =>
    unfold registerProvider
    split
    · exact ih
    · split
      · exact ih
      · split
        · exact ih
        · rename_i provider _ missing
          rw [List.map_append, List.map_singleton, List.nodup_append]
          refine ⟨ih, List.nodup_singleton _, ?_⟩
          intro id member other same
          rw [List.mem_singleton.mp same]
          rintro rfl
          obtain ⟨found, inside, named⟩ := List.mem_map.mp member
          rw [find, List.find?_isSome] at missing
          exact missing ⟨found, inside, decide_eq_true named⟩

theorem unique_of_distinct (distinct : (registry.map RegisteredProvider.id).Nodup)
    {one other : RegisteredProvider} (left : one ∈ registry) (right : other ∈ registry)
    (same : one.id = other.id) : one = other :=
  List.inj_on_of_nodup_map distinct left right same

theorem find_eq_some (distinct : (registry.map RegisteredProvider.id).Nodup) {id : ByteString}
    {provider : RegisteredProvider} :
    find registry id = some provider ↔ provider ∈ registry ∧ provider.id = id := by
  constructor
  · intro found
    exact ⟨List.mem_of_find?_eq_some found, by simpa using List.find?_some found⟩
  · rintro ⟨member, rfl⟩
    cases found : find registry provider.id with
    | none =>
      have none := List.find?_eq_none.mp found provider member
      simp at none
    | some other =>
      have named : other.id = provider.id := by simpa using List.find?_some found
      rw [unique_of_distinct distinct (List.mem_of_find?_eq_some found) member named]

theorem find_eq_none {id : ByteString} :
    find registry id = none ↔ ¬ ∃ provider ∈ registry, provider.id = id := by
  simp [find, List.find?_eq_none]

/-- Ids are looked up alike in registries with the same providers. -/
theorem find_perm {other : List RegisteredProvider} (perm : registry.Perm other)
    (distinct : (registry.map RegisteredProvider.id).Nodup) : find registry = find other := by
  have distinct' : (other.map RegisteredProvider.id).Nodup :=
    (perm.map RegisteredProvider.id).nodup_iff.mp distinct
  funext id
  cases found : find registry id with
  | none =>
    rw [eq_comm, find_eq_none]
    rintro ⟨provider, member, named⟩
    exact find_eq_none.mp found ⟨provider, perm.mem_iff.mpr member, named⟩
  | some provider =>
    obtain ⟨member, named⟩ := (find_eq_some distinct).mp found
    exact ((find_eq_some distinct').mpr ⟨perm.mem_iff.mp member, named⟩).symm

end Registry

section Search

variable {registry : List RegisteredProvider}

/-- What holds between visits: the visited providers stand in dependency order, and the ones
in progress are not among them. -/
structure VisitInv (registry : List RegisteredProvider) (state : RestoreVisit) : Prop where
  done : ∀ id, id ∈ state.done ↔ ∃ provider ∈ state.order, provider.id = id
  listed : state.order ⊆ registry
  distinct : state.order.Nodup
  ordered : InDependencyOrder (DependsOn registry) state.order
  met : ∀ provider ∈ state.order, ∀ id ∈ provider.restoreDependencies, id ∈ state.done
  started : state.inProgress.Nodup
  apart : ∀ id ∈ state.inProgress, id ∉ state.done

theorem visitInv_empty : VisitInv registry {} where
  done := by simp
  listed := List.nil_subset _
  distinct := List.nodup_nil
  ordered := inDependencyOrder_nil
  met := by simp
  started := List.nodup_nil
  apart := by simp

/-- The visit returns: an error shows a defect of the registry, and otherwise the search goes
on from a state that has reached the goal. -/
def Answers (registry : List RegisteredProvider) (state : RestoreVisit)
    (goal : RestoreVisit → Prop) : Option (Except PersistenceError RestoreVisit) → Prop
  | none => False
  | some (.error error) =>
    error = .checkpointInvalid ∧ ¬ (Complete registry ∧ Acyclic registry)
  | some (.ok after) => VisitInv registry after ∧ after.inProgress = state.inProgress ∧
    state.order ⊆ after.order ∧ goal after

/-- A visit and what follows it. -/
theorem Answers.andThen {state : RestoreVisit} {goal last : RestoreVisit → Prop}
    {visited : Option (Except PersistenceError RestoreVisit)}
    {next : RestoreVisit → Option (Except PersistenceError RestoreVisit)}
    (answers : Answers registry state goal visited)
    (further : ∀ after, VisitInv registry after → after.inProgress = state.inProgress →
      state.order ⊆ after.order → goal after → Answers registry state last (next after)) :
    Answers registry state last (afterVisit visited next) := by
  cases visited with
  | none => exact answers
  | some outcome =>
    cases outcome with
    | error error => exact answers
    | ok after => exact further after answers.1 answers.2.1 answers.2.2.1 answers.2.2.2

/-- Seen from an earlier state. -/
theorem Answers.earlier {first state : RestoreVisit} {goal last : RestoreVisit → Prop}
    {visited : Option (Except PersistenceError RestoreVisit)}
    (answers : Answers registry state goal visited) (same : state.inProgress = first.inProgress)
    (grown : first.order ⊆ state.order)
    (reached : ∀ after, VisitInv registry after → state.order ⊆ after.order → goal after →
      last after) : Answers registry first last visited := by
  cases visited with
  | none => exact answers
  | some outcome =>
    cases outcome with
    | error error => exact answers
    | ok after =>
      obtain ⟨inv, still, more, goal⟩ := answers
      exact ⟨inv, still.trans same, List.Subset.trans grown more, reached after inv more goal⟩

/-- What is done stays done. -/
theorem VisitInv.still_done {state after : RestoreVisit} (inv : VisitInv registry state)
    (later : VisitInv registry after) (grown : state.order ⊆ after.order) {id : ByteString}
    (visited : id ∈ state.done) : id ∈ after.done := by
  obtain ⟨provider, early, named⟩ := (inv.done id).mp visited
  exact (later.done id).mpr ⟨provider, grown early, named⟩

/-- The providers in progress lead to this one. -/
def LeadTo (registry : List RegisteredProvider) (state : RestoreVisit)
    (leads : RegisteredProvider → Prop) : Prop :=
  ∀ id ∈ state.inProgress, ∃ provider ∈ registry, provider.id = id ∧ leads provider

theorem inProgress_length {ids : List ByteString} (distinct : ids.Nodup)
    (known : ∀ id ∈ ids, ∃ provider ∈ registry, provider.id = id) :
    ids.length ≤ registry.length := by
  have inside : ids ⊆ registry.map RegisteredProvider.id := by
    intro id member
    obtain ⟨provider, listed, named⟩ := known id member
    exact List.mem_map.mpr ⟨provider, listed, named⟩
  have length := (List.subperm_of_subset distinct inside).length_le
  rwa [List.length_map] at length

/-- The loop over the dependencies, from what a visit of one of them does. -/
theorem visitDependencies_answers (distinct : (registry.map RegisteredProvider.id).Nodup)
    {provider : RegisteredProvider} (member : provider ∈ registry)
    {visit : RestoreVisit → RegisteredProvider → Option (Except PersistenceError RestoreVisit)}
    {state : RestoreVisit} {dependencies : List ByteString}
    (some : dependencies ⊆ provider.restoreDependencies) (inv : VisitInv registry state)
    (visits : ∀ now target, VisitInv registry now → now.inProgress = state.inProgress →
      DependsOn registry provider target →
        Answers registry now (fun after => target.id ∈ after.done) (visit now target)) :
    Answers registry state (fun after => ∀ id ∈ dependencies, id ∈ after.done)
      (visitDependencies (find registry) visit state dependencies) := by
  induction dependencies generalizing state with
  | nil => exact ⟨inv, rfl, List.Subset.refl _, by simp⟩
  | cons dependency rest ih =>
    have here := some List.mem_cons_self
    rw [visitDependencies]
    cases found : find registry dependency with
    | none =>
      refine ⟨rfl, fun sound => ?_⟩
      exact find_eq_none.mp found (sound.1 provider member dependency here)
    | some target =>
      obtain ⟨listed, named⟩ := (find_eq_some distinct).mp found
      refine (visits state target inv rfl ⟨listed, named ▸ here⟩).andThen
        fun after inv same grown reached => ?_
      refine (@ih after (fun id inside => some (List.mem_cons_of_mem _ inside)) inv
        fun now target inv still => visits now target inv (still.trans same)).earlier same grown
          fun final later more all id inside => ?_
      rcases List.mem_cons.mp inside with rfl | inside
      · exact inv.still_done later more (named ▸ reached)
      · exact all id inside

/-- A provider whose dependencies have been visited is put behind them. -/
theorem VisitInv.finish (distinct : (registry.map RegisteredProvider.id).Nodup)
    {state after : RestoreVisit} {provider : RegisteredProvider} (member : provider ∈ registry)
    (inv : VisitInv registry after)
    (same : after.inProgress = provider.id :: state.inProgress)
    (met : ∀ id ∈ provider.restoreDependencies, id ∈ after.done) :
    VisitInv registry {
      done := provider.id :: after.done
      inProgress := after.inProgress.erase provider.id
      order := after.order ++ [provider] } where
  done id := by
    rw [List.mem_cons, inv.done id]
    simp [or_comm, eq_comm]
  listed := by
    intro other inside
    rcases List.mem_append.mp inside with old | new
    · exact inv.listed old
    · rw [List.mem_singleton.mp new]
      exact member
  distinct := by
    have fresh : provider ∉ after.order := by
      intro visited
      have done := (inv.done provider.id).mpr ⟨provider, visited, rfl⟩
      exact inv.apart provider.id (by rw [same]; exact List.mem_cons_self) done
    exact List.nodup_append.mpr ⟨inv.distinct, List.nodup_singleton _, fun other inside last equal =>
      fun clash => fresh (by rwa [← List.mem_singleton.mp equal, ← clash])⟩
  ordered := by
    refine inv.ordered.append fun needed depends => ?_
    obtain ⟨visited, inside, named⟩ := (inv.done needed.id).mp (met needed.id depends.2)
    rwa [← unique_of_distinct distinct (inv.listed inside) depends.1 named]
  met := by
    intro other inside id need
    rcases List.mem_append.mp inside with old | new
    · exact List.mem_cons_of_mem _ (inv.met other old id need)
    · rw [List.mem_singleton.mp new] at need
      exact List.mem_cons_of_mem _ (met id need)
  started := inv.started.erase _
  apart := by
    intro id inside done
    rw [same, List.erase_cons_head] at inside
    rcases List.mem_cons.mp done with rfl | done
    · have started := inv.started
      rw [same] at started
      exact (List.nodup_cons.mp started).1 inside
    · exact inv.apart id (by rw [same]; exact List.mem_cons_of_mem _ inside) done

theorem visit_answers (distinct : (registry.map RegisteredProvider.id).Nodup) {fuel : Nat}
    {state : RestoreVisit} {provider : RegisteredProvider} (member : provider ∈ registry)
    (inv : VisitInv registry state)
    (leads : LeadTo registry state fun earlier =>
      TransGen (DependsOn registry) earlier provider)
    (enough : registry.length < fuel + state.inProgress.length) :
    Answers registry state (fun after => provider.id ∈ after.done)
      (CheckpointRegistry.visit (find registry) fuel state provider) := by
  have known : ∀ id ∈ state.inProgress, ∃ provider ∈ registry, provider.id = id := by
    intro id inside
    obtain ⟨earlier, listed, named, _⟩ := leads id inside
    exact ⟨earlier, listed, named⟩
  induction fuel generalizing state provider with
  | zero =>
    have bound := inProgress_length inv.started known
    omega
  | succ fuel ih =>
    rw [CheckpointRegistry.visit]
    split
    · rename_i visited
      exact ⟨inv, rfl, List.Subset.refl _, visited⟩
    rename_i unvisited
    split
    · -- the provider leads back to itself
      rename_i open'
      refine ⟨rfl, fun sound => ?_⟩
      obtain ⟨earlier, listed, named, path⟩ := leads _ open'
      obtain rfl := unique_of_distinct distinct listed member named
      exact sound.2 _ listed path
    rename_i fresh
    have opened : VisitInv registry { state with
        inProgress := provider.id :: state.inProgress } := by
      refine { inv with started := List.nodup_cons.mpr ⟨fresh, inv.started⟩, apart := ?_ }
      intro id inside
      rcases List.mem_cons.mp inside with rfl | earlier
      · exact unvisited
      · exact inv.apart id earlier
    have leads' : LeadTo registry { state with inProgress := provider.id :: state.inProgress }
        fun earlier => ReflTransGen (DependsOn registry) earlier provider := by
      intro id inside
      rcases List.mem_cons.mp inside with rfl | earlier
      · exact ⟨provider, member, rfl, .refl⟩
      · obtain ⟨found, listed, named, path⟩ := leads id earlier
        exact ⟨found, listed, named, path.to_reflTransGen⟩
    have answers := @visitDependencies_answers registry distinct provider member
      (CheckpointRegistry.visit (find registry) fuel) _ _ (List.Subset.refl _) opened
      fun now target inv same depends => by
        refine ih depends.1 inv (fun id inside => ?_) ?_ fun id inside => ?_
        · rw [same] at inside
          obtain ⟨earlier, listed, named, path⟩ := leads' id inside
          exact ⟨earlier, listed, named, TransGen.tail' path depends⟩
        · rw [same]
          simp only [List.length_cons]
          omega
        · rw [same] at inside
          obtain ⟨earlier, listed, named, _⟩ := leads' id inside
          exact ⟨earlier, listed, named⟩
    cases ended : visitDependencies (find registry) (CheckpointRegistry.visit (find registry) fuel)
        { state with inProgress := provider.id :: state.inProgress }
        provider.restoreDependencies with
    | none =>
      rw [ended] at answers
      exact answers
    | some outcome =>
      rw [ended] at answers
      cases outcome with
      | error error => exact answers
      | ok after =>
        obtain ⟨inv', same, grown, met⟩ := answers
        refine ⟨inv'.finish distinct member same met, ?_, ?_, List.mem_cons_self⟩
        · simp only [same, List.erase_cons_head]
        · exact fun other inside => List.mem_append_left _ (grown inside)

theorem visitProviders_answers (distinct : (registry.map RegisteredProvider.id).Nodup)
    {state : RestoreVisit} {providers : List RegisteredProvider} (some : providers ⊆ registry)
    (inv : VisitInv registry state) (idle : state.inProgress = []) :
    Answers registry state (fun after => ∀ provider ∈ providers, provider.id ∈ after.done)
      (visitProviders (find registry) (registry.length + 1) state providers) := by
  induction providers generalizing state with
  | nil => exact ⟨inv, rfl, List.Subset.refl _, by simp⟩
  | cons provider rest ih =>
    have none : ∀ leads, LeadTo registry state leads := by
      intro leads id inside
      rw [idle] at inside
      exact absurd inside List.not_mem_nil
    refine Answers.andThen (@visit_answers registry distinct (registry.length + 1) state provider
      (some List.mem_cons_self) inv (none _) (by rw [idle]; simp))
        fun after inv same grown reached => ?_
    refine (@ih after (fun other inside => some (List.mem_cons_of_mem _ inside)) inv
      (same.trans idle)).earlier same grown fun final later more all other inside => ?_
    rcases List.mem_cons.mp inside with rfl | inside
    · exact inv.still_done later more reached
    · exact all other inside

/-- Sorting by id does not depend on the order of the registrations. -/
theorem providersById_perm {other : List RegisteredProvider} (perm : registry.Perm other)
    (distinct : (registry.map RegisteredProvider.id).Nodup) :
    providersById registry = providersById other := by
  have either : ∀ ordering : Ordering, ordering.isLE ∨ ordering.isGE := by decide
  have total : Std.Total fun left right : RegisteredProvider =>
      ((compare left.id right.id).isLE : Prop) :=
    ⟨fun left right =>
      (either (compare left.id right.id)).imp_right Std.OrientedCmp.isLE_of_isGE⟩
  have trans : IsTrans RegisteredProvider fun left right =>
      ((compare left.id right.id).isLE : Prop) :=
    ⟨fun _ _ _ first second => Std.TransCmp.isLE_trans first second⟩
  refine insertionSort_congr perm fun one left other right before after => ?_
  have same : one.id = other.id :=
    Std.LawfulEqCmp.eq_of_compare (Std.OrientedCmp.isLE_antisymm before after)
  exact unique_of_distinct distinct left right same

/-- A search that has visited every provider. -/
structure Visited (registry order : List RegisteredProvider) : Prop where
  perm : order.Perm registry
  behind : ∀ front provider back, order = front ++ provider :: back →
    ∀ dependency ∈ provider.restoreDependencies, ∃ needed ∈ front, needed.id = dependency
  complete : Complete registry
  acyclic : Acyclic registry

theorem VisitInv.visited {state : RestoreVisit} (inv : VisitInv registry state)
    (distinct : (registry.map RegisteredProvider.id).Nodup)
    (all : ∀ provider ∈ registry, provider.id ∈ state.done) : Visited registry state.order := by
  have member : ∀ provider ∈ registry, provider ∈ state.order := by
    intro provider listed
    obtain ⟨found, inside, named⟩ := (inv.done provider.id).mp (all provider listed)
    rwa [← unique_of_distinct distinct (inv.listed inside) listed named]
  refine ⟨?_, ?_, fun provider listed dependency need => ?_, fun provider listed => ?_⟩
  · exact (List.perm_ext_iff_of_nodup inv.distinct distinct.of_map).mpr fun provider =>
      ⟨fun inside => inv.listed inside, member provider⟩
  · intro front provider back split dependency need
    have inside : provider ∈ state.order := by simp [split]
    obtain ⟨needed, found, named⟩ := (inv.done dependency).mp
      (inv.met provider inside dependency need)
    have depends : DependsOn registry provider needed := ⟨inv.listed found, named ▸ need⟩
    exact ⟨needed, inv.ordered front provider back split needed depends, named⟩
  · obtain ⟨needed, found, named⟩ := (inv.done dependency).mp
      (inv.met provider (member provider listed) dependency need)
    exact ⟨needed, inv.listed found, named⟩
  · exact inv.ordered.acyclic inv.distinct (member provider listed)

/-- For every registry the search returns. It succeeds if and only if every dependency is
registered and none is circular; the result then holds every provider once and behind what it
depends on, and the order of the registrations does not matter. -/
theorem restore_order_topological (registered : Registered registry) :
    ∃ outcome, providersInRestoreOrder registry = some outcome ∧
      ((∃ order, outcome = .ok order) ↔ Complete registry ∧ Acyclic registry) ∧
      (∀ order, outcome = .ok order → order.Perm registry ∧
        ∀ front provider back, order = front ++ provider :: back →
          ∀ dependency ∈ provider.restoreDependencies,
            ∃ needed ∈ front, needed.id = dependency) ∧
      ∀ other : List RegisteredProvider, other.Perm registry →
        providersInRestoreOrder other = some outcome := by
  have distinct := registered.distinct
  have sorted : (providersById registry).Perm registry := List.perm_insertionSort _ _
  have answers := @visitProviders_answers registry distinct {} (providersById registry)
    sorted.subset visitInv_empty rfl
  have others : ∀ other : List RegisteredProvider, other.Perm registry →
      providersInRestoreOrder other = providersInRestoreOrder registry := by
    intro other perm
    unfold providersInRestoreOrder
    rw [find_perm perm.symm distinct, providersById_perm perm.symm distinct, perm.length_eq]
  cases ended : visitProviders (find registry) (registry.length + 1) {}
      (providersById registry) with
  | none =>
    rw [ended] at answers
    exact answers.elim
  | some visited =>
    rw [ended] at answers
    have result : providersInRestoreOrder registry = some (visited.map RestoreVisit.order) := by
      rw [providersInRestoreOrder, ended]
      rfl
    refine ⟨_, result, ?_, ?_, fun other perm => (others other perm).trans result⟩
    · cases visited with
      | error error =>
        refine ⟨fun succeeded => ?_, fun sound => absurd sound answers.2⟩
        obtain ⟨order, no⟩ := succeeded
        cases no
      | ok after =>
        obtain ⟨inv, -, -, all⟩ := answers
        have whole := inv.visited distinct fun provider listed =>
          all provider (sorted.mem_iff.mpr listed)
        exact ⟨fun _ => ⟨whole.complete, whole.acyclic⟩, fun _ => ⟨_, rfl⟩⟩
    · intro order succeeded
      cases visited with
      | error error => cases succeeded
      | ok after =>
        obtain ⟨inv, -, -, all⟩ := answers
        obtain rfl : after.order = order := Except.ok.inj succeeded
        have whole := inv.visited distinct fun provider listed =>
          all provider (sorted.mem_iff.mpr listed)
        exact ⟨whole.perm, whole.behind⟩

/-- Two providers, the first of which depends on the second. -/
def pairRegistry : List RegisteredProvider :=
  [⟨⟨[1], 1⟩, [[2], [2]]⟩, ⟨⟨[2], 1⟩, []⟩]

theorem pairRegistry_registered : Registered pairRegistry :=
  (Registered.empty.register (some ⟨⟨[1], 1⟩, [[2], [2]]⟩)).register (some ⟨⟨[2], 1⟩, []⟩)

theorem restore_order_topological_pair :
    providersInRestoreOrder pairRegistry = some (.ok pairRegistry.reverse) ∧
      Complete pairRegistry ∧ Acyclic pairRegistry := by
  have computed : providersInRestoreOrder pairRegistry = some (.ok pairRegistry.reverse) := by
    decide +kernel
  obtain ⟨outcome, result, sound, -⟩ := restore_order_topological pairRegistry_registered
  obtain rfl := Option.some.inj (computed.symm.trans result)
  exact ⟨computed, sound.mp ⟨_, rfl⟩⟩

end Search

end GeoWorld.Persistence
