import ModelRegistry.Mapper
import ModelRegistry.Proofs.RegistryHistory

/-!
# Effect of a reconciliation

What a discovery answer does to a mapper is said in terms of the mapper as it was before:
a served version is known if its kind has a type then. Although each known version is
registered before the next one is looked at, the last known version of a type decides what
the type leads back to, and the last known version of a collection decides its type; all
else stays. Several resources may have a type or a collection in common, also through the
core group. What the answer does to the deadline is not said here.
-/

namespace ModelRegistry

/-- The last entry of a kind among those taken from a list is taken from the last item that
gives one of that kind. -/
theorem findRev?_filterMap {α β : Type} (items : List α) (take : α → Option β) (p : β → Bool) :
    (items.filterMap take).findRev? p =
      (items.findRev? fun item => (take item).any p).bind take := by
  simp only [List.findRev?_eq_find?_reverse, ← List.filterMap_reverse, List.find?_filterMap]

namespace Registry

variable (registry : Registry) (resources : List ApiResource)

/-- The type of the kind of a served version, if it has one. -/
def typeServed (served : ApiResource × String) : Option ModelType :=
  registry.typeOfKind (served.1.kindAt served.2)

/-- The last known version of a type among some served resources. -/
def lastOfType (model : ModelType) : Option (ApiResource × String) :=
  (servedVersions resources).findRev? fun served => registry.typeServed served = some model

/-- The last known version of a collection among some served resources. -/
def lastOfCollection (resource : GroupVersionResource) : Option (ApiResource × String) :=
  (servedVersions resources).findRev? fun served =>
    (registry.typeServed served).isSome ∧ served.1.resourceAt served.2 = resource

/-- The registration that takes up a served version, if it is known. -/
def registrationOf (served : ApiResource × String) : Option Registration :=
  (registry.typeServed served).map (.ofResource served.1 served.2)

/-- The registrations that take up some served resources are those of the known versions. -/
theorem known_eq_filterMap :
    registry.known resources = (servedVersions resources).filterMap registry.registrationOf := rfl

/-- The kinds that a reconciliation notes are those of the unknown versions. -/
theorem unknown_eq_map : registry.unknown resources =
    ((servedVersions resources).filter fun served => registry.typeServed served = none).map
      fun served => served.1.kindAt served.2 := by
  rw [unknown, List.filter_map]
  congr 2
  funext served
  exact Bool.eq_iff_iff.mpr (Option.isNone_iff_eq_none.trans decide_eq_true_iff.symm)

/-- Each served version is either known or unknown. -/
theorem length_known_add_length_unknown :
    (registry.known resources).length + (registry.unknown resources).length =
      (servedVersions resources).length := by
  rw [known_eq_filterMap, List.length_filterMap_eq_countP, unknown_eq_map, List.length_map,
    ← List.countP_eq_length_filter,
    List.length_eq_countP_add_countP fun served => (registry.registrationOf served).isSome]
  congr 2
  funext served
  rw [registrationOf, Option.isSome_map]
  cases registry.typeServed served <;> rfl

variable {registry resources}

/-- The last registration for a type, perhaps among those with a flag only, is that of the
last known version of the type: each of them has a flag. -/
theorem findRev?_known_model {model : ModelType} {p : Registration → Bool}
    (h : ∀ resource version found,
      p (.ofResource resource version found) = decide (found = model)) :
    (registry.known resources).findRev? p =
      (registry.lastOfType resources model).map fun served =>
        .ofResource served.1 served.2 model := by
  have hp : (fun served => (registry.registrationOf served).any p) =
      fun served => decide (registry.typeServed served = some model) := by
    funext served
    cases ht : registry.typeServed served with
    | none => simp [registrationOf, ht]
    | some found => simp [registrationOf, ht, h]
  rw [known_eq_filterMap, findRev?_filterMap, hp, lastOfType]
  cases hl : (servedVersions resources).findRev?
      fun served => decide (registry.typeServed served = some model) with
  | none => rfl
  | some served =>
    have ht := of_decide_eq_true (findRev?_eq_some_iff_append.mp hl).1
    rw [Option.bind_some, registrationOf, ht]
    rfl

/-- The last registration of a collection is that of the last known version of the
collection. -/
theorem findRev?_known_gvr (resource : GroupVersionResource) :
    (registry.known resources).findRev? (·.gvr = resource) =
      (registry.lastOfCollection resources resource).bind registry.registrationOf := by
  have hp : (fun served => (registry.registrationOf served).any (·.gvr = resource)) =
      fun served => decide ((registry.typeServed served).isSome ∧
        served.1.resourceAt served.2 = resource) := by
    funext served
    cases ht : registry.typeServed served with
    | none => simp [registrationOf, ht]
    | some found =>
      rw [registrationOf, ht, Bool.eq_iff_iff, decide_eq_true_iff]
      exact decide_eq_true_iff.trans (and_iff_right rfl).symm
  rw [known_eq_filterMap, findRev?_filterMap, hp, lastOfCollection]

end Registry

namespace Mapper

/-- A discovery answer that is taken up, with the last known versions and the known types
as they were before:

* a type leads back to the kind and the collection of its last known version and has the
  flag of that resource, and a type without a known version keeps what it had;
* a collection has the type of its last known version, and one without a known version
  keeps what it had;
* each unknown version is reported once, in order, and nothing else is but the summary;
* the known versions that are counted and the unknown ones that are reported are all. -/
theorem last_known_version_decides (mapper : Mapper) (turn : Instant) (interval : Duration)
    (resources : ResourceSet) :
    let before := mapper.registry
    let after := (mapper.commit turn interval resources).registry
    let synced := (before.reconcile resources.toList).synced
    let served := Registry.servedVersions resources.toList
    let noted := served.filter fun version => before.typeServed version = none
    (∀ model,
      after.kindOf model = ((before.lastOfType resources.toList model).map fun version =>
        version.1.kindAt version.2).or (before.kindOf model) ∧
      after.resourceOf model = ((before.lastOfType resources.toList model).map fun version =>
        version.1.resourceAt version.2).or (before.resourceOf model) ∧
      after.isNamespaced model = ((before.lastOfType resources.toList model).map fun version =>
        version.1.namespaced).or (before.isNamespaced model)) ∧
    (∀ resource, after.typeOfResource resource =
      ((before.lastOfCollection resources.toList resource).bind before.typeServed).or
        (before.typeOfResource resource)) ∧
    mapper.commitEvents interval resources =
      (noted.map fun version => .unknownKind (version.1.kindAt version.2)) ++
        [.synced resources.size synced interval] ∧
    synced + noted.length = served.length := by
  intro before after synced served noted
  have hafter : after = before.registerAll (before.known resources.toList) :=
    before.registry_reconcile resources.toList
  refine ⟨fun model => ?_, fun resource => ?_, ?_, ?_⟩
  · have hlast : (before.known resources.toList).findRev? (·.model = model) = _ :=
      Registry.findRev?_known_model fun _ _ _ => rfl
    have hflag : (before.known resources.toList).findRev? (fun registration =>
        registration.model = model ∧ registration.namespaced.isSome) =
          (before.lastOfType resources.toList model).map fun served =>
            .ofResource served.1 served.2 model :=
      Registry.findRev?_known_model fun resource version found => by
        simp [Registration.ofResource]
    rw [hafter, Registry.kindOf_registerAll, Registry.resourceOf_registerAll,
      Registry.isNamespaced_registerAll, hlast, hflag, Option.map_map, Option.map_map]
    refine ⟨rfl, rfl, ?_⟩
    cases before.lastOfType resources.toList model <;> rfl
  · rw [hafter, Registry.typeOfResource_registerAll, Registry.findRev?_known_gvr,
      Option.map_bind]
    congr 2
    funext version
    rw [Function.comp_apply, Registry.registrationOf, Option.map_map]
    exact Option.map_id'
  · rw [commitEvents, Registry.unknown_reconcile, Registry.unknown_eq_map, List.map_map]
    rfl
  · have hnoted : (before.unknown resources.toList).length = noted.length := by
      rw [Registry.unknown_eq_map, List.length_map]
    rw [show synced = _ from before.synced_reconcile resources.toList, ← hnoted]
    exact before.length_known_add_length_unknown resources.toList

/-- Served by two groups, a type leads back to the later one and has both collections. -/
example :
    let mapper := Mapper.create .ofText 1 .default [⟨"V1Event", ⟨"Event"⟩, .object⟩]
    let resources := ResourceSet.ofList [⟨"", "Event", ["v1"], "events", true⟩,
      ⟨"events.k8s.io", "Event", ["v1", "v1beta1"], "events", true⟩]
    let after := (mapper.commit 0 .zero resources).registry
    after.kindOf ⟨"Event"⟩ = some ⟨"events.k8s.io", "v1", "Event"⟩ ∧
      after.typeOfResource ⟨"", "v1", "events"⟩ = some ⟨"Event"⟩ := by decide +kernel

end Mapper

end ModelRegistry
