import ModelRegistry.Mapper
import ModelRegistry.Proofs.BootstrapOwners
import ModelRegistry.Proofs.Reconciliation
import ModelRegistry.Proofs.StripeRefinement

/-!
# Mappers that look alike

Two mappers look alike if they differ only in what hashing leaves open, in the stripes of
their maps, and in what is not looked at of their configurations: their maps stand for the
same plain maps, and their bootstrap layers map the same kinds to the same types, in whatever
order they go through them. Then every look-up but one is answered the same by both: of
several kinds of a type one bootstrap layer may give another one than the other does. How the
two kinds compare is a parameter, and so is what is looked at of a configuration; the usual
interval always is.
-/

namespace ModelRegistry

namespace Bootstrap

/-- Two kinds are mapped to one model type. -/
def Akin (bootstrap : Bootstrap) (one other : GroupVersionKind) : Prop :=
  ∃ model, bootstrap.byKind.lookup one = some model ∧ bootstrap.byKind.lookup other = some model

/-- No more than one kind is mapped to a model type. -/
def Sole (bootstrap : Bootstrap) (model : ModelType) : Prop :=
  ∀ one other, bootstrap.byKind.lookup one = some model →
    bootstrap.byKind.lookup other = some model → one = other

/-- Two bootstrap layers map the same kinds to the same model types, and the kinds that they
give a model type compare in a certain way. -/
structure Alike (told : GroupVersionKind → GroupVersionKind → Prop) (first second : Bootstrap) :
    Prop where
  /-- Every kind is mapped to the same model type. -/
  typeOf : first.byKind.lookup = second.byKind.lookup
  /-- A model type is given a kind by both, and these compare, or by none. -/
  kinds : ∀ model, Option.Rel told (first.kindOf model) (second.kindOf model)

namespace Alike

variable {told : GroupVersionKind → GroupVersionKind → Prop} {first second : Bootstrap}
  {model : ModelType}

/-- A bootstrap layer gives the kinds that it gives. -/
theorem refl (bootstrap : Bootstrap) : bootstrap.Alike Eq bootstrap where
  typeOf := rfl
  kinds model := by
    cases bootstrap.kindOf model with
    | none => exact .none
    | some kind => exact .some rfl

/-- In whatever order the same kinds are gone through, a model type is given kinds of its own
by both layers. -/
theorem of_typeOf (h : first.byKind.lookup = second.byKind.lookup) :
    first.Alike first.Akin second where
  typeOf := h
  kinds model := by
    have hnone : first.kindOf model = none ↔ second.kindOf model = none := by
      rw [kindOf_eq_none_iff, kindOf_eq_none_iff, h]
    cases hf : first.kindOf model with
    | none =>
      rw [hnone.mp hf]
      exact .none
    | some one =>
      cases hs : second.kindOf model with
      | none => rw [hnone.mpr hs] at hf; cases hf
      | some other => exact .some ⟨model, lookup_of_kindOf hf, h ▸ lookup_of_kindOf hs⟩

/-- Two layers may give a model type different kinds. -/
example :
    let candidates : List Candidate :=
      [⟨"V1Pod", ⟨"Pod"⟩, .object⟩, ⟨"AppsV1Pod", ⟨"Pod"⟩, .object⟩]
    (build .asMapped .builtin candidates).kindOf ⟨"Pod"⟩ = some ⟨"", "v1", "Pod"⟩ ∧
      (build ⟨List.reverse, List.reverse_perm⟩ .builtin candidates).kindOf ⟨"Pod"⟩ =
        some ⟨"apps", "v1", "Pod"⟩ := by
  decide +kernel

/-- The order of two layers does not matter. -/
theorem symm (h : first.Alike told second) : second.Alike (flip told) first where
  typeOf := h.typeOf.symm
  kinds model := by
    have hk := h.kinds model
    generalize first.kindOf model = one at hk ⊢
    generalize second.kindOf model = other at hk ⊢
    cases hk with
    | none => exact .none
    | some compare => exact .some compare

/-- A kind is looked up with the same model type. -/
theorem lookup_eq (h : first.Alike told second) (kind : GroupVersionKind) :
    first.lookup kind = second.lookup kind := by
  rw [lookup, lookup, h.typeOf]

/-- A model type with no more than one kind is given it by both, or none by both. -/
theorem kindOf_eq (h : first.Alike told second) (sole : first.Sole model) :
    first.kindOf model = second.kindOf model := by
  have hk := h.kinds model
  generalize hf : first.kindOf model = one at hk ⊢
  generalize hs : second.kindOf model = other at hk ⊢
  cases hk with
  | none => rfl
  | some compare => rw [sole _ _ (lookup_of_kindOf hf) (h.typeOf ▸ lookup_of_kindOf hs)]

/-- There are as many kinds. -/
theorem size_eq (h : first.Alike told second) : first.size = second.size :=
  (Table.entries_perm (congrFun h.typeOf)).length_eq

end Alike

end Bootstrap

/-- Two maps in stripes stand for one plain map. -/
def StripedMap.Alike {κ υ : Type} [DecidableEq κ] [DecidableEq υ]
    (first second : StripedMap κ υ) : Prop :=
  ∃ plain, first.Represents plain ∧ second.Represents plain

namespace StripedMap.Alike

variable {κ υ : Type} [DecidableEq κ] [DecidableEq υ] {first second : StripedMap κ υ}

/-- Maps without entries are alike, whatever their digests and stripes are. -/
theorem empty (digests others : Digests κ υ) (stripes more : Nat) :
    (StripedMap.empty digests stripes).Alike (.empty others more) :=
  ⟨.empty, .empty digests stripes, .empty others more⟩

/-- Cleared maps are alike. -/
theorem clear (first second : StripedMap κ υ) : first.clear.Alike second.clear :=
  ⟨.empty, .clear first, .clear second⟩

/-- The order of two maps does not matter. -/
theorem symm (h : first.Alike second) : second.Alike first := by
  obtain ⟨plain, hf, hs⟩ := h
  exact ⟨plain, hs, hf⟩

/-- Keys have the same values in maps that are alike. -/
theorem lookupKey_eq (h : first.Alike second) (key : κ) :
    first.lookupKey key = second.lookupKey key := by
  obtain ⟨plain, hf, hs⟩ := h
  rw [hf.lookupKey, hs.lookupKey]

/-- Values have the same keys in maps that are alike. -/
theorem lookupValue_eq (h : first.Alike second) (value : υ) :
    first.lookupValue value = second.lookupValue value := by
  obtain ⟨plain, hf, hs⟩ := h
  rw [hf.lookupValue, hs.lookupValue]

/-- Maps that are alike have as many keys. -/
theorem size_eq (h : first.Alike second) : first.size = second.size := by
  obtain ⟨plain, hf, hs⟩ := h
  rw [hf.size, hs.size]

/-- Writing keeps maps alike. -/
theorem insert (h : first.Alike second) (key : κ) (value : υ) :
    (first.insert key value).Alike (second.insert key value) := by
  obtain ⟨plain, hf, hs⟩ := h
  exact ⟨_, hf.insert key value, hs.insert key value⟩

end StripedMap.Alike

/-- Two registries differ only in how their maps are striped, and in the kinds that their
bootstrap layers give model types. -/
structure Registry.Alike (told : GroupVersionKind → GroupVersionKind → Prop)
    (first second : Registry) : Prop where
  /-- The bootstrap layers are alike. -/
  bootstrap : first.bootstrap.Alike told second.bootstrap
  /-- The registered kinds are alike. -/
  byKind : first.byKind.Alike second.byKind
  /-- The registered collections are alike. -/
  byResource : first.byResource.Alike second.byResource
  /-- The known flags are the same. -/
  namespaced : first.namespaced = second.namespaced

namespace Registry.Alike

variable {told : GroupVersionKind → GroupVersionKind → Prop} {first second : Registry}

/-- Registries without registrations are alike if their bootstrap layers are. -/
theorem ofBootstrap {bootstrap other : Bootstrap} (h : bootstrap.Alike told other)
    (kinds others : Digests GroupVersionKind ModelType)
    (resources more : Digests GroupVersionResource ModelType) (stripes count : Nat) :
    (Registry.ofBootstrap bootstrap kinds resources stripes).Alike told
      (.ofBootstrap other others more count) :=
  ⟨h, .empty _ _ _ _, .empty _ _ _ _, rfl⟩

/-- The order of two registries does not matter. -/
theorem symm (h : first.Alike told second) : second.Alike (flip told) first :=
  ⟨h.bootstrap.symm, h.byKind.symm, h.byResource.symm, h.namespaced.symm⟩

/-- A kind has the same model type in both. -/
theorem typeOfKind_eq (h : first.Alike told second) :
    first.typeOfKind = second.typeOfKind := by
  funext kind
  rw [typeOfKind, typeOfKind, h.byKind.lookupKey_eq, h.bootstrap.lookup_eq]

/-- A collection has the same model type in both. -/
theorem typeOfResource_eq (h : first.Alike told second) (resource : GroupVersionResource) :
    first.typeOfResource resource = second.typeOfResource resource :=
  h.byResource.lookupKey_eq resource

/-- A model type leads back to the same kind in both. -/
theorem kindOf_eq (h : first.Alike told second) (model : ModelType) :
    first.kindOf model = second.kindOf model := h.byKind.lookupValue_eq model

/-- A model type leads back to the same collection in both. -/
theorem resourceOf_eq (h : first.Alike told second) (model : ModelType) :
    first.resourceOf model = second.resourceOf model := h.byResource.lookupValue_eq model

/-- A model type has the same flag in both. -/
theorem isNamespaced_eq (h : first.Alike told second) (model : ModelType) :
    first.isNamespaced model = second.isNamespaced model := by
  rw [isNamespaced, isNamespaced, h.namespaced]

/-- Registering keeps registries alike. -/
theorem register (h : first.Alike told second) (registration : Registration) :
    (first.register registration).Alike told (second.register registration) where
  bootstrap := h.bootstrap
  byKind := h.byKind.insert registration.gvk registration.model
  byResource := h.byResource.insert registration.gvr registration.model
  namespaced := by rw [Registry.register, Registry.register, h.namespaced]

/-- Any number of registrations keep registries alike. -/
theorem registerAll (h : first.Alike told second) (registrations : List Registration) :
    (first.registerAll registrations).Alike told (second.registerAll registrations) := by
  induction registrations generalizing first second with
  | nil => exact h
  | cons head rest ih => exact ih (h.register head)

/-- Dropping all registrations keeps registries alike. -/
theorem reset (h : first.Alike told second) : first.reset.Alike told second.reset where
  bootstrap := h.bootstrap
  byKind := .clear first.byKind second.byKind
  byResource := .clear first.byResource second.byResource
  namespaced := rfl

/-- A reconciliation keeps registries alike. -/
theorem reconcile (h : first.Alike told second) (resources : List ApiResource) :
    (first.reconcile resources).registry.Alike told (second.reconcile resources).registry := by
  rw [registry_reconcile, registry_reconcile, known, known, h.typeOfKind_eq]
  exact h.registerAll _

end Registry.Alike

/-- Two mappers differ only in what hashing leaves open, in their stripes, and in what is not
looked at of their configurations. -/
structure Mapper.Alike (view : Config → Config)
    (told : GroupVersionKind → GroupVersionKind → Prop)
    (first second : Mapper) : Prop where
  /-- What is looked at of the configurations is the same. -/
  config : view first.config = view second.config
  /-- The usual interval is the same. -/
  interval : first.config.refreshInterval = second.config.refreshInterval
  /-- The registries are alike. -/
  registry : first.registry.Alike told second.registry
  /-- The last discovery answers are the same. -/
  refresh : first.refresh = second.refresh

namespace Mapper.Alike

variable {view : Config → Config} {told : GroupVersionKind → GroupVersionKind → Prop}
  {first second : Mapper}

/-- The order of two mappers does not matter. -/
theorem symm (h : first.Alike view told second) : second.Alike view (flip told) first :=
  ⟨h.config.symm, h.interval.symm, h.registry.symm, h.refresh.symm⟩

/-- Mappers that were just made are alike, however they hash, if their configurations look the
same and their bootstrap layers are alike. -/
theorem create {hashing another : Hashing} (cpus : Nat) {config other : Config}
    {candidates others : List Candidate} (same : view config = view other)
    (interval : config.refreshInterval = other.refreshInterval)
    (layers : (Bootstrap.build hashing.order (.withExtra config.extraStems) candidates).Alike told
      (.build another.order (.withExtra other.extraStems) others)) :
    (Mapper.create hashing cpus config candidates).Alike view told
      (.create another cpus other others) where
  config := same
  interval := interval
  registry := .ofBootstrap layers _ _ _ _ _ _
  refresh := by rw [Mapper.create, Mapper.create]

/-- Taking up a discovery answer keeps mappers alike. -/
theorem commit (h : first.Alike view told second) (turn : Instant) (interval : Duration)
    (resources : ResourceSet) :
    (first.commit turn interval resources).Alike view told
      (second.commit turn interval resources) where
  config := h.config
  interval := h.interval
  registry := h.registry.reconcile resources.toList
  refresh := by rw [Mapper.commit, Mapper.commit, h.refresh]

/-- Taking up a discovery answer reports the same of mappers that are alike. -/
theorem commitEvents_eq (h : first.Alike view told second) (interval : Duration)
    (resources : ResourceSet) :
    first.commitEvents interval resources = second.commitEvents interval resources := by
  simp only [commitEvents, Registry.synced_reconcile, Registry.unknown_reconcile, Registry.known,
    Registry.unknown, h.registry.typeOfKind_eq]

/-- Dropping everything reports the same of mappers that are alike. -/
theorem resetEvents_eq (h : first.Alike view told second) :
    first.resetEvents = second.resetEvents := by
  rw [resetEvents, resetEvents, h.registry.byKind.size_eq, h.registry.byResource.size_eq]

end Mapper.Alike

end ModelRegistry
