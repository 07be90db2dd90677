import ModelRegistry.Bootstrap
import ModelRegistry.StripedMap

/-!
# The registry

A registry maps kinds and collections to model types and back. What is
registered lies over the bootstrap layer: a kind is looked up among the
registrations first. Collections, the way back and the namespaced flags know
registrations only. A registration overwrites what it names and nothing else,
so an earlier kind of a type keeps leading to it.
-/

namespace ModelRegistry

/-- A model type with its kind, its collection and perhaps its flag. -/
structure Registration where
  /-- The group; empty for the core group. -/
  group : String
  /-- The version. -/
  version : String
  /-- The kind of the objects. -/
  kind : String
  /-- The plural name of the resource. -/
  plural : String
  /-- Whether the objects live in a namespace, if that is said. -/
  namespaced : Option Bool
  /-- The model type. -/
  model : ModelType
deriving DecidableEq

namespace Registration

/-- The identifier of the kind. -/
def gvk (registration : Registration) : GroupVersionKind :=
  ⟨registration.group, registration.version, registration.kind⟩

/-- The identifier of the collection. -/
def gvr (registration : Registration) : GroupVersionResource :=
  ⟨registration.group, registration.version, registration.plural⟩

/-- A registration under the written form of group and version. -/
def ofText (groupVersion kind plural : String) (namespaced : Option Bool) (model : ModelType) :
    Registration :=
  let gv := GroupVersion.ofText groupVersion
  ⟨gv.group, gv.version, kind, plural, namespaced, model⟩

/-- The registration of a served resource at one version. -/
def ofResource (resource : ApiResource) (version : String) (model : ModelType) : Registration :=
  ⟨resource.group, version, resource.kind, resource.plural, some resource.namespaced, model⟩

end Registration

/-- Mappings between identifiers and model types. -/
structure Registry where
  /-- The mapping derived from names. -/
  bootstrap : Bootstrap
  /-- The registered kinds. -/
  byKind : StripedMap GroupVersionKind ModelType
  /-- The registered collections. -/
  byResource : StripedMap GroupVersionResource ModelType
  /-- The known namespaced flags. -/
  namespaced : Table ModelType Bool

namespace Registry

/-- A registry without registrations. -/
def ofBootstrap (bootstrap : Bootstrap) (kinds : Digests GroupVersionKind ModelType)
    (resources : Digests GroupVersionResource ModelType) (stripes : Nat) : Registry :=
  ⟨bootstrap, .empty kinds stripes, .empty resources stripes, .empty⟩

/-- Registers a model type under its kind and its collection; its flag changes
only if one is given. -/
def register (registry : Registry) (registration : Registration) : Registry :=
  { registry with
    namespaced :=
      match registration.namespaced with
      | some flag => registry.namespaced.insert registration.model flag
      | none => registry.namespaced
    byResource := registry.byResource.insert registration.gvr registration.model
    byKind := registry.byKind.insert registration.gvk registration.model }

/-- The model type of a kind: the registered one, or that of the bootstrap
layer. -/
def typeOfKind (registry : Registry) (kind : GroupVersionKind) : Option ModelType :=
  (registry.byKind.lookupKey kind).or (registry.bootstrap.lookup kind)

/-- The model type registered for a collection. -/
def typeOfResource (registry : Registry) (resource : GroupVersionResource) : Option ModelType :=
  registry.byResource.lookupKey resource

/-- The kind under which a model type was registered last. -/
def kindOf (registry : Registry) (model : ModelType) : Option GroupVersionKind :=
  registry.byKind.lookupValue model

/-- The collection under which a model type was registered last. -/
def resourceOf (registry : Registry) (model : ModelType) : Option GroupVersionResource :=
  registry.byResource.lookupValue model

/-- The flag of a model type, if one was given. -/
def isNamespaced (registry : Registry) (model : ModelType) : Option Bool :=
  registry.namespaced.lookup model

/-- The registry without registrations, over the same bootstrap layer. -/
def reset (registry : Registry) : Registry :=
  { registry with
    byKind := registry.byKind.clear
    byResource := registry.byResource.clear
    namespaced := .empty }

/-- What a reconciliation comes to. -/
structure Reconciliation where
  /-- The registry with the known kinds registered anew. -/
  registry : Registry
  /-- The number of known kinds. -/
  synced : Nat
  /-- The unknown kinds, in the order in which they were met. -/
  unknown : List GroupVersionKind

/-- Takes up one version of a served resource: a known kind is registered with
its plural name and its flag, an unknown one is noted. -/
def Reconciliation.take (done : Reconciliation) (served : ApiResource × String) :
    Reconciliation :=
  match done.registry.typeOfKind (served.1.kindAt served.2) with
  | some model =>
    { done with
      registry := done.registry.register (.ofResource served.1 served.2 model)
      synced := done.synced + 1 }
  | none => { done with unknown := done.unknown ++ [served.1.kindAt served.2] }

/-- Every version of every resource, in order. -/
def servedVersions (resources : List ApiResource) : List (ApiResource × String) :=
  resources.flatMap fun resource => resource.versions.map fun version => (resource, version)

/-- Registers every known kind among some served resources anew. -/
def reconcile (registry : Registry) (resources : List ApiResource) : Reconciliation :=
  (servedVersions resources).foldl Reconciliation.take ⟨registry, 0, []⟩

/-- A kind is registered for the model type it was given last. -/
theorem typeOfKind_register (registry : Registry) (registration : Registration)
    (kind : GroupVersionKind) :
    (registry.register registration).typeOfKind kind =
      if registration.gvk = kind then some registration.model else registry.typeOfKind kind := by
  simp only [typeOfKind, register, StripedMap.lookupKey_insert]
  split <;> rfl

/-- A collection is registered for the model type it was given last. -/
theorem typeOfResource_register (registry : Registry) (registration : Registration)
    (resource : GroupVersionResource) :
    (registry.register registration).typeOfResource resource =
      if registration.gvr = resource then some registration.model
      else registry.typeOfResource resource :=
  StripedMap.lookupKey_insert registry.byResource registration.gvr resource registration.model

/-- The way back leads to the kind given last. -/
theorem kindOf_register (registry : Registry) (registration : Registration) (model : ModelType) :
    (registry.register registration).kindOf model =
      if registration.model = model then some registration.gvk else registry.kindOf model :=
  StripedMap.lookupValue_insert registry.byKind registration.gvk registration.model model

/-- The way back leads to the collection given last. -/
theorem resourceOf_register (registry : Registry) (registration : Registration)
    (model : ModelType) :
    (registry.register registration).resourceOf model =
      if registration.model = model then some registration.gvr else registry.resourceOf model :=
  StripedMap.lookupValue_insert registry.byResource registration.gvr registration.model model

/-- A flag is the one given last, and stays where none is given. -/
theorem isNamespaced_register (registry : Registry) (registration : Registration)
    (model : ModelType) :
    (registry.register registration).isNamespaced model =
      if registration.model = model then
        registration.namespaced.or (registry.isNamespaced model)
      else registry.isNamespaced model := by
  simp only [isNamespaced, register]
  cases registration.namespaced with
  | none => simp
  | some flag =>
    rw [Table.lookup_insert]
    split <;> rfl

end Registry

end ModelRegistry
