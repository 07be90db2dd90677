import ModelRegistry.Proofs.RegistryHistory

/-!
# Coherence of the views

A registration writes a kind, a collection and perhaps a flag, each into a map of
its own, and nothing is cleaned up. Still the views never drift apart: a type that
one of them knows has a way back to a kind and to a collection, which have one
group and version, and what it leads back to is registered. For which type it is
registered is not said here: another type may have taken it since.
-/

namespace ModelRegistry

namespace Registry

/-- The views of a registry know of each other. -/
structure Coherent (registry : Registry) : Prop where
  /-- A type leads back to a kind and a collection of one group and version, or to
  neither. -/
  groupVersion : ∀ model, (registry.kindOf model).map GroupVersionKind.groupVersion =
    (registry.resourceOf model).map GroupVersionResource.groupVersion
  /-- A type with a flag leads back to a kind. -/
  flagged : ∀ model, (registry.isNamespaced model).isSome → (registry.kindOf model).isSome
  /-- The kind to which a type leads back is registered. -/
  kindRegistered : ∀ model kind, registry.kindOf model = some kind →
    (registry.byKind.lookupKey kind).isSome
  /-- The collection to which a type leads back is registered. -/
  resourceRegistered : ∀ model resource, registry.resourceOf model = some resource →
    (registry.typeOfResource resource).isSome
  /-- A type for which a kind is registered leads back to a kind. -/
  kindLeadsBack : ∀ kind model, registry.byKind.lookupKey kind = some model →
    (registry.kindOf model).isSome
  /-- A type for which a collection is registered leads back to a collection. -/
  resourceLeadsBack : ∀ resource model, registry.typeOfResource resource = some model →
    (registry.resourceOf model).isSome

/-- Without registrations the views know nothing. -/
theorem coherent_reset (registry : Registry) : registry.reset.Coherent := by
  have hk : ∀ model, registry.reset.kindOf model = none := StripedMap.lookupValue_clear _
  have hr : ∀ model, registry.reset.resourceOf model = none := StripedMap.lookupValue_clear _
  have hkind : ∀ kind, registry.reset.byKind.lookupKey kind = none := StripedMap.lookupKey_clear _
  have hresource : ∀ resource, registry.reset.typeOfResource resource = none :=
    StripedMap.lookupKey_clear _
  exact
    { groupVersion := fun model => by rw [hk, hr]; rfl
      flagged := nofun
      kindRegistered := fun model kind h => absurd ((hk model).symm.trans h) nofun
      resourceRegistered := fun model resource h => absurd ((hr model).symm.trans h) nofun
      kindLeadsBack := fun kind model h => absurd ((hkind kind).symm.trans h) nofun
      resourceLeadsBack := fun resource model h =>
        absurd ((hresource resource).symm.trans h) nofun }

namespace Coherent

variable {registry : Registry} {model : ModelType}

/-- If one direction of a two-way map leads from one end to another, the other
direction leads on from there, provided that it did so before an entry was written. -/
theorem isSome_of_written {α β : Type} [DecidableEq α] [DecidableEq β] {key first : α}
    {value second : β} {forward : Option β} {reverse : Option α}
    (leads : (if key = first then some value else forward) = some second)
    (before : forward = some second → reverse.isSome) :
    (if value = second then some key else reverse).isSome := by
  split
  · rfl
  · rename_i hn
    split at leads
    · exact absurd (Option.some.inj leads) hn
    · exact before leads

/-- A type leads back to a kind exactly if it leads back to a collection. -/
theorem isSome_kindOf_iff (h : registry.Coherent) (model : ModelType) :
    (registry.kindOf model).isSome ↔ (registry.resourceOf model).isSome := by
  have hm := congrArg Option.isSome (h.groupVersion model)
  rw [Option.isSome_map, Option.isSome_map] at hm
  rw [hm]

/-- A registration keeps the views coherent. -/
theorem register (h : registry.Coherent) (registration : Registration) :
    (registry.register registration).Coherent where
  groupVersion model := by
    rw [kindOf_register, resourceOf_register]
    split
    · rfl
    · exact h.groupVersion model
  flagged model hf := by
    rw [isNamespaced_register] at hf
    rw [kindOf_register]
    split
    · rfl
    · rename_i hm
      rw [if_neg hm] at hf
      exact h.flagged model hf
  kindRegistered model kind hk := by
    rw [kindOf_register] at hk
    rw [lookupKey_register]
    exact isSome_of_written hk (h.kindRegistered model kind)
  resourceRegistered model resource hr := by
    rw [resourceOf_register] at hr
    rw [typeOfResource_register]
    exact isSome_of_written hr (h.resourceRegistered model resource)
  kindLeadsBack kind model hk := by
    rw [lookupKey_register] at hk
    rw [kindOf_register]
    exact isSome_of_written hk (h.kindLeadsBack kind model)
  resourceLeadsBack resource model hr := by
    rw [typeOfResource_register] at hr
    rw [resourceOf_register]
    exact isSome_of_written hr (h.resourceLeadsBack resource model)

/-- Any number of registrations keeps the views coherent. -/
theorem registerAll (h : registry.Coherent) (registrations : List Registration) :
    (registry.registerAll registrations).Coherent := by
  induction registrations generalizing registry with
  | nil => exact h
  | cons head rest ih => exact ih (h.register head)

end Coherent

end Registry

namespace Session

/-- After every run the views are coherent. -/
theorem coherent_run (admission : Admission) (hashing : Hashing) (cpus : Nat) (config : Config)
    (candidates : List Candidate) (now : Instant) (source : Source) (moves : List Move) :
    ((start now (.create hashing cpus config candidates) source).run admission
      moves).mapper.registry.Coherent := by
  rw [registry_run]
  exact (Registry.coherent_reset (.ofBootstrap _ _ _ _)).registerAll _

/-- At every moment of every run from a mapper that was just made, whatever the calls
are and in whatever order the callers have their turns:

* a model type leads back to a kind exactly if it leads back to a collection, and
  these have one group and version;
* a type with a flag leads back to a kind;
* the kind and the collection to which a type leads back are registered, if only
  for another type by now;
* a type for which a kind or a collection is registered leads back to both a kind
  and a collection. -/
theorem views_agree (admission : Admission) (hashing : Hashing) (cpus : Nat) (config : Config)
    (candidates : List Candidate) (now : Instant) (source : Source) (moves : List Move) :
    let registry := ((start now (.create hashing cpus config candidates) source).run admission
      moves).mapper.registry
    (∀ model, (registry.kindOf model).isSome ↔ (registry.resourceOf model).isSome) ∧
    (∀ model kind resource, registry.kindOf model = some kind →
      registry.resourceOf model = some resource →
      kind.group = resource.group ∧ kind.version = resource.version) ∧
    (∀ model, (registry.isNamespaced model).isSome → (registry.kindOf model).isSome) ∧
    (∀ model kind, registry.kindOf model = some kind →
      (registry.byKind.lookupKey kind).isSome) ∧
    (∀ model resource, registry.resourceOf model = some resource →
      (registry.typeOfResource resource).isSome) ∧
    (∀ kind model, registry.byKind.lookupKey kind = some model →
      (registry.kindOf model).isSome ∧ (registry.resourceOf model).isSome) ∧
    (∀ resource model, registry.typeOfResource resource = some model →
      (registry.kindOf model).isSome ∧ (registry.resourceOf model).isSome) := by
  intro registry
  have h : registry.Coherent :=
    coherent_run admission hashing cpus config candidates now source moves
  refine ⟨h.isSome_kindOf_iff, ?_, h.flagged, h.kindRegistered, h.resourceRegistered, ?_, ?_⟩
  · intro model kind resource hk hr
    have hg := h.groupVersion model
    rw [hk, hr] at hg
    have he : kind.groupVersion = resource.groupVersion := Option.some.inj hg
    exact ⟨congrArg GroupVersion.group he, congrArg GroupVersion.version he⟩
  · intro kind model hk
    have hb := h.kindLeadsBack kind model hk
    exact ⟨hb, (h.isSome_kindOf_iff model).mp hb⟩
  · intro resource model hr
    have hb := h.resourceLeadsBack resource model hr
    exact ⟨(h.isSome_kindOf_iff model).mpr hb, hb⟩

/-- A collection that discovery has renamed still leads to the type, which leads back
to the new one. -/
theorem renamed_collection :
    let pods : ResourceSet := .ofList [⟨"", "Pod", ["v1"], "pods", true⟩]
    let pod : Registration := ⟨"", "v1", "Pod", "pod", none, ⟨"Pod"⟩⟩
    let moves : List Move := [.call 0 (.query (.register pod)), .turn 0, .call 0 (.refresh none),
      .turn 1, .wait 5, .turn 1]
    let registry := ((start 0 (.create .ofText 1 .default []) ⟨[⟨.ok pods, 5⟩], 0⟩).run .checkFirst
      moves).mapper.registry
    registry.typeOfResource pod.gvr = some pod.model ∧
      (registry.kindOf pod.model).isSome ∧ (registry.resourceOf pod.model).isSome ∧
      registry.resourceOf pod.model ≠ some pod.gvr := by
  intro pods pod moves registry
  have hr : registry.typeOfResource pod.gvr = some pod.model := by decide +kernel
  have hn : registry.resourceOf pod.model ≠ some pod.gvr := by decide +kernel
  obtain ⟨-, -, -, -, -, -, leadsBack⟩ :=
    views_agree .checkFirst .ofText 1 .default [] 0 ⟨[⟨.ok pods, 5⟩], 0⟩ moves
  obtain ⟨kind, resource⟩ := leadsBack pod.gvr pod.model hr
  exact ⟨hr, kind, resource, hn⟩

end Session

end ModelRegistry
