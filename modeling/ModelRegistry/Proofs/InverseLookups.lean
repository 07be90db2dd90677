import ModelRegistry.Proofs.RegistryHistory

/-!
# Where the two directions agree

A model type leads back to the kind and the collection of its last registration. These
lead to the type again exactly as long as no other type is registered under them, be it
by a caller or by discovery; each of the two is lost on its own. So of the types that
lead back to one kind, or to one collection, at most one is found there. It need not be
one of them: a type may move on to another kind and is still found under the old one.
-/

namespace ModelRegistry.Session

/-- After any run from a mapper that was just made, whatever the calls are and in whatever
order the callers have their turns:

* the kind to which a model type leads back is that of the last registration of the type
  since the last reset, and it leads to the type exactly if no registration after that one,
  made by a caller or by discovery, gave the kind to another type;
* the same is so for the collection to which a type leads back;
* at most one type leads back to a kind that leads to the type, and at most one to a
  collection that does. -/
theorem inverse_until_taken (admission : Admission) (hashing : Hashing) (cpus : Nat)
    (config : Config) (candidates : List Candidate) (now : Instant) (source : Source)
    (moves : List Move) :
    let first := start now (.create hashing cpus config candidates) source
    let registry := (first.run admission moves).mapper.registry
    let history := Change.history (first.changes admission moves)
    (∀ model kind, registry.kindOf model = some kind →
      ∃ earlier last later, history = earlier ++ last :: later ∧
        last.model = model ∧ last.gvk = kind ∧ (∀ other ∈ later, other.model ≠ model) ∧
        (registry.typeOfKind kind = some model ↔
          ∀ other ∈ later, other.gvk = kind → other.model = model)) ∧
    (∀ model resource, registry.resourceOf model = some resource →
      ∃ earlier last later, history = earlier ++ last :: later ∧
        last.model = model ∧ last.gvr = resource ∧ (∀ other ∈ later, other.model ≠ model) ∧
        (registry.typeOfResource resource = some model ↔
          ∀ other ∈ later, other.gvr = resource → other.model = model)) ∧
    (∀ kind model other,
      registry.kindOf model = some kind → registry.typeOfKind kind = some model →
      registry.kindOf other = some kind → registry.typeOfKind kind = some other →
      model = other) ∧
    (∀ resource model other,
      registry.resourceOf model = some resource → registry.typeOfResource resource = some model →
      registry.resourceOf other = some resource → registry.typeOfResource resource = some other →
      model = other) := by
  intro first registry history
  have hr : registry = _ := registry_run admission hashing cpus config candidates now source moves
  refine ⟨?_, ?_, ?_, ?_⟩
  · intro model kind back
    rw [hr, Registry.kindOf_registerAll, Registry.kindOf_ofBootstrap, Option.or_none] at back
    rw [hr, Registry.typeOfKind_registerAll]
    exact exists_last_of_value back _
  · intro model resource back
    rw [hr, Registry.resourceOf_registerAll, Registry.resourceOf_ofBootstrap,
      Option.or_none] at back
    rw [hr, Registry.typeOfResource_registerAll]
    exact exists_last_of_value back _
  · intro kind model other _ found _ also
    exact Option.some.inj (found.symm.trans also)
  · intro resource model other _ found _ also
    exact Option.some.inj (found.symm.trans also)

/-- A kind that a second type takes is lost to the first one, whose collection still leads
to it. -/
theorem kind_taken_collection_kept :
    let pod : Registration := ⟨"", "v1", "Pod", "pods", none, ⟨"Pod"⟩⟩
    let other : Registration := ⟨"", "v1", "Pod", "others", none, ⟨"Other"⟩⟩
    let first := start 0 (.create .ofText 1 .default []) .empty
    let moves : List Move := [.call 0 (.query (.register pod)), .turn 0,
      .call 0 (.query (.register other)), .turn 1]
    let registry := (first.run .checkFirst moves).mapper.registry
    registry.kindOf pod.model = some pod.gvk ∧ registry.typeOfKind pod.gvk ≠ some pod.model ∧
      (∃ earlier last later,
        Change.history (first.changes .checkFirst moves) = earlier ++ last :: later ∧
        last.model = pod.model ∧
        ∃ taker ∈ later, taker.gvk = pod.gvk ∧ taker.model ≠ pod.model) ∧
      registry.resourceOf pod.model = some pod.gvr ∧
      ∃ earlier last later,
        Change.history (first.changes .checkFirst moves) = earlier ++ last :: later ∧
        last.model = pod.model ∧
        ∀ other ∈ later, other.gvr = pod.gvr → other.model = pod.model := by
  intro pod other first moves registry
  obtain ⟨kinds, resources, -, -⟩ :=
    inverse_until_taken .checkFirst .ofText 1 .default [] 0 .empty moves
  have hk : registry.kindOf pod.model = some pod.gvk := by decide +kernel
  have ht : registry.typeOfKind pod.gvk ≠ some pod.model := by decide +kernel
  have hr : registry.resourceOf pod.model = some pod.gvr := by decide +kernel
  have hc : registry.typeOfResource pod.gvr = some pod.model := by decide +kernel
  obtain ⟨earlier, last, later, hcut, hm, -, -, hi⟩ := kinds pod.model pod.gvk hk
  obtain ⟨earlier', last', later', hcut', hm', -, -, hi'⟩ := resources pod.model pod.gvr hr
  have taken := mt hi.mpr ht
  push Not at taken
  exact ⟨hk, ht, ⟨earlier, last, later, hcut, hm, taken⟩, hr, earlier', last', later', hcut', hm',
    hi'.mp hc⟩

end ModelRegistry.Session
