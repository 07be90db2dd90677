import ModelRegistry.Proofs.RegistryHistory

/-!
# Order of a reconciliation

A set of served resources is taken up in some order, which says nothing about the
resources. Whatever the order is, the same kinds are known and the same are noted,
since no registration on the way gives a kind another type; so the same kinds and
collections are registered and the same types have a way back. What a collection or
a type leads to is that of the last registration, so it may depend on the order, but
only if different resources have a type or a collection in common. The order of the
versions of one resource is part of the resource.
-/

namespace ModelRegistry

/-- If the items of a kind come from one source, they come in one order, whatever the
order of the sources is. -/
theorem filter_flatMap_perm {α β : Type} {first second : List α} (same : first.Perm second)
    (items : α → List β) (p : β → Bool)
    (apart : ∀ a ∈ first, ∀ b ∈ first, a ≠ b →
      (items a).filter p = [] ∨ (items b).filter p = []) :
    (first.flatMap items).filter p = (second.flatMap items).filter p := by
  induction same with
  | nil => rfl
  | cons a _ ih =>
    have hr := ih fun b hb c hc =>
      apart b (List.mem_cons_of_mem a hb) c (List.mem_cons_of_mem a hc)
    rw [List.flatMap_cons, List.flatMap_cons, List.filter_append, List.filter_append, hr]
  | swap a b rest =>
    simp only [List.flatMap_cons, List.filter_append, ← List.append_assoc]
    congr 1
    -- Of two different sources one has no such item.
    by_cases he : a = b
    · rw [he]
    · rcases apart a (by simp) b (by simp) he with ha | hb
      · rw [ha, List.append_nil, List.nil_append]
      · rw [hb, List.append_nil, List.nil_append]
  | trans one _ ih ih' =>
    refine (ih apart).trans (ih' fun a ha b hb => ?_)
    exact apart a (one.mem_iff.mpr ha) b (one.mem_iff.mpr hb)

namespace Registry

/-- The registrations that take up one served resource. -/
def knownOf (registry : Registry) (resource : ApiResource) : List Registration :=
  resource.versions.filterMap fun version =>
    (registry.typeOfKind (resource.kindAt version)).map (.ofResource resource version)

/-- The registrations that take up some served resources are those of each resource. -/
theorem known_eq_flatMap (registry : Registry) (resources : List ApiResource) :
    registry.known resources = resources.flatMap registry.knownOf := by
  rw [known, servedVersions, List.filterMap_flatMap]
  simp only [List.filterMap_map]
  rfl

/-- A registration that takes up a resource is that of one of its versions. -/
theorem mem_knownOf {registry : Registry} {resource : ApiResource} {registration : Registration} :
    registration ∈ registry.knownOf resource ↔
      ∃ version ∈ resource.versions, ∃ model,
        registry.typeOfKind (resource.kindAt version) = some model ∧
        .ofResource resource version model = registration := by
  simp only [knownOf, List.mem_filterMap, Option.map_eq_some_iff]

variable {first second : List ApiResource}

/-- The served versions are the same in any order of the resources. -/
theorem servedVersions_perm (same : first.Perm second) :
    (servedVersions first).Perm (servedVersions second) := same.flatMap_right _

/-- The registrations that are made are the same in any order of the resources. -/
theorem known_perm (registry : Registry) (same : first.Perm second) :
    (registry.known first).Perm (registry.known second) := (servedVersions_perm same).filterMap _

/-- The kinds that are noted are the same in any order of the resources. -/
theorem unknown_perm (registry : Registry) (same : first.Perm second) :
    (registry.unknown first).Perm (registry.unknown second) :=
  ((servedVersions_perm same).map _).filter _

/-- Different resources have neither a model type nor a collection in common. -/
def Apart (registry : Registry) (resources : List ApiResource) : Prop :=
  ∀ a ∈ resources, ∀ b ∈ resources, a ≠ b → ∀ version ∈ a.versions, ∀ other ∈ b.versions,
    ∀ model another, registry.typeOfKind (a.kindAt version) = some model →
      registry.typeOfKind (b.kindAt other) = some another →
      model ≠ another ∧ a.resourceAt version ≠ b.resourceAt other

/-- The last registration that concerns a type or a collection is the same in any order
of the resources, if it is concerned by one resource only. -/
theorem findRev?_known_perm {registry : Registry} (same : first.Perm second)
    (p : Registration → Bool)
    (apart : ∀ a ∈ first, ∀ b ∈ first, a ≠ b → ∀ registration ∈ registry.knownOf a,
      ∀ other ∈ registry.knownOf b, ¬(p registration = true ∧ p other = true)) :
    (registry.known first).findRev? p = (registry.known second).findRev? p := by
  have hone : ∀ a ∈ first, ∀ b ∈ first, a ≠ b →
      (registry.knownOf a).filter p = [] ∨ (registry.knownOf b).filter p = [] := by
    intro a ha b hb hne
    by_cases hc : ∃ registration ∈ registry.knownOf a, p registration = true
    · obtain ⟨registration, hr, hp⟩ := hc
      exact .inr (List.filter_eq_nil_iff.mpr fun other ho hq =>
        apart a ha b hb hne registration hr other ho ⟨hp, hq⟩)
    · exact .inl (List.filter_eq_nil_iff.mpr fun registration hr hp => hc ⟨registration, hr, hp⟩)
  rw [findRev?_eq_getLast?_filter, findRev?_eq_getLast?_filter, known_eq_flatMap, known_eq_flatMap,
    filter_flatMap_perm same registry.knownOf p hone]

/-- Which kinds and collections are registered, and which types have a way back, does
not depend on the order of the registrations. -/
theorem isSome_registerAll_perm (registry : Registry) {registrations others : List Registration}
    (same : registrations.Perm others) (kind : GroupVersionKind) (resource : GroupVersionResource)
    (model : ModelType) :
    ((registry.registerAll registrations).byKind.lookupKey kind).isSome =
        ((registry.registerAll others).byKind.lookupKey kind).isSome ∧
      ((registry.registerAll registrations).typeOfResource resource).isSome =
        ((registry.registerAll others).typeOfResource resource).isSome ∧
      ((registry.registerAll registrations).kindOf model).isSome =
        ((registry.registerAll others).kindOf model).isSome ∧
      ((registry.registerAll registrations).resourceOf model).isSome =
        ((registry.registerAll others).resourceOf model).isSome := by
  simp only [lookupKey_registerAll, typeOfResource_registerAll, kindOf_registerAll,
    resourceOf_registerAll, Option.isSome_or, Option.isSome_map, isSome_findRev?_perm same,
    and_self]

/-- If different resources have nothing in common, what a collection and a type lead to
does not depend on the order of the resources. -/
theorem Apart.registerAll_known {registry : Registry} (apart : registry.Apart first)
    (same : first.Perm second) (resource : GroupVersionResource) (model : ModelType) :
    (registry.registerAll (registry.known first)).typeOfResource resource =
        (registry.registerAll (registry.known second)).typeOfResource resource ∧
      (registry.registerAll (registry.known first)).kindOf model =
        (registry.registerAll (registry.known second)).kindOf model ∧
      (registry.registerAll (registry.known first)).resourceOf model =
        (registry.registerAll (registry.known second)).resourceOf model ∧
      (registry.registerAll (registry.known first)).isNamespaced model =
        (registry.registerAll (registry.known second)).isNamespaced model := by
  have hne : ∀ a ∈ first, ∀ b ∈ first, a ≠ b → ∀ registration ∈ registry.knownOf a,
      ∀ other ∈ registry.knownOf b,
      registration.model ≠ other.model ∧ registration.gvr ≠ other.gvr := by
    intro a ha b hb hab registration hr other ho
    obtain ⟨version, hv, found, hf, rfl⟩ := mem_knownOf.mp hr
    obtain ⟨version', hv', found', hf', rfl⟩ := mem_knownOf.mp ho
    exact apart a ha b hb hab version hv version' hv' found found' hf hf'
  have hresource := findRev?_known_perm same (decide <| ·.gvr = resource) fun a ha b hb hab
    registration hr other ho hc => (hne a ha b hb hab registration hr other ho).2
      ((of_decide_eq_true hc.1).trans (of_decide_eq_true hc.2).symm)
  have hmodel := findRev?_known_perm same (decide <| ·.model = model) fun a ha b hb hab
    registration hr other ho hc => (hne a ha b hb hab registration hr other ho).1
      ((of_decide_eq_true hc.1).trans (of_decide_eq_true hc.2).symm)
  have hflag := findRev?_known_perm same
    (fun registration => decide (registration.model = model ∧ registration.namespaced.isSome))
    fun a ha b hb hab registration hr other ho hc =>
      (hne a ha b hb hab registration hr other ho).1
        ((of_decide_eq_true hc.1).1.trans (of_decide_eq_true hc.2).1.symm)
  rw [typeOfResource_registerAll, typeOfResource_registerAll, hresource, kindOf_registerAll,
    kindOf_registerAll, resourceOf_registerAll, resourceOf_registerAll, hmodel,
    isNamespaced_registerAll, isNamespaced_registerAll, hflag]
  exact ⟨rfl, rfl, rfl, rfl⟩

/-- A registry that is reconciled with one set of served resources in two orders:

* counts as many known kinds, notes the same unknown ones, has the same type for
  every kind, the same kinds and collections registered, and a way back for the same
  types;
* answers every look-up the same, if no two different resources have a model type or
  a collection in common at versions whose kinds are known. -/
theorem reconciliation_order (registry : Registry) (first second : ResourceSet)
    (same : first.toList.Perm second.toList) :
    let one := registry.reconcile first.toList
    let other := registry.reconcile second.toList
    (one.synced = other.synced ∧ one.unknown.Perm other.unknown ∧
      ∀ kind resource model,
        one.registry.typeOfKind kind = other.registry.typeOfKind kind ∧
        (one.registry.byKind.lookupKey kind).isSome =
          (other.registry.byKind.lookupKey kind).isSome ∧
        (one.registry.typeOfResource resource).isSome =
          (other.registry.typeOfResource resource).isSome ∧
        (one.registry.kindOf model).isSome = (other.registry.kindOf model).isSome ∧
        (one.registry.resourceOf model).isSome = (other.registry.resourceOf model).isSome) ∧
    ((∀ a ∈ first.toList, ∀ b ∈ first.toList, a ≠ b → ∀ version ∈ a.versions,
        ∀ version' ∈ b.versions, ∀ model model',
        registry.typeOfKind (a.kindAt version) = some model →
        registry.typeOfKind (b.kindAt version') = some model' →
        model ≠ model' ∧ a.resourceAt version ≠ b.resourceAt version') →
      ∀ kind resource model,
        one.registry.typeOfKind kind = other.registry.typeOfKind kind ∧
        one.registry.typeOfResource resource = other.registry.typeOfResource resource ∧
        one.registry.kindOf model = other.registry.kindOf model ∧
        one.registry.resourceOf model = other.registry.resourceOf model ∧
        one.registry.isNamespaced model = other.registry.isNamespaced model) := by
  intro one other
  have ht : ∀ kind, one.registry.typeOfKind kind = other.registry.typeOfKind kind := by
    intro kind
    rw [show one.registry.typeOfKind = _ from registry.typeOfKind_reconcile first.toList,
      show other.registry.typeOfKind = _ from registry.typeOfKind_reconcile second.toList]
  have hone : one.registry = _ := registry.registry_reconcile first.toList
  have hother : other.registry = _ := registry.registry_reconcile second.toList
  refine ⟨⟨?_, ?_, fun kind resource model => ⟨ht kind, ?_⟩⟩,
    fun apart kind resource model => ⟨ht kind, ?_⟩⟩
  · rw [show one.synced = _ from registry.synced_reconcile first.toList,
      show other.synced = _ from registry.synced_reconcile second.toList]
    exact (registry.known_perm same).length_eq
  · rw [show one.unknown = _ from registry.unknown_reconcile first.toList,
      show other.unknown = _ from registry.unknown_reconcile second.toList]
    exact registry.unknown_perm same
  · rw [hone, hother]
    exact registry.isSome_registerAll_perm (registry.known_perm same) kind resource model
  · rw [hone, hother]
    exact Apart.registerAll_known apart same resource model

/-- Pods and nodes are taken up in either order: what is unknown is noted, and every
look-up is answered the same. -/
theorem pods_and_nodes :
    let pods : ApiResource := ⟨"", "Pod", ["v1", "v2"], "pods", true⟩
    let nodes : ApiResource := ⟨"", "Node", ["v1"], "nodes", false⟩
    let empty := ofBootstrap (.build .asMapped .builtin []) ⟨hash, hash⟩ ⟨hash, hash⟩ 4
    let registry := (empty.register ⟨"", "v1", "Pod", "pod", none, ⟨"Pod"⟩⟩).register
      ⟨"", "v1", "Node", "node", none, ⟨"Node"⟩⟩
    let one := registry.reconcile (ResourceSet.ofList [pods, nodes]).toList
    let other := registry.reconcile (ResourceSet.ofList [nodes, pods]).toList
    one.synced = 2 ∧ other.synced = 2 ∧ one.unknown = [pods.kindAt "v2"] ∧
      one.unknown.Perm other.unknown ∧
      one.registry.resourceOf ⟨"Pod"⟩ = some (pods.resourceAt "v1") ∧
      other.registry.resourceOf ⟨"Pod"⟩ = some (pods.resourceAt "v1") := by
  intro pods nodes empty registry one other
  have same : (ResourceSet.ofList [pods, nodes]).toList.Perm
      (ResourceSet.ofList [nodes, pods]).toList := List.Perm.swap _ _ _
  have apart : ∀ a ∈ (ResourceSet.ofList [pods, nodes]).toList,
      ∀ b ∈ (ResourceSet.ofList [pods, nodes]).toList, a ≠ b →
      ∀ version ∈ a.versions, ∀ version' ∈ b.versions,
      ∀ model ∈ registry.typeOfKind (a.kindAt version),
      ∀ model' ∈ registry.typeOfKind (b.kindAt version'),
      model ≠ model' ∧ a.resourceAt version ≠ b.resourceAt version' := by decide +kernel
  obtain ⟨⟨synced, unknown, -⟩, alike⟩ := reconciliation_order registry _ _ same
  have hr : one.registry.resourceOf ⟨"Pod"⟩ = some (pods.resourceAt "v1") := by decide +kernel
  obtain ⟨-, -, -, hw, -⟩ := alike
    (fun a ha b hb hne version hv version' hv' model model' hm hm' =>
      apart a ha b hb hne version hv version' hv' model hm model' hm')
    (pods.kindAt "v1") (pods.resourceAt "v1") ⟨"Pod"⟩
  have hs : one.synced = 2 := by decide +kernel
  exact ⟨hs, synced.symm.trans hs, by decide +kernel, unknown, hr, hw.symm.trans hr⟩

end Registry

end ModelRegistry
