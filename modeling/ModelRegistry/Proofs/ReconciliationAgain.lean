import ModelRegistry.Proofs.RegistryHistory
import ModelRegistry.Proofs.StripeRefinement

/-!
# A reconciliation made again

A reconciliation that is made a second time makes the same registrations in the same order,
since the first one changes the type of no kind: where the first found a type in the bootstrap
layer, the second finds that type among the registrations. What a kind, a collection or a type
leads to is that of the last registration that concerns it, and that is the same one. No key is
new the second time, so the numbers of entries stay. One resource may overwrite what another
one has written, in both passes. Nothing is said about registrations made between the two.
-/

namespace ModelRegistry

namespace Registry

variable (registry : Registry) (registrations : List Registration)

section

variable {α : Type} {concerned : Registration → Prop} [DecidablePred concerned]
  {answer : Registration → Option α}

/-- A view that a registration overwrites exactly where it is concerned is the same after the
same registrations are made again. -/
theorem view_registerAll_again (view : Registry → Option α)
    (step : ∀ registry registration, view (registry.register registration) =
      if concerned registration then answer registration else view registry) :
    view ((registry.registerAll registrations).registerAll registrations) =
      view (registry.registerAll registrations) := by
  rw [view_registerAll view concerned answer step (registry.registerAll registrations),
    view_registerAll view concerned answer step registry]
  cases registrations.findRev? (concerned ·) <;> rfl

end

/-- After the same registrations are made again every look-up is answered the same, and so is
every look-up that leaves the bootstrap layer out. -/
theorem lookups_registerAll_again (kind : GroupVersionKind) (resource : GroupVersionResource)
    (model : ModelType) :
    let once := registry.registerAll registrations
    let twice := once.registerAll registrations
    twice.typeOfKind kind = once.typeOfKind kind ∧
      twice.typeOfResource resource = once.typeOfResource resource ∧
      twice.kindOf model = once.kindOf model ∧
      twice.resourceOf model = once.resourceOf model ∧
      twice.isNamespaced model = once.isNamespaced model ∧
      twice.byKind.lookupKey kind = once.byKind.lookupKey kind :=
  ⟨view_registerAll_again registry registrations (·.typeOfKind kind)
      fun registry registration => registry.typeOfKind_register registration kind,
    view_registerAll_again registry registrations (·.typeOfResource resource)
      fun registry registration => registry.typeOfResource_register registration resource,
    view_registerAll_again registry registrations (·.kindOf model)
      fun registry registration => registry.kindOf_register registration model,
    view_registerAll_again registry registrations (·.resourceOf model)
      fun registry registration => registry.resourceOf_register registration model,
    view_registerAll_again registry registrations (·.isNamespaced model)
      fun registry registration => registry.isNamespaced_register_given registration model,
    view_registerAll_again registry registrations (·.byKind.lookupKey kind)
      fun registry registration => registry.lookupKey_register registration kind⟩

section

variable {κ : Type} [DecidableEq κ] {map : Registry → StripedMap κ ModelType}
  {key : Registration → κ}

/-- The key of each registration that was made has a value. -/
theorem Writes.isSome_lookupKey (writes : Writes map key) :
    ∀ registration ∈ registrations,
      ((map (registry.registerAll registrations)).lookupKey (key registration)).isSome := by
  intro registration mem
  rw [writes.lookupKey_registerAll, Option.isSome_or, Option.isSome_map, Bool.or_eq_true]
  exact .inl (isSome_findRev?_iff.mpr ⟨registration, mem, decide_eq_true rfl⟩)

/-- Registrations whose keys have values leave the number of keys as it is. -/
theorem Writes.size_registerAll (writes : Writes map key) {registrations : List Registration}
    (present : ∀ registration ∈ registrations,
      ((map registry).lookupKey (key registration)).isSome) :
    (map (registry.registerAll registrations)).size = (map registry).size := by
  induction registrations generalizing registry with
  | nil => rfl
  | cons head rest ih =>
    have hhead := present head List.mem_cons_self
    have hrest : ∀ registration ∈ rest,
        ((map (registry.register head)).lookupKey (key registration)).isSome := by
      intro registration mem
      rw [writes, StripedMap.lookupKey_insert]
      split
      · rfl
      · exact present registration (List.mem_cons_of_mem _ mem)
    calc (map (registry.registerAll (head :: rest))).size
        = (map (registry.register head)).size := ih (registry.register head) hrest
      _ = (map registry).size := by rw [writes, StripedMap.size_insert, if_pos hhead, Nat.add_zero]

/-- Making the same registrations again adds no key. -/
theorem Writes.size_again (writes : Writes map key) :
    (map ((registry.registerAll registrations).registerAll registrations)).size =
      (map (registry.registerAll registrations)).size :=
  writes.size_registerAll (registry.registerAll registrations)
    (writes.isSome_lookupKey registry registrations)

end

variable (resources : List ApiResource)

/-- After a reconciliation the same kinds are known, and for the same types. -/
theorem known_reconcile :
    (registry.reconcile resources).registry.known resources = registry.known resources := by
  rw [known, known, typeOfKind_reconcile]

/-- A second reconciliation makes the registrations of the first again. -/
theorem registry_reconcile_again :
    ((registry.reconcile resources).registry.reconcile resources).registry =
      (registry.registerAll (registry.known resources)).registerAll
        (registry.known resources) := by
  rw [registry_reconcile, known_reconcile, registry_reconcile]

/-- A second reconciliation counts as many known kinds as the first and notes the same unknown
ones. -/
theorem noted_reconcile_again :
    let once := registry.reconcile resources
    let twice := once.registry.reconcile resources
    twice.synced = once.synced ∧ twice.unknown = once.unknown := by
  intro once twice
  have hunknown : once.registry.unknown resources = registry.unknown resources := by
    rw [unknown, unknown, typeOfKind_reconcile]
  constructor
  · calc twice.synced = (once.registry.known resources).length := synced_reconcile _ _
      _ = (registry.known resources).length := by rw [known_reconcile]
      _ = once.synced := (synced_reconcile _ _).symm
  · calc twice.unknown = once.registry.unknown resources := unknown_reconcile _ _
      _ = registry.unknown resources := hunknown
      _ = once.unknown := (unknown_reconcile _ _).symm

/-- A registry that is reconciled twice with the same served resources in one order, whatever
is registered and whichever resources have a type or a collection in common:

* answers every look-up as after the first time: the type of a kind, with the bootstrap layer
  and without it, the type of a collection, the kind and the collection of a type, its flag;
* has as many registered kinds and as many registered collections as after the first time;
* counts as many known kinds the second time, and notes the same unknown ones. -/
theorem reconciling_again (registry : Registry) (resources : List ApiResource) :
    let once := registry.reconcile resources
    let twice := once.registry.reconcile resources
    (∀ kind resource model,
      twice.registry.typeOfKind kind = once.registry.typeOfKind kind ∧
      twice.registry.typeOfResource resource = once.registry.typeOfResource resource ∧
      twice.registry.kindOf model = once.registry.kindOf model ∧
      twice.registry.resourceOf model = once.registry.resourceOf model ∧
      twice.registry.isNamespaced model = once.registry.isNamespaced model ∧
      twice.registry.byKind.lookupKey kind = once.registry.byKind.lookupKey kind) ∧
    twice.registry.byKind.size = once.registry.byKind.size ∧
    twice.registry.byResource.size = once.registry.byResource.size ∧
    twice.synced = once.synced ∧ twice.unknown = once.unknown := by
  intro once twice
  have honce : once.registry = _ := registry.registry_reconcile resources
  have htwice : twice.registry = _ := registry.registry_reconcile_again resources
  refine ⟨fun kind resource model => ?_, ?_, ?_, registry.noted_reconcile_again resources⟩
  · rw [htwice, honce]
    exact registry.lookups_registerAll_again (registry.known resources) kind resource model
  · rw [htwice, honce]
    exact writes_byKind.size_again registry (registry.known resources)
  · rw [htwice, honce]
    exact writes_byResource.size_again registry (registry.known resources)

end Registry

end ModelRegistry
