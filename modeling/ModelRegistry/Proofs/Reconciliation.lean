import ModelRegistry.Registry

/-!
# Reconciliation as registering

A reconciliation looks up each served kind in the registry that it is changing.
What it registers for a kind is the type that the kind has already, so no kind
ever gets another type, and the registrations it makes can be told from the
registry it starts with: one for every served version of a known kind, in order.
Nothing is said here about the order in which a set of resources is taken up.
-/

namespace ModelRegistry

namespace Registry

/-- A registry after some registrations, in order. -/
def registerAll (registry : Registry) (registrations : List Registration) : Registry :=
  registrations.foldl register registry

/-- The registrations that take up some served resources: one for every version
of every resource whose kind has a model type, in order. -/
def known (registry : Registry) (resources : List ApiResource) : List Registration :=
  (servedVersions resources).filterMap fun served =>
    (registry.typeOfKind (served.1.kindAt served.2)).map (.ofResource served.1 served.2)

/-- The kinds of some served resources that have no model type, in order. -/
def unknown (registry : Registry) (resources : List ApiResource) : List GroupVersionKind :=
  ((servedVersions resources).map fun served => served.1.kindAt served.2).filter
    fun kind => (registry.typeOfKind kind).isNone

/-- One more registration comes last. -/
theorem registerAll_concat (registry : Registry) (registrations : List Registration)
    (registration : Registration) :
    registry.registerAll (registrations ++ [registration]) =
      (registry.registerAll registrations).register registration := by
  rw [registerAll, List.foldl_append]
  rfl

/-- Registrations can be made in two parts. -/
theorem registerAll_append (registry : Registry) (first second : List Registration) :
    registry.registerAll (first ++ second) = (registry.registerAll first).registerAll second :=
  List.foldl_append

/-- Registering a kind anew for the type that it has changes the type of no
kind, be it from the bootstrap layer or not. -/
theorem typeOfKind_register_known {registry : Registry} {registration : Registration}
    (h : registry.typeOfKind registration.gvk = some registration.model) :
    (registry.register registration).typeOfKind = registry.typeOfKind := by
  funext kind
  rw [typeOfKind_register]
  split
  · rename_i hk
    rw [← hk, h]
  · rfl

/-- Taking up served versions registers exactly those that are known at the
start, because no registration made on the way changes the type of a kind. -/
theorem foldl_take (served : List (ApiResource × String)) (done : Reconciliation) :
    (served.foldl Reconciliation.take done).registry =
      done.registry.registerAll (served.filterMap fun entry =>
        (done.registry.typeOfKind (entry.1.kindAt entry.2)).map (.ofResource entry.1 entry.2)) := by
  induction served generalizing done with
  | nil => rfl
  | cons head rest ih =>
    rw [List.foldl_cons, ih]
    cases hm : done.registry.typeOfKind (head.1.kindAt head.2) with
    | none =>
      have ht : (done.take head).registry = done.registry := by simp only [Reconciliation.take, hm]
      rw [ht, List.filterMap_cons_none (by rw [hm]; rfl)]
    | some model =>
      have ht : (done.take head).registry =
          done.registry.register (.ofResource head.1 head.2 model) := by
        simp only [Reconciliation.take, hm]
      -- The rest looks up in a changed registry, but finds what the first one says.
      have hk : (done.registry.register (.ofResource head.1 head.2 model)).typeOfKind =
          done.registry.typeOfKind := typeOfKind_register_known hm
      rw [ht, hk, List.filterMap_cons_some (by rw [hm]; rfl)]
      rfl

/-- Taking up a served version changes the type of no kind. -/
theorem typeOfKind_take (done : Reconciliation) (served : ApiResource × String) :
    (done.take served).registry.typeOfKind = done.registry.typeOfKind := by
  cases hm : done.registry.typeOfKind (served.1.kindAt served.2) with
  | none => simp only [Reconciliation.take, hm]
  | some model =>
    simp only [Reconciliation.take, hm]
    exact typeOfKind_register_known hm

/-- Of the served versions those are counted whose kinds are known at the start, and
the kinds of the others are noted. -/
theorem foldl_take_noted (served : List (ApiResource × String)) (done : Reconciliation) :
    (served.foldl Reconciliation.take done).synced =
        done.synced + (served.filterMap fun entry =>
          (done.registry.typeOfKind (entry.1.kindAt entry.2)).map
            (Registration.ofResource entry.1 entry.2)).length ∧
      (served.foldl Reconciliation.take done).unknown =
        done.unknown ++ (served.map fun entry => entry.1.kindAt entry.2).filter
          fun kind => (done.registry.typeOfKind kind).isNone := by
  induction served generalizing done with
  | nil => exact ⟨rfl, (List.append_nil _).symm⟩
  | cons head rest ih =>
    obtain ⟨hsynced, hunknown⟩ := ih (done.take head)
    rw [typeOfKind_take] at hsynced hunknown
    rw [List.foldl_cons, hsynced, hunknown]
    cases hm : done.registry.typeOfKind (head.1.kindAt head.2) with
    | none => simp [Reconciliation.take, hm]
    | some model => simp [Reconciliation.take, hm, Nat.add_assoc, Nat.add_comm 1]

/-- A reconciliation makes the registrations of the kinds that are known when it
starts, and no others. -/
theorem registry_reconcile (registry : Registry) (resources : List ApiResource) :
    (registry.reconcile resources).registry = registry.registerAll (registry.known resources) :=
  foldl_take (servedVersions resources) ⟨registry, 0, []⟩

/-- A reconciliation counts the registrations that it makes. -/
theorem synced_reconcile (registry : Registry) (resources : List ApiResource) :
    (registry.reconcile resources).synced = (registry.known resources).length :=
  (foldl_take_noted (servedVersions resources) ⟨registry, 0, []⟩).1.trans (Nat.zero_add _)

/-- A reconciliation notes the kinds that are unknown when it starts. -/
theorem unknown_reconcile (registry : Registry) (resources : List ApiResource) :
    (registry.reconcile resources).unknown = registry.unknown resources :=
  (foldl_take_noted (servedVersions resources) ⟨registry, 0, []⟩).2

/-- Registrations of kinds for the types that they have change the type of no
kind. -/
theorem typeOfKind_registerAll_known {registrations : List Registration} (registry : Registry)
    (h : ∀ registration ∈ registrations,
      registry.typeOfKind registration.gvk = some registration.model) :
    (registry.registerAll registrations).typeOfKind = registry.typeOfKind := by
  induction registrations generalizing registry with
  | nil => rfl
  | cons head rest ih =>
    have hh := typeOfKind_register_known (h head List.mem_cons_self)
    have hr : ∀ registration ∈ rest,
        (registry.register head).typeOfKind registration.gvk = some registration.model := by
      intro registration hm
      rw [hh]
      exact h registration (List.mem_cons_of_mem _ hm)
    calc (registry.registerAll (head :: rest)).typeOfKind
        = ((registry.register head).registerAll rest).typeOfKind := rfl
      _ = (registry.register head).typeOfKind := ih _ hr
      _ = registry.typeOfKind := hh

/-- Each registration that takes up a resource gives a kind the type that it has. -/
theorem typeOfKind_of_mem_known {registry : Registry} {resources : List ApiResource}
    {registration : Registration} (h : registration ∈ registry.known resources) :
    registry.typeOfKind registration.gvk = some registration.model := by
  obtain ⟨served, -, hs⟩ := List.mem_filterMap.mp h
  obtain ⟨model, hm, rfl⟩ := Option.map_eq_some_iff.mp hs
  exact hm

/-- A reconciliation changes the type of no kind, whether the resources mention
the kind or not. -/
theorem typeOfKind_reconcile (registry : Registry) (resources : List ApiResource) :
    (registry.reconcile resources).registry.typeOfKind = registry.typeOfKind := by
  rw [registry_reconcile]
  exact typeOfKind_registerAll_known registry fun _ => typeOfKind_of_mem_known

end Registry

end ModelRegistry
