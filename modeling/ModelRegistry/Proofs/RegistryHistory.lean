import ModelRegistry.Proofs.LastEntries
import ModelRegistry.Proofs.SessionChanges

/-!
# The history of the registry

The registry after a run is the bootstrap layer with the history of the run
registered over it, and each of its five views is decided by one entry of that
history: the last registration of the kind, of the collection or of the model
type that is asked for, and for the flag the last registration of the model type
that gave one. The history is that of the registrations as they took effect,
whatever the callers were that made them.
-/

namespace ModelRegistry

namespace Registry

/-- A view that a registration overwrites exactly where it is concerned is
decided by the last registration that concerns it. -/
theorem view_registerAll {α : Type} (view : Registry → Option α)
    (concerned : Registration → Prop) [DecidablePred concerned]
    (answer : Registration → Option α)
    (step : ∀ registry registration, view (registry.register registration) =
      if concerned registration then answer registration else view registry)
    (registry : Registry) (registrations : List Registration) :
    view (registry.registerAll registrations) =
      (registrations.findRev? (concerned ·)).elim (view registry) answer := by
  -- From the end, because the last registration that concerns the view decides.
  induction registrations using List.reverseRecOn with
  | nil => rfl
  | append_singleton rest last ih =>
    rw [registerAll_concat, step, ih, findRev?_concat]
    by_cases hc : concerned last <;> simp [hc]

/-- A kind has the type of its last registration, or else the type it had. -/
theorem typeOfKind_registerAll (registry : Registry) (registrations : List Registration)
    (kind : GroupVersionKind) :
    (registry.registerAll registrations).typeOfKind kind =
      ((registrations.findRev? (·.gvk = kind)).map (·.model)).or (registry.typeOfKind kind) := by
  rw [view_registerAll (·.typeOfKind kind) (·.gvk = kind) (some ·.model)
    fun registry registration => registry.typeOfKind_register registration kind]
  cases registrations.findRev? (·.gvk = kind) <;> rfl

/-- A kind is registered for the type it was given last, whatever the bootstrap
layer says. -/
theorem lookupKey_register (registry : Registry) (registration : Registration)
    (kind : GroupVersionKind) :
    (registry.register registration).byKind.lookupKey kind =
      if registration.gvk = kind then some registration.model
      else registry.byKind.lookupKey kind :=
  StripedMap.lookupKey_insert registry.byKind registration.gvk kind registration.model

/-- In a map of the registry a registration writes its type under a key of its own. -/
def Writes {κ : Type} [DecidableEq κ] (map : Registry → StripedMap κ ModelType)
    (key : Registration → κ) : Prop :=
  ∀ registry registration, map (registry.register registration) =
    (map registry).insert (key registration) registration.model

/-- The registered kinds are written under the kind. -/
theorem writes_byKind : Writes (·.byKind) (·.gvk) := fun _ _ => rfl

/-- The registered collections are written under the collection. -/
theorem writes_byResource : Writes (·.byResource) (·.gvr) := fun _ _ => rfl

/-- A key has the type of its last registration, or else the type it had. -/
theorem Writes.lookupKey_registerAll {κ : Type} [DecidableEq κ]
    {map : Registry → StripedMap κ ModelType} {key : Registration → κ} (writes : Writes map key)
    (registry : Registry) (registrations : List Registration) (k : κ) :
    (map (registry.registerAll registrations)).lookupKey k =
      ((registrations.findRev? (key · = k)).map (·.model)).or ((map registry).lookupKey k) := by
  rw [view_registerAll (fun registry => (map registry).lookupKey k) (key · = k) (some ·.model)
    fun registry registration => by rw [writes, StripedMap.lookupKey_insert]]
  cases registrations.findRev? (key · = k) <;> rfl

/-- A kind is registered for the type of its last registration, or else for the type
for which it was registered. -/
theorem lookupKey_registerAll (registry : Registry) (registrations : List Registration)
    (kind : GroupVersionKind) :
    (registry.registerAll registrations).byKind.lookupKey kind =
      ((registrations.findRev? (·.gvk = kind)).map (·.model)).or
        (registry.byKind.lookupKey kind) :=
  writes_byKind.lookupKey_registerAll registry registrations kind

/-- A collection has the type of its last registration, or else the type it had. -/
theorem typeOfResource_registerAll (registry : Registry) (registrations : List Registration)
    (resource : GroupVersionResource) :
    (registry.registerAll registrations).typeOfResource resource =
      ((registrations.findRev? (·.gvr = resource)).map (·.model)).or
        (registry.typeOfResource resource) :=
  writes_byResource.lookupKey_registerAll registry registrations resource

/-- A type leads back to the kind of its last registration, or else to the kind
to which it led. -/
theorem kindOf_registerAll (registry : Registry) (registrations : List Registration)
    (model : ModelType) :
    (registry.registerAll registrations).kindOf model =
      ((registrations.findRev? (·.model = model)).map (·.gvk)).or (registry.kindOf model) := by
  rw [view_registerAll (·.kindOf model) (·.model = model) (some ·.gvk)
    fun registry registration => registry.kindOf_register registration model]
  cases registrations.findRev? (·.model = model) <;> rfl

/-- A type leads back to the collection of its last registration, or else to the
collection to which it led. -/
theorem resourceOf_registerAll (registry : Registry) (registrations : List Registration)
    (model : ModelType) :
    (registry.registerAll registrations).resourceOf model =
      ((registrations.findRev? (·.model = model)).map (·.gvr)).or
        (registry.resourceOf model) := by
  rw [view_registerAll (·.resourceOf model) (·.model = model) (some ·.gvr)
    fun registry registration => registry.resourceOf_register registration model]
  cases registrations.findRev? (·.model = model) <;> rfl

/-- The flag of a model type changes with the registrations of that type that
give a flag. -/
theorem isNamespaced_register_given (registry : Registry) (registration : Registration)
    (model : ModelType) :
    (registry.register registration).isNamespaced model =
      if registration.model = model ∧ registration.namespaced.isSome then
        registration.namespaced
      else registry.isNamespaced model := by
  rw [isNamespaced_register]
  cases registration.namespaced with
  | none => simp
  | some flag => simp

/-- A type has the flag of the last of its registrations that give one, or else
the flag it had. -/
theorem isNamespaced_registerAll (registry : Registry) (registrations : List Registration)
    (model : ModelType) :
    (registry.registerAll registrations).isNamespaced model =
      (registrations.findRev?
        fun registration => registration.model = model ∧ registration.namespaced.isSome).elim
        (registry.isNamespaced model) (·.namespaced) :=
  view_registerAll (·.isNamespaced model) (fun registration =>
    registration.model = model ∧ registration.namespaced.isSome) (·.namespaced)
    (fun registry registration => registry.isNamespaced_register_given registration model)
    registry registrations

/-- Dropping all registrations undoes a registration. -/
theorem reset_register (registry : Registry) (registration : Registration) :
    (registry.register registration).reset = registry.reset := rfl

/-- Dropping all registrations undoes any number of them. -/
theorem reset_registerAll (registry : Registry) (registrations : List Registration) :
    (registry.registerAll registrations).reset = registry.reset := by
  induction registrations using List.reverseRecOn with
  | nil => rfl
  | append_singleton rest last ih => rw [registerAll_concat, reset_register, ih]

section

variable (bootstrap : Bootstrap) (kinds : Digests GroupVersionKind ModelType)
  (resources : Digests GroupVersionResource ModelType) (stripes : Nat)

/-- Without registrations a kind has the type of the bootstrap layer. -/
theorem typeOfKind_ofBootstrap (kind : GroupVersionKind) :
    (ofBootstrap bootstrap kinds resources stripes).typeOfKind kind = bootstrap.lookup kind := by
  rw [typeOfKind, ofBootstrap, StripedMap.lookupKey_empty, Option.none_or]

/-- Without registrations no collection has a type. -/
theorem typeOfResource_ofBootstrap (resource : GroupVersionResource) :
    (ofBootstrap bootstrap kinds resources stripes).typeOfResource resource = none :=
  StripedMap.lookupKey_empty _ _ _

/-- Without registrations no way leads back to a kind. -/
theorem kindOf_ofBootstrap (model : ModelType) :
    (ofBootstrap bootstrap kinds resources stripes).kindOf model = none :=
  StripedMap.lookupValue_empty _ _ _

/-- Without registrations no way leads back to a collection. -/
theorem resourceOf_ofBootstrap (model : ModelType) :
    (ofBootstrap bootstrap kinds resources stripes).resourceOf model = none :=
  StripedMap.lookupValue_empty _ _ _

/-- Without registrations no flag is known. -/
theorem isNamespaced_ofBootstrap (model : ModelType) :
    (ofBootstrap bootstrap kinds resources stripes).isNamespaced model = none := rfl

end

end Registry

/-- Changes of a registry without registrations come to the registrations since
everything was dropped last. -/
theorem Change.registry_foldl_apply (changes : List Change) {mapper : Mapper}
    (fresh : mapper.registry.reset = mapper.registry) :
    (changes.foldl Change.apply mapper).registry =
      mapper.registry.registerAll (Change.history changes) := by
  induction changes using List.reverseRecOn with
  | nil => rfl
  | append_singleton rest last ih =>
    rw [List.foldl_append]
    cases last with
    | registered registration =>
      rw [history_concat rest rfl, Registry.registerAll_append, ← ih]
      rfl
    | committed commit registrations =>
      rw [history_concat rest rfl, Registry.registerAll_append, ← ih]
      rfl
    | dropped =>
      have hr : (rest.foldl Change.apply mapper).registry.reset = mapper.registry := by
        rw [ih, Registry.reset_registerAll, fresh]
      rw [history_concat_dropped]
      exact hr

namespace Session

/-- The registry after a run is the bootstrap layer with the history of the run
registered over it. -/
theorem registry_run (admission : Admission) (hashing : Hashing) (cpus : Nat) (config : Config)
    (candidates : List Candidate) (now : Instant) (source : Source) (moves : List Move) :
    let start := Session.start now (.create hashing cpus config candidates) source
    (start.run admission moves).mapper.registry =
      (Registry.ofBootstrap (.build hashing.order (.withExtra config.extraStems) candidates)
          hashing.kinds hashing.resources (config.stripes cpus)).registerAll
        (Change.history (start.changes admission moves)) := by
  intro start
  rw [mapper_run]
  exact Change.registry_foldl_apply _ rfl

/-- After any run from a mapper that was just made, whatever the configuration,
the candidates and the order in which the callers had their turns, every look-up
is answered by the registrations that took effect since the last reset: a kind
and a collection lead to the type of their last registration, a kind without one
to what the bootstrap layer says; a type leads back to the kind and the
collection of its last registration; and its flag is the one that was given last.
Looking up changes nothing. -/
theorem lookups_follow_history (admission : Admission) (hashing : Hashing) (cpus : Nat)
    (config : Config) (candidates : List Candidate) (now : Instant) (source : Source)
    (moves : List Move) :
    let start := Session.start now (.create hashing cpus config candidates) source
    let session := start.run admission moves
    let history := Change.history (start.changes admission moves)
    (∀ kind, session.ask (.typeOfKind kind) =
      (session, .model (((history.findRev? (·.gvk = kind)).map (·.model)).or
        ((Bootstrap.build hashing.order (.withExtra config.extraStems) candidates).lookup
          kind)))) ∧
    (∀ resource, session.ask (.typeOfResource resource) =
      (session, .model ((history.findRev? (·.gvr = resource)).map (·.model)))) ∧
    (∀ model, session.ask (.kindOf model) =
      (session, .kind ((history.findRev? (·.model = model)).map (·.gvk)))) ∧
    (∀ model, session.ask (.resourceOf model) =
      (session, .resource ((history.findRev? (·.model = model)).map (·.gvr)))) ∧
    (∀ model, session.ask (.isNamespaced model) =
      (session, .flag ((history.findRev?
        fun registration => registration.model = model ∧ registration.namespaced.isSome).bind
          (·.namespaced)))) := by
  intro start session history
  have hr := registry_run admission hashing cpus config candidates now source moves
  refine ⟨fun kind => ?_, fun resource => ?_, fun model => ?_, fun model => ?_, fun model => ?_⟩
  · rw [ask, hr, Registry.typeOfKind_registerAll, Registry.typeOfKind_ofBootstrap]
  · rw [ask, hr, Registry.typeOfResource_registerAll, Registry.typeOfResource_ofBootstrap,
      Option.or_none]
  · rw [ask, hr, Registry.kindOf_registerAll, Registry.kindOf_ofBootstrap, Option.or_none]
  · rw [ask, hr, Registry.resourceOf_registerAll, Registry.resourceOf_ofBootstrap,
      Option.or_none]
  · rw [ask, hr, Registry.isNamespaced_registerAll, Registry.isNamespaced_ofBootstrap]
    cases history.findRev?
      fun registration => registration.model = model ∧ registration.namespaced.isSome <;> rfl

end Session

end ModelRegistry
