import ModelRegistry.Config
import ModelRegistry.Registry

/-!
# The mapper

A mapper is a registry with its configuration and the last discovery answer.
That answer is valid until a deadline, which counts from the instant at which
its refresh got its turn; the first refresh has no deadline to wait for. A
failed call changes nothing. What hashing leaves open is drawn anew for each mapper.
Who calls discovery and when is not decided here.
-/

namespace ModelRegistry

/-- The last discovery answer and how long it is valid. -/
structure RefreshState where
  /-- The resources of the answer. -/
  resources : ResourceSet
  /-- The instant at which the answer ceases to be valid; none before the first
  answer. -/
  deadline : Option Instant

namespace RefreshState

/-- The state before the first answer. -/
def start : RefreshState := ⟨.empty, none⟩

/-- The resources, if the deadline has not come. -/
def cached? (state : RefreshState) (now : Instant) : Option ResourceSet :=
  match state.deadline with
  | some deadline => if now < deadline then some state.resources else none
  | none => none

/-- The resources are served exactly before the deadline. -/
theorem cached?_eq_some_iff {state : RefreshState} {now : Instant} {resources : ResourceSet} :
    state.cached? now = some resources ↔
      ∃ deadline,
        state.deadline = some deadline ∧ now < deadline ∧ state.resources = resources := by
  cases hd : state.deadline with
  | none => simp [cached?, hd]
  | some deadline => by_cases hn : now < deadline <;> simp [cached?, hd, hn]

/-- How far ahead a deadline is set that the platform clock cannot hold: thirty
years of 365 days. -/
def farFuture : Nat := 86400 * 365 * 30 * 1_000_000_000

/-- The deadline of an answer whose refresh got its turn at an instant, if the platform clock
holds one: an interval later, or else far ahead. -/
def deadline? (now : Instant) (interval : Duration) : Option Instant :=
  (Instant.add? now interval).or
    (if now + farFuture ≤ Instant.latest then some (now + farFuture) else none)

/-- The deadline of an answer whose refresh got its turn at an instant. In the last thirty years
of the platform clock it may hold none, and a refresh that needs one breaks off; that is left
out here, and the instant far ahead stands for the deadline all the same. -/
def deadlineAfter (now : Instant) (interval : Duration) : Instant :=
  (deadline? now interval).getD (now + farFuture)

/-- The state after an answer; a deadline is never set back. -/
def commit (state : RefreshState) (turn : Instant) (interval : Duration)
    (resources : ResourceSet) : RefreshState :=
  let deadline := deadlineAfter turn interval
  ⟨resources, some (match state.deadline with
    | some current => max current deadline
    | none => deadline)⟩

end RefreshState

/-- What hashing leaves open. It is drawn when a mapper is made, and each mapper has its
own. -/
structure Hashing where
  /-- The order in which the bootstrap layer goes through its kinds. -/
  order : KindOrder
  /-- The digests of the registered kinds and their model types. -/
  kinds : Digests GroupVersionKind ModelType
  /-- The digests of the registered collections and their model types. -/
  resources : Digests GroupVersionResource ModelType

/-- The digests of the texts, and the order in which the kinds were mapped. -/
def Hashing.ofText : Hashing := ⟨.asMapped, ⟨hash, hash⟩, ⟨hash, hash⟩⟩

/-- A registry with its configuration and the last discovery answer. -/
structure Mapper where
  /-- The configuration. -/
  config : Config
  /-- The mappings. -/
  registry : Registry
  /-- The last discovery answer. -/
  refresh : RefreshState

namespace Mapper

/-- A mapper over the bootstrap layer of some candidates, on a host with some
processors. -/
def create (hashing : Hashing) (cpus : Nat) (config : Config) (candidates : List Candidate) :
    Mapper :=
  ⟨config,
    .ofBootstrap (.build hashing.order (.withExtra config.extraStems) candidates) hashing.kinds
      hashing.resources (config.stripes cpus),
    .start⟩

/-- What making a mapper reports. -/
def createEvents (hashing : Hashing) (cpus : Nat) (config : Config)
    (candidates : List Candidate) : List Event :=
  let mapper := create hashing cpus config candidates
  Bootstrap.buildEvents (.withExtra config.extraStems) candidates ++
    (if mapper.registry.bootstrap.isEmpty then [.nothingBootstrapped] else []) ++
    [.initialized mapper.registry.byKind.stripes]

/-- Registers a model type. -/
def register (mapper : Mapper) (registration : Registration) : Mapper :=
  { mapper with registry := mapper.registry.register registration }

/-- Whether there has been a discovery answer. -/
def hasEverRefreshed (mapper : Mapper) : Bool := mapper.refresh.deadline.isSome

/-- Drops all registrations and the last discovery answer. -/
def reset (mapper : Mapper) : Mapper :=
  { mapper with registry := mapper.registry.reset, refresh := .start }

/-- What dropping reports. -/
def resetEvents (mapper : Mapper) : List Event :=
  [.resetting mapper.registry.byKind.size mapper.registry.byResource.size]

/-- Takes up a discovery answer: reconciles the registry, then sets the new
deadline. -/
def commit (mapper : Mapper) (turn : Instant) (interval : Duration) (resources : ResourceSet) :
    Mapper :=
  { mapper with
    registry := (mapper.registry.reconcile resources.toList).registry
    refresh := mapper.refresh.commit turn interval resources }

/-- What taking up a discovery answer reports. -/
def commitEvents (mapper : Mapper) (interval : Duration) (resources : ResourceSet) : List Event :=
  let done := mapper.registry.reconcile resources.toList
  done.unknown.map .unknownKind ++ [.synced resources.size done.synced interval]

end Mapper

end ModelRegistry
