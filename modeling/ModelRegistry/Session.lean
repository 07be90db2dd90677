import ModelRegistry.Gate
import ModelRegistry.Mapper

/-!
# Callers of one mapper

A session is a mapper with a clock, a scripted discovery source, a gate and the
callers that use it. A call is answered at once unless it refreshes. A refresh
looks at the last discovery answer, comes to the gate, looks again once it
holds the gate, calls discovery and waits for the response, and takes the
response up before it leaves the gate. What happens between two waits is one
turn and cannot be interrupted; turns of different callers mix freely. A move
is a new call, the passing of time, or one turn of a caller; every run of a
session is a list of moves.
-/

namespace ModelRegistry

/-- A call that is answered at once. -/
inductive Query where
  /-- Registers a model type. -/
  | register (registration : Registration)
  /-- Asks for the model type of a kind. -/
  | typeOfKind (kind : GroupVersionKind)
  /-- Asks for the model type of a collection. -/
  | typeOfResource (resource : GroupVersionResource)
  /-- Asks for the kind of a model type. -/
  | kindOf (model : ModelType)
  /-- Asks for the collection of a model type. -/
  | resourceOf (model : ModelType)
  /-- Asks for the kind that the bootstrap layer gives a model type. -/
  | bootstrapKindOf (model : ModelType)
  /-- Asks whether the objects of a model type live in a namespace. -/
  | isNamespaced (model : ModelType)
  /-- Asks for all that is registered for some model types. -/
  | snapshot (models : List ModelType)
  /-- Asks whether there has been a discovery answer. -/
  | hasEverRefreshed
  /-- Asks for the number of kinds in the bootstrap layer. -/
  | bootstrapSize
  /-- Asks for the configuration. -/
  | config
  /-- Drops all registrations and the last discovery answer. -/
  | reset
  /-- Replaces the responses of the discovery source. -/
  | script (responses : List Response)
  /-- Asks for the number of discovery calls. -/
  | calls
  /-- Lets time pass. -/
  | wait (nanos : Nat)

/-- What a caller asks for. -/
inductive Request where
  /-- An answer at once. -/
  | query (query : Query)
  /-- The served resources, no older than an interval; the configured interval
  if none is given. -/
  | refresh (interval : Option Duration)

/-- What is registered for a model type. -/
structure View where
  /-- The model type. -/
  model : ModelType
  /-- Its kind. -/
  kind : Option GroupVersionKind
  /-- Its collection. -/
  resource : Option GroupVersionResource
  /-- Its flag. -/
  namespaced : Option Bool

/-- What a caller is answered. -/
inductive Answer where
  /-- The call is done. -/
  | done
  /-- A model type. -/
  | model (model : Option ModelType)
  /-- A kind. -/
  | kind (kind : Option GroupVersionKind)
  /-- A kind that the bootstrap layer gives a model type. -/
  | bootstrapKind (kind : Option GroupVersionKind)
  /-- A collection. -/
  | resource (resource : Option GroupVersionResource)
  /-- A flag. -/
  | flag (flag : Option Bool)
  /-- Whether something is so. -/
  | truth (value : Bool)
  /-- How many there are. -/
  | count (value : Nat)
  /-- All that is registered for some model types. -/
  | views (views : List View)
  /-- The configuration. -/
  | config (config : Config)
  /-- The served resources. -/
  | resources (resources : ResourceSet)
  /-- The discovery call failed. -/
  | failed (error : DiscoveryError)

/-- How far a call has come. -/
inductive Phase where
  /-- The call is made at an instant. -/
  | starting (due : Instant) (request : Request)
  /-- A refresh waits for the gate. -/
  | queued (interval : Duration)
  /-- A refresh that got its turn at an instant waits for a discovery response,
  which is due at another. -/
  | fetching (turn : Instant) (interval : Duration) (outcome : DiscoveryOutcome) (due : Instant)
  /-- The call was answered at an instant. -/
  | finished (time : Instant) (answer : Answer)

/-- Whether a refresh looks at the last answer before it comes to the gate. -/
inductive Admission where
  /-- It does, and leaves the gate alone if that answer is still valid. -/
  | checkFirst
  /-- It does not. -/
  | gateOnly
deriving DecidableEq

/-- A mapper with a clock, a discovery source, a gate and callers. -/
structure Session where
  /-- The time. -/
  now : Instant
  /-- The mapper. -/
  mapper : Mapper
  /-- The gate of the refreshes. -/
  gate : Gate
  /-- The discovery source. -/
  source : Source
  /-- The calls in the order in which they were made, each known by its place. -/
  calls : List Phase
  /-- The events so far. -/
  log : List Event

namespace Session

/-- A mapper that nobody has called, at an instant. -/
def start (now : Instant) (mapper : Mapper) (source : Source) : Session :=
  ⟨now, mapper, .free, source, [], []⟩

/-- Adds events to the log. -/
def report (session : Session) (events : List Event) : Session :=
  { session with log := session.log ++ events }

/-- Moves a call to a phase. -/
def setPhase (session : Session) (caller : Nat) (phase : Phase) : Session :=
  { session with calls := session.calls.set caller phase }

/-- Answers a call. -/
def finish (session : Session) (caller : Nat) (answer : Answer) : Session :=
  session.setPhase caller (.finished session.now answer)

/-- The holder leaves the gate. -/
def leaveGate (session : Session) : Session := { session with gate := session.gate.leave }

/-- The session after a call that is answered at once, and the answer. -/
def ask (session : Session) : Query → Session × Answer
  | .register registration =>
    ({ session with mapper := session.mapper.register registration }, .done)
  | .typeOfKind kind => (session, .model (session.mapper.registry.typeOfKind kind))
  | .typeOfResource resource => (session, .model (session.mapper.registry.typeOfResource resource))
  | .kindOf model => (session, .kind (session.mapper.registry.kindOf model))
  | .resourceOf model => (session, .resource (session.mapper.registry.resourceOf model))
  | .bootstrapKindOf model =>
    (session, .bootstrapKind (session.mapper.registry.bootstrap.kindOf model))
  | .isNamespaced model => (session, .flag (session.mapper.registry.isNamespaced model))
  | .snapshot models =>
    (session, .views (models.map fun model =>
      ⟨model, session.mapper.registry.kindOf model, session.mapper.registry.resourceOf model,
        session.mapper.registry.isNamespaced model⟩))
  | .hasEverRefreshed => (session, .truth session.mapper.hasEverRefreshed)
  | .bootstrapSize => (session, .count session.mapper.registry.bootstrap.size)
  | .config => (session, .config session.mapper.config)
  | .reset =>
    ({ session with mapper := session.mapper.reset }.report session.mapper.resetEvents, .done)
  | .script responses => ({ session with source := session.source.script responses }, .done)
  | .calls => (session, .count session.source.calls)
  | .wait nanos => ({ session with now := session.now + nanos }, .done)

/-- A refresh that holds the gate: it takes a valid answer, or else calls
discovery. -/
def enter (session : Session) (caller : Nat) (interval : Duration) : Session :=
  match session.mapper.refresh.cached? session.now with
  | some resources =>
    ((session.report [.refreshedByOther]).leaveGate).finish caller (.resources resources)
  | none =>
    let response := session.source.response
    { session with source := session.source.afterCall }.setPhase caller
      (.fetching session.now interval response.outcome (session.now + response.latency))

/-- A refresh comes to the gate. -/
def arrive (session : Session) (caller : Nat) (interval : Duration) : Session :=
  let arrived := { session with gate := session.gate.arrive caller }
  if arrived.gate.holder = some caller then arrived.enter caller interval
  else arrived.setPhase caller (.queued interval)

/-- A refresh begins. -/
def beginRefresh (session : Session) (admission : Admission) (caller : Nat)
    (interval : Duration) : Session :=
  match admission, session.mapper.refresh.cached? session.now with
  | .checkFirst, some resources =>
    (session.report [.notDue]).finish caller (.resources resources)
  | _, _ => session.arrive caller interval

/-- A refresh takes up the response to its discovery call. -/
def settle (session : Session) (caller : Nat) (turn : Instant) (interval : Duration) :
    DiscoveryOutcome → Session
  | .error error =>
    ((session.report [.discoveryFailed error]).leaveGate).finish caller (.failed error)
  | .ok resources =>
    (({ session with mapper := session.mapper.commit turn interval resources }.report
      (session.mapper.commitEvents interval resources)).leaveGate).finish caller
        (.resources resources)

/-- The instant from which a call can go on, if it waits for nobody else. -/
def due? (session : Session) (caller : Nat) : Phase → Option Instant
  | .starting due _ => some due
  | .queued _ => if session.gate.holder = some caller then some 0 else none
  | .fetching _ _ _ due => some due
  | .finished _ _ => none

/-- One turn of a caller that can go on; of any other nothing happens. -/
def turn (session : Session) (admission : Admission) (caller : Nat) : Session :=
  match session.calls[caller]? with
  | none => session
  | some phase =>
    match session.due? caller phase with
    | none => session
    | some due =>
      if session.now < due then session
      else
        match phase with
        | .starting _ (.query query) =>
          let (asked, answer) := session.ask query
          asked.finish caller answer
        | .starting _ (.refresh interval) =>
          session.beginRefresh admission caller
            (interval.getD session.mapper.config.refreshInterval)
        | .queued interval => session.enter caller interval
        | .fetching turn interval outcome _ => session.settle caller turn interval outcome
        | .finished _ _ => session

/-- A step of a run. -/
inductive Move where
  /-- A new call, made after a delay. -/
  | call (delay : Nat) (request : Request)
  /-- The passing of time. -/
  | wait (nanos : Nat)
  /-- One turn of a caller. -/
  | turn (caller : Nat)

/-- The session after a move. -/
def move (admission : Admission) (session : Session) : Move → Session
  | .call delay request =>
    { session with calls := session.calls ++ [.starting (session.now + delay) request] }
  | .wait nanos => { session with now := session.now + nanos }
  | .turn caller => session.turn admission caller

/-- The session after a list of moves. -/
def run (admission : Admission) (session : Session) (moves : List Move) : Session :=
  moves.foldl (move admission) session

end Session

end ModelRegistry
