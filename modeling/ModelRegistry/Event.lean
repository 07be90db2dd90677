import ModelRegistry.DurationSpan
import ModelRegistry.Discovery
import ModelRegistry.ModelType

/-!
# Events

What a registry reports while it works: each event has a level, a message and
named fields. Events are values; their wording stands here alone. Reports of
unknown kinds that follow one another come from one discovery answer, whose
order says nothing, so a log lists each run of them in ascending order.
-/

namespace ModelRegistry

/-- How important an event is. -/
inductive Level where
  /-- Of interest when looking for a fault. -/
  | debug
  /-- Of general interest. -/
  | info
  /-- Something was left undone. -/
  | warn
deriving DecidableEq

/-- The name of a level. -/
def Level.name : Level → String
  | debug => "DEBUG"
  | info => "INFO"
  | warn => "WARN"

/-- The value of a field of an event. -/
inductive EventField where
  /-- A number of things. -/
  | count (value : Nat)
  /-- A text. -/
  | text (value : String)
  /-- A model type. -/
  | model (value : ModelType)
deriving DecidableEq

/-- What is reported. -/
inductive Event where
  /-- A candidate whose name names no kind was left out. -/
  | candidateSkipped (name : String) (error : NameError)
  /-- A candidate took the kind of an earlier one. -/
  | kindCollision (kind : GroupVersionKind) (previous current : ModelType)
  /-- The bootstrap layer was built from so many objects and lists. -/
  | bootstrapped (mapped objects lists skipped : Nat)
  /-- The bootstrap layer is empty. -/
  | nothingBootstrapped
  /-- A mapper was made with so many stripes. -/
  | initialized (stripes : Nat)
  /-- The registered mappings are being dropped. -/
  | resetting (kinds resources : Nat)
  /-- The deadline has not passed. -/
  | notDue
  /-- Another caller refreshed in the meantime. -/
  | refreshedByOther
  /-- The discovery call failed. -/
  | discoveryFailed (error : DiscoveryError)
  /-- No model type is known for a kind that is served. -/
  | unknownKind (kind : GroupVersionKind)
  /-- The mappings were reconciled with a discovery answer. -/
  | synced (resources kinds : Nat) (interval : Duration)
deriving DecidableEq

namespace Event

/-- The level of an event. -/
def level : Event → Level
  | candidateSkipped .. | nothingBootstrapped | discoveryFailed .. => .warn
  | bootstrapped .. | synced .. => .info
  | kindCollision .. | initialized .. | resetting .. | notDue | refreshedByOther
  | unknownKind .. => .debug

/-- The message of an event. -/
def message : Event → String
  | candidateSkipped .. => "Skipping bootstrap candidate"
  | kindCollision .. => "Bootstrap GVK collision, keeping the later model"
  | bootstrapped .. => "Bootstrapped model mappings"
  | nothingBootstrapped => "No model types bootstrapped, GVK lookups rely on explicit registration"
  | initialized .. => "Model mapper initialized"
  | resetting .. => "Resetting dynamic model mappings"
  | notDue => "Discovery refresh not due, using cached resources"
  | refreshedByOther => "Discovery refreshed by a concurrent caller, using cached resources"
  | discoveryFailed .. => "API discovery failed, refresh deadline unchanged"
  | unknownKind .. => "No model type for discovered kind, skipping"
  | synced .. => "Model mappings synced with API discovery"

/-- The fields of an event. -/
def fields : Event → List (String × EventField)
  | candidateSkipped name error => [("model", .text name), ("error", .text error.message)]
  | kindCollision kind previous current =>
    [("gvk", .text kind.text), ("previous", .model previous), ("current", .model current)]
  | bootstrapped mapped objects lists skipped =>
    [("mapped", .count mapped), ("objects", .count objects), ("lists", .count lists),
      ("skipped", .count skipped)]
  | nothingBootstrapped => []
  | initialized stripes => [("stripes", .count stripes)]
  | resetting kinds resources => [("gvk_entries", .count kinds), ("gvr_entries", .count resources)]
  | notDue => []
  | refreshedByOther => []
  | discoveryFailed error => [("error", .text error.message)]
  | unknownKind kind =>
    [("group", .text kind.group), ("version", .text kind.version), ("kind", .text kind.kind)]
  | synced resources kinds interval =>
    [("resources", .count resources), ("synced", .count kinds), ("interval", .text interval.text)]

end Event

namespace Log

/-- Whether one unknown kind is listed before another: by group, kind and
version. -/
def listedBefore (a b : GroupVersionKind) : Bool :=
  compare [a.group, a.kind, a.version] [b.group, b.kind, b.version] == .lt

/-- Puts a report of an unknown kind into the run of such reports that a log
begins with. -/
def putUnknown (kind : GroupVersionKind) : List Event → List Event
  | .unknownKind other :: rest =>
    if listedBefore other kind then .unknownKind other :: putUnknown kind rest
    else .unknownKind kind :: .unknownKind other :: rest
  | events => .unknownKind kind :: events

/-- The events with each run of reports of unknown kinds in ascending order. -/
def arranged : List Event → List Event
  | [] => []
  | .unknownKind kind :: rest => putUnknown kind (arranged rest)
  | event :: rest => event :: arranged rest

end Log

end ModelRegistry
