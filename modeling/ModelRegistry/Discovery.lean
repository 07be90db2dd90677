import ModelRegistry.ApiResource
import ModelRegistry.Duration

/-!
# Discovery

Discovery tells which resources an API serves, or fails. A scripted source
gives its responses in order: each call takes the first response, which stays
if it is the last one, and a source without responses finds no resources. The
source counts its calls.
-/

namespace ModelRegistry

/-- Why a discovery call failed. -/
inductive DiscoveryError where
  /-- The endpoint could not be reached. -/
  | transport (detail : String)
  /-- The answer could not be decoded. -/
  | decode (detail : String)
  /-- Any other failure. -/
  | other (detail : String)
deriving DecidableEq

namespace DiscoveryError

/-- The wording of a discovery error. -/
def message : DiscoveryError → String
  | transport detail => "Discovery transport failed: " ++ detail
  | decode detail => "Discovery response could not be decoded: " ++ detail
  | other detail => "Discovery failed: " ++ detail

/-- Whether the endpoint could not be reached. -/
def isTransport : DiscoveryError → Bool
  | transport _ => true
  | _ => false

/-- Whether the answer could not be decoded. -/
def isDecode : DiscoveryError → Bool
  | decode _ => true
  | _ => false

end DiscoveryError

/-- What a discovery call comes to. -/
abbrev DiscoveryOutcome := Except DiscoveryError ResourceSet

/-- A response of a scripted source. -/
structure Response where
  /-- What the call comes to. -/
  outcome : DiscoveryOutcome
  /-- How long the call takes, in nanoseconds. -/
  latency : Nat

/-- A scripted source of discovery responses. -/
structure Source where
  /-- The responses to come. -/
  responses : List Response
  /-- The number of calls so far. -/
  calls : Nat

namespace Source

/-- A source without responses and calls. -/
def empty : Source := ⟨[], 0⟩

/-- Replaces the responses to come. -/
def script (source : Source) (responses : List Response) : Source :=
  { source with responses := responses }

/-- The response to the next call. -/
def response (source : Source) : Response :=
  source.responses.headD ⟨.ok .empty, 0⟩

/-- The source after the next call. -/
def afterCall (source : Source) : Source :=
  ⟨match source.responses with
    | _ :: next :: rest => next :: rest
    | responses => responses,
    source.calls + 1⟩

end Source

end ModelRegistry
