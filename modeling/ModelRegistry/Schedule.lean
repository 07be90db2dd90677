import ModelRegistry.Session

/-!
# Runs on a virtual clock

On a virtual clock time passes only when every caller waits, and then jumps to
the first instant at which one can go on. Of callers that can go on at the same
instant the one that called first has its turn. Each call has at most three
turns, so a batch of calls comes to its end after three turns for each.
-/

namespace ModelRegistry.Session

/-- The earlier of two turns; of two at the same instant the first argument. -/
def earlier : Option (Instant × Nat) → Option (Instant × Nat) → Option (Instant × Nat)
  | some a, some b => if b.1 < a.1 then some b else some a
  | some a, none => some a
  | none, b => b

/-- The first turn among calls from a place on, with its instant. -/
def nextFrom (session : Session) : List Phase → Nat → Option (Instant × Nat)
  | [], _ => none
  | phase :: rest, caller =>
    earlier ((session.due? caller phase).map fun due => (max due session.now, caller))
      (nextFrom session rest (caller + 1))

/-- The next turn with its instant, if any caller can go on. -/
def next? (session : Session) : Option (Instant × Nat) := session.nextFrom session.calls 0

/-- The session after a number of turns, each the next one. -/
def drive (admission : Admission) : Nat → Session → Session
  | 0, session => session
  | turns + 1, session =>
    match session.next? with
    | none => session
    | some (time, caller) =>
      drive admission turns ({ session with now := time }.turn admission caller)

/-- The calls of a batch, each made after a delay. -/
def call (admission : Admission) (session : Session) (batch : List (Nat × Request)) : Session :=
  session.run admission (batch.map fun entry => .call entry.1 entry.2)

/-- The session after a batch of calls has come to its end. -/
def batch (admission : Admission) (session : Session) (calls : List (Nat × Request)) : Session :=
  (session.call admission calls).drive admission (3 * calls.length)

/-- The answers to the calls from a place on, each with the time since an
instant. -/
def answersSince (session : Session) (place : Nat) (start : Instant) : List (Nat × Answer) :=
  (session.calls.drop place).filterMap fun phase =>
    match phase with
    | .finished time answer => some (time - start, answer)
    | _ => none

/-- What a batch of calls comes to. -/
structure Batch where
  /-- The session afterwards. -/
  session : Session
  /-- The answers in the order of the calls, each with the time it took. -/
  answers : List (Nat × Answer)
  /-- The events of the batch. -/
  events : List Event

/-- Makes a batch of calls and waits for all answers. -/
def serve (session : Session) (calls : List (Nat × Request)) : Batch :=
  let after := session.batch .checkFirst calls
  ⟨after, after.answersSince session.calls.length session.now, after.log.drop session.log.length⟩

end ModelRegistry.Session
