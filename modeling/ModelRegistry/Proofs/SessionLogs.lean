import ModelRegistry.Proofs.BatchCalls

/-!
# Sessions but for their logs

What a session reports decides nothing: sessions that differ in their logs at most do the
same in every turn. Neither does it matter, while no answer is valid, whether refreshes
look at the last answer before they come to the gate, and what a quiet call does depends
on the mapper and the source alone. What is in the logs is not compared.
-/

namespace ModelRegistry.Session

variable {session other : Session} {caller : Nat}

/-- A session with nothing in its log. -/
def unlogged (session : Session) : Session := { session with log := [] }

/-- In sessions that differ in their logs at most the calls have come as far. -/
theorem calls_eq_of_unlogged (h : other.unlogged = session.unlogged) :
    other.calls = session.calls := (congrArg Session.calls h :)

/-- In sessions that differ in their logs at most the gate is the same. -/
theorem gate_eq_of_unlogged (h : other.unlogged = session.unlogged) :
    other.gate = session.gate := (congrArg Session.gate h :)

/-- What a refresh does that holds the gate does not depend on the log. -/
theorem enter_unlogged (session : Session) (caller : Nat) (interval : Duration) :
    (session.unlogged.enter caller interval).unlogged =
      (session.enter caller interval).unlogged := by
  obtain ⟨now, mapper, gate, source, calls, log⟩ := session
  simp only [unlogged, enter]
  cases mapper.refresh.cached? now <;> rfl

/-- What a refresh does that begins does not depend on the log. -/
theorem beginRefresh_unlogged (session : Session) (admission : Admission) (caller : Nat)
    (interval : Duration) :
    (session.unlogged.beginRefresh admission caller interval).unlogged =
      (session.beginRefresh admission caller interval).unlogged := by
  have ha : (session.unlogged.arrive caller interval).unlogged =
      (session.arrive caller interval).unlogged := by
    unfold arrive
    dsimp only
    have hg : session.unlogged.gate = session.gate := rfl
    rw [hg]
    split
    · exact enter_unlogged { session with gate := session.gate.arrive caller } caller interval
    · rfl
  have hc : session.unlogged.mapper.refresh.cached? session.unlogged.now =
      session.mapper.refresh.cached? session.now := rfl
  unfold beginRefresh
  rw [hc]
  split
  · rfl
  · exact ha

/-- What happens in a turn does not depend on the log. -/
theorem turn_unlogged (admission : Admission) (session : Session) (caller : Nat) :
    (session.unlogged.turn admission caller).unlogged =
      (session.turn admission caller).unlogged := by
  refine turn_rel (R := fun one other => one.unlogged = other.unlogged) rfl rfl fun phase _ => ?_
  cases phase with
  | starting due request =>
    cases request with
    | query query => cases query <;> rfl
    | refresh asked => exact beginRefresh_unlogged session admission caller _
  | queued interval => exact enter_unlogged session caller interval
  | fetching turn interval outcome due => cases outcome <;> rfl
  | finished time answer => rfl

/-- Sessions that differ in their logs at most do so after a turn. -/
theorem unlogged_turn (h : other.unlogged = session.unlogged) (admission : Admission)
    (caller : Nat) :
    (other.turn admission caller).unlogged = (session.turn admission caller).unlogged := by
  rw [← turn_unlogged, h, turn_unlogged]

/-- The order in a session does not depend on the log. -/
theorem Orderly.of_unlogged (h : session.Orderly) (same : other.unlogged = session.unlogged) :
    other.Orderly := by
  obtain ⟨now, mapper, gate, source, calls, log⟩ := session
  obtain ⟨now', mapper', gate', source', calls', log'⟩ := other
  cases same
  exact ⟨h.serves, h.overdue⟩

/-- A refresh that looks at the last answer in vain goes on like one that does not look. -/
theorem turn_of_due (h : session.mapper.refresh.cached? session.now = none) (caller : Nat) :
    session.turn .checkFirst caller = session.turn .gateOnly caller := by
  refine turn_rel rfl rfl fun phase _ => ?_
  cases phase with
  | starting due request =>
    cases request with
    | query query => rfl
    | refresh asked => exact beginRefresh_eq_arrive (fun _ => h) caller _
  | _ => rfl

/-- A quiet call changes the registry in the same way in sessions with one mapper and one
source, and is answered the same. -/
theorem turn_of_quiet {due : Instant} {query : Query} (quiet : query.Quiet)
    (mapper : other.mapper = session.mapper) (source : other.source = session.source)
    (ready : session.ready? caller = some (.starting due (.query query)))
    (also : other.ready? caller = some (.starting due (.query query)))
    (first second : Admission) :
    ∃ registered answer, registered.refresh = session.mapper.refresh ∧
      session.turn first caller =
        { session with
          mapper := registered
          calls := session.calls.set caller (.finished session.now answer) } ∧
      other.turn second caller =
        { other with
          mapper := registered
          calls := other.calls.set caller (.finished other.now answer) } := by
  have ha : (other.ask query).2 = (session.ask query).2 := by
    cases query <;> simp only [Session.ask, mapper, source]
  have hr : (other.ask query).1.mapper = (session.ask query).1.mapper := by
    cases query <;> simp only [Session.ask, report, mapper]
  obtain ⟨registry, hs⟩ := session.ask_of_quiet quiet
  obtain ⟨registry', ho⟩ := other.ask_of_quiet quiet
  rw [hs, ho] at hr
  dsimp only at hr
  refine ⟨{ session.mapper with registry := registry }, (session.ask query).2, rfl, ?_, ?_⟩
  · rw [turn_of_ready first ready, goOn, hs]
    rfl
  · rw [turn_of_ready second also, goOn, ho, hr, ha]
    rfl

end ModelRegistry.Session
