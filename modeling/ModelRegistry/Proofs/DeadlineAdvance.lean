import ModelRegistry.Proofs.RefreshProtocol

/-!
# The deadline only advances

The stored deadline is replaced only by whoever took its turn at the gate when that
deadline had come, and no deadline comes before the turn that it counts from. So the
later one of the two is always the new one, the stored deadline never goes back, and
only a reset takes it away. This is so whatever the intervals and the responses are;
how far ahead a deadline is, is not bounded.
-/

namespace ModelRegistry.Session

variable {admission : Admission} {session : Session}

/-- A refresh that takes up an answer stores it with its own deadline, since the answer
that it replaces was due at its turn. -/
theorem Orderly.refresh_turn (h : session.Orderly) {caller : Nat} {turn due : Instant}
    {interval : Duration} {resources : ResourceSet} (admission : Admission)
    (ready : session.ready? caller = some (.fetching turn interval (.ok resources) due)) :
    (session.turn admission caller).mapper.refresh =
      ⟨resources, some (RefreshState.deadlineAfter turn interval)⟩ := by
  have hd := h.due_of_fetching (getElem?_of_ready? ready)
  rw [turn_of_ready admission ready]
  exact RefreshState.commit_of_due hd interval resources

/-- A move leaves the stored answer as it is, drops it, or is the turn of a refresh that
takes up another one and had its turn when the stored one was due. -/
theorem Orderly.refresh_move (h : session.Orderly) (admission : Admission) (move : Move) :
    (session.move admission move).mapper.refresh = session.mapper.refresh ∨
      (∃ caller due, move = .turn caller ∧
        session.ready? caller = some (.starting due (.query .reset)) ∧
        (session.move admission move).mapper.refresh = .start) ∨
      ∃ caller turn interval resources due, move = .turn caller ∧
        session.ready? caller = some (.fetching turn interval (.ok resources) due) ∧
        session.mapper.refresh.Due turn ∧
        (session.move admission move).mapper.refresh =
          ⟨resources, some (RefreshState.deadlineAfter turn interval)⟩ := by
  cases hc : session.change? move with
  | none =>
    rw [mapper_move, hc]
    exact .inl rfl
  | some change =>
    cases changed_of_change? hc with
    | registered ready =>
      rw [mapper_move, hc]
      exact .inl rfl
    | committed ready =>
      exact .inr (.inr ⟨_, _, _, _, _, rfl, ready, h.due_of_fetching (getElem?_of_ready? ready),
        h.refresh_turn admission ready⟩)
    | dropped ready =>
      rw [mapper_move, hc]
      exact .inr (.inl ⟨_, _, rfl, ready, rfl⟩)

/-- At every moment of every run, whatever the calls, their intervals and the responses
are, and in whatever order the callers have their turns:

* once there is a deadline, there is one that is no earlier at every later moment, unless
  everything was dropped before;
* no move takes the deadline away but the turn of a reset;
* whoever takes up a discovery answer called discovery itself, at the instant at which it
  obtained the gate; it leaves its answer with the deadline that this instant and its own
  interval give, and the deadline stored before, if there is one, had come at that instant,
  so it is not the later one of the two. -/
theorem deadline_advances (admission : Admission) (now : Instant) (mapper : Mapper)
    (source : Source) (moves : List Move) :
    let first := Session.start now mapper source
    let session := first.run admission moves
    (∀ later deadline, session.mapper.refresh.deadline = some deadline →
      Change.dropped ∉ session.changes admission later →
      ∃ advanced, (session.run admission later).mapper.refresh.deadline = some advanced ∧
        deadline ≤ advanced) ∧
    (∀ move deadline, session.mapper.refresh.deadline = some deadline →
      (session.move admission move).mapper.refresh.deadline = none →
      ∃ caller due, move = .turn caller ∧
        session.ready? caller = some (.starting due (.query .reset))) ∧
    ∀ caller turn interval resources due,
      session.ready? caller = some (.fetching turn interval (.ok resources) due) →
      CalledDiscovery admission first moves caller turn interval (.ok resources) ∧
      (session.turn admission caller).mapper.refresh =
        ⟨resources, some (RefreshState.deadlineAfter turn interval)⟩ ∧
      ∀ previous, session.mapper.refresh.deadline = some previous →
        previous ≤ turn ∧
        max previous (RefreshState.deadlineAfter turn interval) =
          RefreshState.deadlineAfter turn interval := by
  intro first session
  have h : session.Orderly := orderly_run admission now mapper source moves
  refine ⟨?_, ?_, ?_⟩
  · intro later deadline stored keeps
    have hv : session.mapper.refresh.ValidUntil deadline := ⟨deadline, stored, Nat.le_refl _⟩
    have hr := Change.validUntil_foldl_apply hv keeps
    rw [← mapper_run] at hr
    exact hr
  · intro move deadline stored gone
    rcases h.refresh_move admission move with hs | ⟨caller, due, hm, ready, -⟩ |
      ⟨_, _, _, _, _, -, -, -, hs⟩
    · rw [hs, stored] at gone
      cases gone
    · exact ⟨caller, due, hm, ready⟩
    · rw [hs] at gone
      cases gone
  · intro caller turn interval resources due ready
    have hp := getElem?_of_ready? ready
    refine ⟨fetching_origin hp, h.refresh_turn admission ready, fun previous stored => ?_⟩
    have hle : previous ≤ turn := h.due_of_fetching hp previous stored
    exact ⟨hle, Nat.max_eq_right (hle.trans (RefreshState.le_deadlineAfter turn interval))⟩

/-- An answer that is never valid takes the place of one at its very deadline: the
deadline stays as it is. -/
theorem replaced_at_deadline :
    let ten : Duration := ⟨10, by decide⟩
    let first := Session.start 0 (.create .ofText 1 .default []) ⟨[⟨.ok .empty, 5⟩], 0⟩
    let session := first.run .checkFirst
      [.call 0 (.refresh (some ten)), .turn 0, .wait 5, .turn 0,
        .call 5 (.refresh (some .zero)), .wait 5, .turn 1, .wait 5]
    session.mapper.refresh.deadline = some 10 ∧
      CalledDiscovery .checkFirst first
        [.call 0 (.refresh (some ten)), .turn 0, .wait 5, .turn 0,
          .call 5 (.refresh (some .zero)), .wait 5, .turn 1, .wait 5] 1 10 .zero (.ok .empty) ∧
      (session.turn .checkFirst 1).mapper.refresh.deadline = some 10 := by
  intro ten first session
  have hd : session.mapper.refresh.deadline = some 10 := by decide +kernel
  have hr : session.ready? 1 = some (.fetching 10 .zero (.ok .empty) 15) := by rfl
  obtain ⟨-, -, taken⟩ := deadline_advances .checkFirst 0 (.create .ofText 1 .default [])
    ⟨[⟨.ok .empty, 5⟩], 0⟩ [.call 0 (.refresh (some ten)), .turn 0, .wait 5, .turn 0,
      .call 5 (.refresh (some .zero)), .wait 5, .turn 1, .wait 5]
  obtain ⟨called, stored, later⟩ := taken 1 10 .zero .empty 15 hr
  obtain ⟨-, hmax⟩ := later 10 hd
  refine ⟨hd, called, ?_⟩
  rw [stored, ← hmax]
  decide

end ModelRegistry.Session
