import ModelRegistry.Proofs.DiscoveryCalls

/-!
# The protocol of refreshes

What the order at the gate and the deadline come to: discovery is called by one
refresh at a time, only when the stored answer is due, and at most once by each
refresh; and an answer that was taken up keeps all refreshes from calling
discovery until its deadline, unless it is dropped. The statements are about
every session that a run reaches, so about every moment of every run. That a
refresh comes to its end is not claimed: a response may never come.
-/

namespace ModelRegistry

/-- Changes other than a reset do not shorten how long an answer is valid. -/
theorem Change.validUntil_foldl_apply {changes : List Change} {mapper : Mapper}
    {instant : Instant} (h : mapper.refresh.ValidUntil instant)
    (keeps : Change.dropped ∉ changes) :
    (changes.foldl Change.apply mapper).refresh.ValidUntil instant := by
  induction changes generalizing mapper with
  | nil => exact h
  | cons head rest ih =>
    rw [List.mem_cons, not_or] at keeps
    refine ih ?_ keeps.2
    cases head with
    | registered registration => exact h
    | committed commit registrations => exact h.commit _ _ _
    | dropped => exact absurd rfl keeps.1

namespace Session

/-- A refresh that takes up an answer leaves it valid until its deadline. -/
theorem validUntil_turn {session : Session} {caller : Nat} {turn due : Instant}
    {interval : Duration} {resources : ResourceSet} (admission : Admission)
    (ready : session.ready? caller = some (.fetching turn interval (.ok resources) due)) :
    (session.turn admission caller).mapper.refresh.ValidUntil
      (RefreshState.deadlineAfter turn interval) := by
  rw [turn_of_ready admission ready]
  exact RefreshState.validUntil_commit _ _ _ _

/-- At every moment of every run, whatever the calls are and in whatever order
the callers have their turns:

* one refresh at most waits for discovery, it holds the gate, and the gate is
  free once no refresh is at it;
* whenever discovery is called, there is no answer or its deadline has come;
* each call makes at most one discovery call, and a refresh that obtains the gate
  makes one exactly if the answer is due at that instant;
* whoever waits for a response keeps the instant and the interval with which it
  obtained the gate, and once it takes the response up, discovery is not called
  before the deadline that these give, unless everything is dropped before. -/
theorem refresh_protocol (admission : Admission) (now : Instant) (mapper : Mapper)
    (source : Source) (moves : List Move) :
    let first := Session.start now mapper source
    let session := first.run admission moves
    (∀ caller other, InPhase Phase.Fetching session.calls caller →
      InPhase Phase.Fetching session.calls other → caller = other) ∧
    (∀ caller, InPhase Phase.Fetching session.calls caller →
      session.gate.holder = some caller) ∧
    (∀ caller, session.gate.holder = some caller →
      InPhase Phase.AtGate session.calls caller) ∧
    ((∀ caller, ¬InPhase Phase.AtGate session.calls caller) → session.gate = .free) ∧
    (∀ move, session.Discovers admission move → session.mapper.refresh.Due session.now) ∧
    (∀ move, session.Discovers admission move →
      ∃ caller interval, move = .turn caller ∧ session.Obtains admission caller interval) ∧
    (∀ caller, discoveries admission caller first moves ≤ 1) ∧
    (∀ caller interval, session.Obtains admission caller interval →
      (session.Discovers admission (.turn caller) ↔
        session.mapper.refresh.Due session.now)) ∧
    (∀ caller turn interval outcome due,
      session.calls[caller]? = some (.fetching turn interval outcome due) →
      CalledDiscovery admission first moves caller turn interval outcome) ∧
    (∀ caller turn interval resources due later move,
      session.ready? caller = some (.fetching turn interval (.ok resources) due) →
      Change.dropped ∉ (session.turn admission caller).changes admission later →
      ((session.turn admission caller).run admission later).Discovers admission move →
      RefreshState.deadlineAfter turn interval ≤
        ((session.turn admission caller).run admission later).now) := by
  intro first session
  have h : session.Orderly := orderly_run admission now mapper source moves
  refine ⟨?_, h.serves.holds, fun _ => h.serves.atGate_of_holder, ?_, ?_, ?_, ?_,
    fun _ _ obtains => obtains.discovers_iff, fun _ _ _ _ _ => fetching_origin, ?_⟩
  · intro caller other hc ho
    have hh := h.serves.holds caller hc
    rw [h.serves.holds other ho] at hh
    exact (Option.some.inj hh).symm
  · intro away
    have hl : session.gate.line = [] :=
      List.eq_nil_iff_forall_not_mem.mpr fun caller hm =>
        away caller ((h.serves.mem_line caller).mp hm)
    exact Gate.eq_free_of_line hl
  · intro move hd
    obtain ⟨_, _, -, -, due⟩ := h.discovers_iff.mp hd
    exact due
  · intro move hd
    obtain ⟨caller, interval, hm, obtains, -⟩ := h.discovers_iff.mp hd
    exact ⟨caller, interval, hm, obtains⟩
  · intro caller
    exact ((orderly_start now mapper source).discoveries_le_one admission caller moves).1
  · intro caller turn interval resources due later move ready keeps hd
    have hv := Change.validUntil_foldl_apply (validUntil_turn admission ready) keeps
    rw [← mapper_run] at hv
    have ho := (h.of_turned (h.turned admission caller)).run admission later
    obtain ⟨_, _, -, -, hdue⟩ := ho.discovers_iff.mp hd
    exact hv.le_of_due hdue

/-- The deadline is tight: of two refreshes with one interval the second calls
discovery at the very deadline of the answer to the first. -/
theorem discovers_at_deadline :
    let interval : Duration := ⟨10, by decide⟩
    let first := Session.start 0 (.create .ofText 1 .default []) ⟨[⟨.ok .empty, 5⟩], 0⟩
    let settled := (first.run .checkFirst
      [.call 0 (.refresh (some interval)), .turn 0, .wait 5]).turn .checkFirst 0
    let due := settled.run .checkFirst [.call 0 (.refresh (some interval)), .wait 5]
    due.Discovers .checkFirst (.turn 1) ∧ due.now = 10 ∧
      RefreshState.deadlineAfter 0 interval ≤ 10 := by
  intro interval first settled due
  have hd : due.Discovers .checkFirst (.turn 1) := by
    rw [Discovers]
    decide
  obtain ⟨-, -, -, -, -, -, -, -, -, after⟩ :=
    refresh_protocol .checkFirst 0 (.create .ofText 1 .default []) ⟨[⟨.ok .empty, 5⟩], 0⟩
      [.call 0 (.refresh (some interval)), .turn 0, .wait 5]
  exact ⟨hd, rfl, after 0 0 interval .empty 5 _ (.turn 1) rfl List.not_mem_nil hd⟩

end Session

end ModelRegistry
