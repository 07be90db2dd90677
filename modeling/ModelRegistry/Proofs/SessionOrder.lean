import ModelRegistry.Proofs.GateOrder

/-!
# Orderly sessions

The order at the gate and the deadline of the stored answer make up the invariant
of a session. It holds when nobody has called yet and every move keeps it, so it
holds after every run. What it is good for is said in the modules that use it;
here it only decides which turns call discovery.
-/

namespace ModelRegistry

/-- A refresh in this phase called discovery when the stored answer was due, and
that answer is still due. -/
def Phase.Overdue (state : RefreshState) : Phase → Prop
  | .fetching turn _ _ _ => state.Due turn
  | _ => True

namespace Session

/-- The gate serves the calls in order, and whoever waits for discovery waits for
an answer that is due. -/
structure Orderly (session : Session) : Prop where
  /-- The gate serves the calls in order. -/
  serves : session.gate.Serves session.calls
  /-- Whoever waits for discovery waits for an answer that is due. -/
  overdue : ∀ phase ∈ session.calls, phase.Overdue session.mapper.refresh

/-- Before the first call a session is in order. -/
theorem orderly_start (now : Instant) (mapper : Mapper) (source : Source) :
    (start now mapper source).Orderly where
  serves := .start
  overdue := nofun

/-- A call answered at once leaves the gate as it is. -/
theorem gate_ask (session : Session) (query : Query) :
    (session.ask query).1.gate = session.gate := by cases query <;> rfl

/-- A call answered at once leaves the calls as they are. -/
theorem calls_ask (session : Session) (query : Query) :
    (session.ask query).1.calls = session.calls := by cases query <;> rfl

/-- A call answered at once comes to its end, and no other call changes. -/
theorem calls_finish_ask (session : Session) (query : Query) (caller : Nat) :
    ((session.ask query).1.finish caller (session.ask query).2).calls =
      session.calls.set caller (.finished (session.ask query).1.now (session.ask query).2) := by
  rw [finish, setPhase, ← calls_ask session query]

/-- A call answered at once calls no discovery. -/
theorem source_calls_ask (session : Session) (query : Query) :
    (session.ask query).1.source.calls = session.source.calls := by cases query <;> rfl

/-- No time is taken back by a call answered at once. -/
theorem now_le_ask (session : Session) (query : Query) :
    session.now ≤ (session.ask query).1.now := by
  cases query with
  | wait nanos => exact Nat.le_add_right session.now nanos
  | _ => exact Nat.le_refl session.now

/-- A call answered at once leaves the stored answer as it is, or drops it. -/
theorem refresh_ask (session : Session) (query : Query) :
    (session.ask query).1.mapper.refresh = session.mapper.refresh ∨
      (session.ask query).1.mapper.refresh = .start := by
  cases query with
  | reset => exact .inr rfl
  | _ => exact .inl rfl

namespace Orderly

variable {admission : Admission} {session : Session}

/-- Whoever holds the gate has come to it. -/
theorem inside (h : session.Orderly) : session.HeldFromInside := by
  intro caller due request held hp
  obtain ⟨phase, hq, ha⟩ := h.serves.atGate_of_holder held
  rw [hp] at hq
  cases hq
  exact ha

/-- The refresh that waits for discovery holds the gate. -/
theorem held_of_fetching (h : session.Orderly) {caller : Nat} {turn due : Instant}
    {interval : Duration} {outcome : DiscoveryOutcome}
    (hp : session.calls[caller]? = some (.fetching turn interval outcome due)) :
    session.gate.holder = some caller := h.serves.holds caller ⟨_, hp, trivial⟩

/-- The answer stored while a refresh waits for discovery was due at its turn. -/
theorem due_of_fetching (h : session.Orderly) {caller : Nat} {turn due : Instant}
    {interval : Duration} {outcome : DiscoveryOutcome}
    (hp : session.calls[caller]? = some (.fetching turn interval outcome due)) :
    session.mapper.refresh.Due turn := h.overdue _ (List.mem_of_getElem? hp)

/-- A call that goes to another phase waits for an answer that is due, if it
waits, and so do the others. -/
theorem overdue_set (h : session.Orderly) {new : Phase}
    (hn : new.Overdue session.mapper.refresh) (caller : Nat) :
    ∀ phase ∈ session.calls.set caller new, phase.Overdue session.mapper.refresh := by
  intro phase hp
  rcases List.mem_or_eq_of_mem_set hp with hm | rfl
  · exact h.overdue phase hm
  · exact hn

/-- A refresh that leaves the gate leaves the session in order, whatever it does
to the stored answer. -/
theorem leave (h : session.Orderly) {caller : Nat} {old new : Phase}
    (hp : session.calls[caller]? = some old) (held : session.gate.holder = some caller)
    (ends : ¬new.AtGate) {after : Session} (hg : after.gate = session.gate.leave)
    (hc : after.calls = session.calls.set caller new) : after.Orderly where
  serves := by
    rw [hg, hc]
    exact h.serves.leave hp held ends
  overdue := by
    intro phase hm
    rw [hc] at hm
    cases phase with
    | fetching turn interval outcome due =>
      -- Nothing is known of the stored answer now, but nobody waits for discovery.
      obtain ⟨other, ho⟩ := List.mem_iff_getElem?.mp hm
      exact absurd ⟨_, ho, trivial⟩ (h.serves.quiet hp held (fun hf => ends hf.atGate) other)
    | starting due request => trivial
    | queued interval => trivial
    | finished time answer => trivial

/-- A call answered at once leaves a session in order. -/
theorem ask (h : session.Orderly) {caller : Nat} {due : Instant} {query : Query}
    (hp : session.calls[caller]? = some (.starting due (.query query))) :
    ((session.ask query).1.finish caller (session.ask query).2).Orderly where
  serves := by
    have hg : ((session.ask query).1.finish caller (session.ask query).2).gate = session.gate :=
      gate_ask session query
    rw [hg, calls_finish_ask]
    exact h.serves.pass hp id id
  overdue := by
    have hm : ((session.ask query).1.finish caller (session.ask query).2).mapper =
        (session.ask query).1.mapper := rfl
    rw [hm, calls_finish_ask]
    rcases session.refresh_ask query with hr | hr
    · rw [hr]
      exact h.overdue_set (by trivial) caller
    · intro phase hm
      rw [hr]
      cases phase with
      | fetching turn interval outcome due => exact RefreshState.due_start turn
      | starting due request => trivial
      | queued interval => trivial
      | finished time answer => trivial

/-- A refresh that obtains the gate and calls discovery leaves a session in order. -/
theorem discover (h : session.Orderly) {caller : Nat} {interval : Duration}
    (obtains : session.Obtains admission caller interval)
    (due : session.mapper.refresh.Due session.now) (outcome : DiscoveryOutcome)
    (response : Instant) {after : Session} (hm : after.mapper = session.mapper)
    (hg : after.gate = ⟨some caller, session.gate.queue⟩)
    (hc : after.calls =
      session.calls.set caller (.fetching session.now interval outcome response)) :
    after.Orderly where
  serves := by
    rw [hg, hc]
    cases obtains with
    | atOnce ready unserved free =>
      have ha : session.gate.arrive caller = ⟨some caller, session.gate.queue⟩ := by
        simp only [Gate.arrive, free]
      rw [← ha]
      exact h.serves.arrive (getElem?_of_ready? ready) id trivial fun _ => free
    | handed ready =>
      obtain ⟨hp, held⟩ := ready?_queued_iff.mp ready
      rw [← held]
      exact h.serves.stay hp held trivial
  overdue := by
    rw [hm, hc]
    exact h.overdue_set (by exact due) caller

/-- A refresh that obtains the gate and takes a valid answer leaves a session in
order. -/
theorem take (h : session.Orderly) {caller : Nat} {interval : Duration}
    (obtains : session.Obtains admission caller interval) (answer : Answer) {after : Session}
    (hm : after.mapper = session.mapper) (hg : after.gate = session.gate.leave)
    (hc : after.calls = session.calls.set caller (.finished session.now answer)) :
    after.Orderly := by
  cases obtains with
  | atOnce ready unserved free =>
    have hl := h.serves.fair.leave_eq free
    constructor
    · rw [hg, hc, hl]
      exact h.serves.pass (getElem?_of_ready? ready) id id
    · rw [hm, hc]
      exact h.overdue_set (by trivial) caller
  | handed ready =>
    obtain ⟨hp, held⟩ := ready?_queued_iff.mp ready
    exact h.leave hp held id hg hc

/-- A refresh that queues leaves a session in order. -/
theorem queue (h : session.Orderly) {caller holder : Nat} {due : Instant} {request : Request}
    (hp : session.calls[caller]? = some (.starting due request))
    (held : session.gate.holder = some holder) (interval : Duration) :
    { session with
      gate := ⟨some holder, session.gate.queue ++ [caller]⟩
      calls := session.calls.set caller (.queued interval) : Session }.Orderly where
  serves := by
    have ha : session.gate.arrive caller = ⟨some holder, session.gate.queue ++ [caller]⟩ := by
      simp only [Gate.arrive, held]
    rw [← ha]
    exact h.serves.arrive hp id trivial False.elim
  overdue := h.overdue_set (by trivial) caller

/-- What a turn of a caller does is one of the things that are listed. -/
theorem turned (h : session.Orderly) (admission : Admission) (caller : Nat) :
    Turned admission session caller (session.turn admission caller) :=
  turned_of_inside admission h.inside caller

/-- Whatever happens in a turn leaves a session in order. -/
theorem of_turned (h : session.Orderly) {caller : Nat} {after : Session}
    (ht : Turned admission session caller after) : after.Orderly := by
  cases ht with
  | idle waits => exact h
  | asked ready => exact h.ask (getElem?_of_ready? ready)
  | served ready look cached =>
    exact ⟨h.serves.pass (getElem?_of_ready? ready) id id,
      h.overdue_set (by trivial) caller⟩
  | queued ready unserved held => exact h.queue (getElem?_of_ready? ready) held _
  | took obtains cached => exact h.take obtains _ rfl rfl rfl
  | discovered obtains cached =>
    exact h.discover obtains (RefreshState.cached?_eq_none_iff.mp cached) _ _ rfl rfl rfl
  | failed ready =>
    have hp := getElem?_of_ready? ready
    exact h.leave hp (h.held_of_fetching hp) id rfl rfl
  | committed ready =>
    have hp := getElem?_of_ready? ready
    exact h.leave hp (h.held_of_fetching hp) id rfl rfl

/-- Every move leaves a session in order. -/
theorem move (h : session.Orderly) (admission : Admission) (move : Move) :
    (session.move admission move).Orderly := by
  cases move with
  | call delay request =>
    refine ⟨h.serves.call id, ?_⟩
    intro phase hm
    rcases List.mem_append.mp hm with ho | hn
    · exact h.overdue phase ho
    · rw [List.mem_singleton.mp hn]
      trivial
  | wait nanos => exact ⟨h.serves, h.overdue⟩
  | turn caller => exact h.of_turned (h.turned admission caller)

/-- Every run leaves a session in order. -/
theorem run (h : session.Orderly) (admission : Admission) (moves : List Move) :
    (session.run admission moves).Orderly := by
  induction moves generalizing session with
  | nil => exact h
  | cons head rest ih => exact ih (h.move admission head)

end Orderly

/-- After every run from the start a session is in order. -/
theorem orderly_run (admission : Admission) (now : Instant) (mapper : Mapper) (source : Source)
    (moves : List Move) : ((start now mapper source).run admission moves).Orderly :=
  (orderly_start now mapper source).run admission moves

end Session

end ModelRegistry
