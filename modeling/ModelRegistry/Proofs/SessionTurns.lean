import ModelRegistry.Session

/-!
# What a turn can do

Every turn of a caller is one of eight things: nothing, a call answered at once,
a refresh answered before it comes to the gate, a refresh that queues, a refresh
that obtains the gate and then takes a valid answer or calls discovery, and the
two ways in which a discovery call ends. They are listed once, each with the
session that it leaves, and every property of runs is proved from that list. The
obtaining of the gate is a relation of its own, because a refresh obtains it in
two ways: it finds the gate free, or the gate was handed to it in the queue.
-/

namespace ModelRegistry.Session

/-- The phase of a call that can go on now. -/
def ready? (session : Session) (caller : Nat) : Option Phase :=
  session.calls[caller]?.filter fun phase =>
    (session.due? caller phase).any (decide <| · ≤ session.now)

/-- A call that can go on is in the phase in which it goes on. -/
theorem getElem?_of_ready? {session : Session} {caller : Nat} {phase : Phase}
    (h : session.ready? caller = some phase) : session.calls[caller]? = some phase :=
  (Option.filter_eq_some_iff.mp h).1

/-- A call waits for no other and can go on once its instant has come. -/
theorem ready?_eq_some_iff {session : Session} {caller : Nat} {phase : Phase} :
    session.ready? caller = some phase ↔
      session.calls[caller]? = some phase ∧
        ∃ due, session.due? caller phase = some due ∧ due ≤ session.now := by
  simp only [ready?, Option.filter_eq_some_iff, Option.any_eq_true, decide_eq_true_eq]

/-- A call that waits for the gate can go on exactly when the gate was handed to
it. -/
theorem ready?_queued_iff {session : Session} {caller : Nat} {interval : Duration} :
    session.ready? caller = some (.queued interval) ↔
      session.calls[caller]? = some (.queued interval) ∧ session.gate.holder = some caller := by
  rw [ready?_eq_some_iff]
  refine and_congr_right fun _ => ?_
  by_cases hg : session.gate.holder = some caller <;> simp [due?, hg]

/-- In a turn of a caller a refresh with an interval obtains the gate. -/
inductive Obtains (admission : Admission) (session : Session) (caller : Nat) : Duration → Prop
  /-- It has not been served before it comes to the gate, and finds it free. -/
  | atOnce {due : Instant} {asked : Option Duration}
      (ready : session.ready? caller = some (.starting due (.refresh asked)))
      (unserved : admission = .checkFirst → session.mapper.refresh.cached? session.now = none)
      (free : session.gate.holder = none) :
      Obtains admission session caller (asked.getD session.mapper.config.refreshInterval)
  /-- It is in the queue, and the gate was handed to it. -/
  | handed {interval : Duration} (ready : session.ready? caller = some (.queued interval)) :
      Obtains admission session caller interval

/-- The session that a turn of a caller leaves, by what happens in the turn. -/
inductive Turned (admission : Admission) (session : Session) (caller : Nat) : Session → Prop
  /-- The call does not exist, is over, or has to wait. -/
  | idle (waits : session.ready? caller = none) : Turned admission session caller session
  /-- A call is answered at once. -/
  | asked {due : Instant} {query : Query}
      (ready : session.ready? caller = some (.starting due (.query query))) :
      Turned admission session caller
        ((session.ask query).1.finish caller (session.ask query).2)
  /-- A refresh is served before it comes to the gate. -/
  | served {due : Instant} {asked : Option Duration} {resources : ResourceSet}
      (ready : session.ready? caller = some (.starting due (.refresh asked)))
      (look : admission = .checkFirst)
      (cached : session.mapper.refresh.cached? session.now = some resources) :
      Turned admission session caller
        { session with
          calls := session.calls.set caller (.finished session.now (.resources resources))
          log := session.log ++ [.notDue] }
  /-- A refresh finds the gate held and queues for it. -/
  | queued {due : Instant} {asked : Option Duration} {holder : Nat}
      (ready : session.ready? caller = some (.starting due (.refresh asked)))
      (unserved : admission = .checkFirst → session.mapper.refresh.cached? session.now = none)
      (held : session.gate.holder = some holder) :
      Turned admission session caller
        { session with
          gate := ⟨some holder, session.gate.queue ++ [caller]⟩
          calls := session.calls.set caller
            (.queued (asked.getD session.mapper.config.refreshInterval)) }
  /-- A refresh obtains the gate, finds a valid answer and leaves the gate. -/
  | took {interval : Duration} {resources : ResourceSet}
      (obtains : session.Obtains admission caller interval)
      (cached : session.mapper.refresh.cached? session.now = some resources) :
      Turned admission session caller
        { session with
          gate := session.gate.leave
          calls := session.calls.set caller (.finished session.now (.resources resources))
          log := session.log ++ [.refreshedByOther] }
  /-- A refresh obtains the gate, finds no valid answer and calls discovery. -/
  | discovered {interval : Duration}
      (obtains : session.Obtains admission caller interval)
      (cached : session.mapper.refresh.cached? session.now = none) :
      Turned admission session caller
        { session with
          gate := ⟨some caller, session.gate.queue⟩
          source := session.source.afterCall
          calls := session.calls.set caller
            (.fetching session.now interval session.source.response.outcome
              (session.now + session.source.response.latency)) }
  /-- A discovery call has failed; its refresh leaves the gate. -/
  | failed {turn due : Instant} {interval : Duration} {error : DiscoveryError}
      (ready : session.ready? caller = some (.fetching turn interval (.error error) due)) :
      Turned admission session caller
        { session with
          gate := session.gate.leave
          calls := session.calls.set caller (.finished session.now (.failed error))
          log := session.log ++ [.discoveryFailed error] }
  /-- A discovery call has succeeded; its refresh takes the answer up and leaves
  the gate. -/
  | committed {turn due : Instant} {interval : Duration} {resources : ResourceSet}
      (ready : session.ready? caller = some (.fetching turn interval (.ok resources) due)) :
      Turned admission session caller
        { session with
          mapper := session.mapper.commit turn interval resources
          gate := session.gate.leave
          calls := session.calls.set caller (.finished session.now (.resources resources))
          log := session.log ++ session.mapper.commitEvents interval resources }

/-- A turn of a call that cannot go on changes nothing. -/
theorem turn_of_not_ready {session : Session} {caller : Nat} (admission : Admission)
    (h : session.ready? caller = none) : session.turn admission caller = session := by
  unfold turn
  cases hp : session.calls[caller]? with
  | none => rfl
  | some phase =>
    dsimp only
    cases hd : session.due? caller phase with
    | none => rfl
    | some due =>
      rcases Nat.lt_or_ge session.now due with hn | hn
      · exact if_pos hn
      · have hr : session.ready? caller = some phase :=
          ready?_eq_some_iff.mpr ⟨hp, due, hd, hn⟩
        rw [h] at hr
        cases hr

/-- What a call does that goes on in a phase. -/
def goOn (admission : Admission) (session : Session) (caller : Nat) : Phase → Session
  | .starting _ (.query query) => (session.ask query).1.finish caller (session.ask query).2
  | .starting _ (.refresh asked) =>
    session.beginRefresh admission caller (asked.getD session.mapper.config.refreshInterval)
  | .queued interval => session.enter caller interval
  | .fetching turn interval outcome _ => session.settle caller turn interval outcome
  | .finished _ _ => session

/-- A turn of a call that can go on is decided by the phase of the call. -/
theorem turn_of_ready {session : Session} {caller : Nat} {phase : Phase} (admission : Admission)
    (h : session.ready? caller = some phase) :
    session.turn admission caller = session.goOn admission caller phase := by
  obtain ⟨hp, due, hd, hn⟩ := ready?_eq_some_iff.mp h
  unfold turn
  rw [hp]
  dsimp only
  rw [hd]
  dsimp only
  rw [if_neg (Nat.not_lt.mpr hn)]
  cases phase with
  | starting due request => cases request <;> rfl
  | queued interval => rfl
  | fetching turn interval outcome due => rfl
  | finished time answer => rfl

/-- Two sessions in which the same calls can go on compare after a turn as they did before, if
they do so whatever the call does that goes on. -/
theorem turn_rel {R : Session → Session → Prop} {session other : Session} {caller place : Nat}
    {first second : Admission} (ready : other.ready? place = session.ready? caller)
    (idle : R other session)
    (goes : ∀ phase, session.ready? caller = some phase →
      R (other.goOn second place phase) (session.goOn first caller phase)) :
    R (other.turn second place) (session.turn first caller) := by
  cases hp : session.ready? caller with
  | none =>
    rw [turn_of_not_ready second (ready.trans hp), turn_of_not_ready first hp]
    exact idle
  | some phase =>
    rw [turn_of_ready second (ready.trans hp), turn_of_ready first hp]
    exact goes phase hp

/-- A refresh that holds the gate takes a valid answer or calls discovery. -/
theorem enter_eq (session : Session) (caller : Nat) (interval : Duration) :
    session.enter caller interval =
      match session.mapper.refresh.cached? session.now with
      | some resources =>
        { session with
          gate := session.gate.leave
          calls := session.calls.set caller (.finished session.now (.resources resources))
          log := session.log ++ [.refreshedByOther] }
      | none =>
        { session with
          source := session.source.afterCall
          calls := session.calls.set caller
            (.fetching session.now interval session.source.response.outcome
              (session.now + session.source.response.latency)) } := by
  unfold enter
  cases session.mapper.refresh.cached? session.now <;> rfl

/-- A refresh that is not served before it comes to the gate comes to it. -/
theorem beginRefresh_eq_arrive {admission : Admission} {session : Session}
    (h : admission = .checkFirst → session.mapper.refresh.cached? session.now = none)
    (caller : Nat) (interval : Duration) :
    session.beginRefresh admission caller interval = session.arrive caller interval := by
  unfold beginRefresh
  cases admission with
  | checkFirst => rw [h rfl]
  | gateOnly => rfl

/-- A refresh that obtains the gate takes a valid answer or calls discovery,
whichever way it obtained the gate. -/
theorem turn_of_obtains {admission : Admission} {session : Session} {caller : Nat}
    {interval : Duration} (h : session.Obtains admission caller interval) :
    session.turn admission caller =
      { session with gate := ⟨some caller, session.gate.queue⟩ }.enter caller interval := by
  cases h with
  | atOnce ready unserved free =>
    have ha : session.gate.arrive caller = ⟨some caller, session.gate.queue⟩ := by
      simp only [Gate.arrive, free]
    rw [turn_of_ready admission ready, goOn, beginRefresh_eq_arrive unserved, arrive, ha]
    exact if_pos rfl
  | handed ready =>
    have hg : (⟨some caller, session.gate.queue⟩ : Gate) = session.gate := by
      rw [← (ready?_queued_iff.mp ready).2]
    rw [turn_of_ready admission ready, hg]
    rfl

/-- A refresh that obtains the gate is served the last answer while it is valid, and
leaves the gate. -/
theorem turn_of_took {admission : Admission} {session : Session} {caller : Nat}
    {interval : Duration} {resources : ResourceSet}
    (obtains : session.Obtains admission caller interval)
    (cached : session.mapper.refresh.cached? session.now = some resources) :
    session.turn admission caller =
      { session with
        gate := session.gate.leave
        calls := session.calls.set caller (.finished session.now (.resources resources))
        log := session.log ++ [.refreshedByOther] } := by
  rw [turn_of_obtains obtains, enter_eq]
  dsimp only
  rw [cached]
  rfl

/-- A refresh that obtains the gate is one that takes or discovers. -/
theorem turned_of_obtains {admission : Admission} {session : Session} {caller : Nat}
    {interval : Duration} (h : session.Obtains admission caller interval) :
    Turned admission session caller (session.turn admission caller) := by
  cases hc : session.mapper.refresh.cached? session.now with
  | some resources =>
    rw [turn_of_took h hc]
    exact .took h hc
  | none =>
    rw [turn_of_obtains h, enter_eq]
    dsimp only
    rw [hc]
    exact .discovered h hc

/-- Whoever holds the gate has come to it. -/
def HeldFromInside (session : Session) : Prop :=
  ∀ caller due request, session.gate.holder = some caller →
    session.calls[caller]? ≠ some (.starting due request)

/-- A refresh that looks at the last answer is served it while it is valid. -/
theorem turn_of_served {session : Session} {caller : Nat} {due : Instant}
    {asked : Option Duration} {resources : ResourceSet}
    (ready : session.ready? caller = some (.starting due (.refresh asked)))
    (cached : session.mapper.refresh.cached? session.now = some resources) :
    session.turn .checkFirst caller =
      { session with
        calls := session.calls.set caller (.finished session.now (.resources resources))
        log := session.log ++ [.notDue] } := by
  rw [turn_of_ready _ ready, goOn]
  unfold beginRefresh
  rw [cached]
  rfl

/-- A refresh that finds the gate held queues for it. -/
theorem turn_of_held {admission : Admission} {session : Session} {caller holder : Nat}
    {due : Instant} {asked : Option Duration} (inside : session.HeldFromInside)
    (ready : session.ready? caller = some (.starting due (.refresh asked)))
    (unserved : admission = .checkFirst → session.mapper.refresh.cached? session.now = none)
    (held : session.gate.holder = some holder) :
    session.turn admission caller =
      { session with
        gate := ⟨some holder, session.gate.queue ++ [caller]⟩
        calls := session.calls.set caller
          (.queued (asked.getD session.mapper.config.refreshInterval)) } := by
  have ha : session.gate.arrive caller = ⟨some holder, session.gate.queue ++ [caller]⟩ := by
    simp only [Gate.arrive, held]
  have hh : ¬some holder = some caller := fun he =>
    inside caller due _ (held.trans he) (getElem?_of_ready? ready)
  rw [turn_of_ready _ ready, goOn, beginRefresh_eq_arrive unserved, arrive, ha]
  dsimp only
  rw [if_neg hh]
  rfl

/-- A refresh that begins is served, queues or obtains the gate. -/
theorem turned_of_starting {admission : Admission} {session : Session} {caller : Nat}
    {due : Instant} {asked : Option Duration} (inside : session.HeldFromInside)
    (ready : session.ready? caller = some (.starting due (.refresh asked))) :
    Turned admission session caller (session.turn admission caller) := by
  -- Split by whether it is served and not by the admission, since a refresh that
  -- looked in vain goes on like one that did not look.
  by_cases hs : admission = .checkFirst ∧
      ∃ resources, session.mapper.refresh.cached? session.now = some resources
  · obtain ⟨rfl, resources, hc⟩ := hs
    rw [turn_of_served ready hc]
    exact .served ready rfl hc
  · have hu : admission = .checkFirst →
        session.mapper.refresh.cached? session.now = none := by
      intro ha
      exact Option.eq_none_iff_forall_ne_some.mpr fun resources hc => hs ⟨ha, resources, hc⟩
    cases hg : session.gate.holder with
    | none => exact turned_of_obtains (.atOnce ready hu hg)
    | some holder =>
      rw [turn_of_held inside ready hu hg]
      exact .queued ready hu hg

/-- Every turn is one of those that are listed. -/
theorem turned_of_inside (admission : Admission) {session : Session}
    (inside : session.HeldFromInside) (caller : Nat) :
    Turned admission session caller (session.turn admission caller) := by
  cases hr : session.ready? caller with
  | none =>
    rw [turn_of_not_ready admission hr]
    exact .idle hr
  | some phase =>
    cases phase with
    | starting due request =>
      cases request with
      | query query =>
        rw [turn_of_ready admission hr]
        exact .asked hr
      | refresh asked => exact turned_of_starting inside hr
    | queued interval => exact turned_of_obtains (.handed hr)
    | fetching turn interval outcome due =>
      rw [turn_of_ready admission hr]
      cases outcome with
      | error error => exact .failed hr
      | ok resources => exact .committed hr
    | finished time answer =>
      obtain ⟨-, due, hd, -⟩ := ready?_eq_some_iff.mp hr
      cases hd

end ModelRegistry.Session
