import ModelRegistry.Proofs.BatchRush
import ModelRegistry.Proofs.RefreshProvenance

/-!
# Slow discovery

If every discovery call succeeds, but takes at least as long as the interval of the
refresh that makes it, the answer that is taken up is due at once. So no answer is ever
valid and nobody is served a stored one: a refresh that is over has made a discovery
call of its own. This holds in any run, whatever the calls are and in whatever order
the callers have their turns. A call that never comes to its end is not counted.
-/

namespace ModelRegistry

/-- An answer that only a refresh is given. -/
def Answer.ofRefresh : Answer → Bool
  | .resources _ | .failed _ => true
  | _ => false

namespace Phase

/-- The call is a refresh. -/
def ofRefresh : Phase → Bool
  | .starting _ request => request.isRefresh
  | .queued _ | .fetching .. => true
  | .finished _ answer => answer.ofRefresh

/-- The call is a refresh that waits for discovery or is over. -/
def gone : Phase → Bool
  | .fetching .. => true
  | .finished _ answer => answer.ofRefresh
  | _ => false

/-- The interval with which a call in this phase obtains the gate. -/
def interval? (usual : Duration) : Phase → Option Duration
  | .starting _ (.refresh asked) => some (asked.getD usual)
  | .queued interval => some interval
  | _ => none

/-- A response that is waited for will be taken up when it is due. -/
def Slow : Phase → Prop
  | .fetching turn interval outcome due =>
    (∃ resources, outcome = .ok resources) ∧ RefreshState.deadlineAfter turn interval ≤ due
  | _ => True

/-- A call that is over is gone exactly if it is a refresh. -/
theorem Finished.gone_eq {phase : Phase} (h : phase.Finished) : phase.gone = phase.ofRefresh := by
  obtain ⟨time, answer, rfl⟩ := h
  rfl

end Phase

namespace Session

variable {admission : Admission} {session : Session} {caller : Nat}

/-- No call answered at once is given the answer to a refresh. -/
theorem ofRefresh_ask (session : Session) (query : Query) :
    (session.ask query).2.ofRefresh = false := by
  cases query <;> rfl

/-- A refresh that obtains the gate is one, and is not gone. -/
theorem Obtains.ofRefresh {interval : Duration}
    (obtains : session.Obtains admission caller interval) :
    ∃ phase, session.calls[caller]? = some phase ∧ phase.ofRefresh = true ∧
      phase.gone = false := by
  cases obtains with
  | atOnce ready unserved free => exact ⟨_, getElem?_of_ready? ready, rfl, rfl⟩
  | handed ready => exact ⟨_, getElem?_of_ready? ready, rfl, rfl⟩

/-- What is counted of calls is kept when one goes on to a phase that counts as
much. -/
theorem map_set_of_eq {β : Type} {count : Phase → β} {calls : List Phase} {old new : Phase}
    (hp : calls[caller]? = some old) (same : count new = count old) :
    (calls.set caller new).map count = calls.map count := by
  refine List.ext_getElem? fun other => ?_
  rw [List.map_set, same]
  by_cases he : caller = other
  · subst he
    have hl := (List.getElem?_eq_some_iff.mp hp).1
    rw [List.getElem?_set_self (by rw [List.length_map]; exact hl), List.getElem?_map, hp]
    rfl
  · rw [List.getElem?_set_ne he]

/-- Whatever happens in a turn, a refresh stays one and no other call becomes one. -/
theorem Turned.map_ofRefresh {after : Session} (h : Turned admission session caller after) :
    after.calls.map Phase.ofRefresh = session.calls.map Phase.ofRefresh := by
  cases h with
  | idle waits => rfl
  | asked ready =>
    rw [calls_finish_ask]
    exact map_set_of_eq (getElem?_of_ready? ready) (ofRefresh_ask session _)
  | served ready look cached => exact map_set_of_eq (getElem?_of_ready? ready) rfl
  | queued ready unserved held => exact map_set_of_eq (getElem?_of_ready? ready) rfl
  | took obtains cached =>
    obtain ⟨phase, hp, hr, -⟩ := obtains.ofRefresh
    exact map_set_of_eq hp hr.symm
  | discovered obtains cached =>
    obtain ⟨phase, hp, hr, -⟩ := obtains.ofRefresh
    exact map_set_of_eq hp hr.symm
  | failed ready => exact map_set_of_eq (getElem?_of_ready? ready) rfl
  | committed ready => exact map_set_of_eq (getElem?_of_ready? ready) rfl

/-- A clocked run makes no refreshes and ends none. -/
theorem Clocked.map_ofRefresh {precedes : Nat → Nat → Prop} {moves : List Move}
    (h : Clocked precedes admission session moves) (orderly : session.Orderly) :
    (session.run admission moves).calls.map Phase.ofRefresh =
      session.calls.map Phase.ofRefresh := by
  let same := fun current : Session =>
    current.Orderly ∧ current.calls.map Phase.ofRefresh = session.calls.map Phase.ofRefresh
  have hstep : ∀ current time caller, same current → Chosen precedes current time caller →
      same ({ current with now := time }.turn admission caller) := by
    intro current time caller hc _
    have ht := (hc.1.pass time).turned admission caller
    exact ⟨(hc.1.pass time).of_turned ht, ht.map_ofRefresh.trans hc.2⟩
  exact (h.induction hstep ⟨orderly, rfl⟩).2

/-- The discovery call that a turn makes succeeds, but takes no less than the interval
of its refresh, whose end the platform clock holds. -/
def SlowCall (admission : Admission) (session : Session) (caller : Nat) : Prop :=
  ∀ interval, session.Obtains admission caller interval →
    session.Discovers admission (.turn caller) →
    (∃ resources, session.source.response.outcome = .ok resources) ∧
      interval.nanos ≤ session.source.response.latency ∧
      session.now + interval.nanos ≤ Instant.latest

/-- Whether a discovery call that a turn makes is slow, found by computation. -/
def slowCall? (session : Session) (caller : Nat) : Bool :=
  ((session.ready? caller).bind
    (Phase.interval? session.mapper.config.refreshInterval)).all fun interval =>
      session.source.response.outcome.toBool &&
        decide (interval.nanos ≤ session.source.response.latency) &&
        decide (session.now + interval.nanos ≤ Instant.latest)

/-- Whether all discovery calls of a run are slow, found by computation. -/
def slowRun? (admission : Admission) : Session → List Move → Bool
  | _, [] => true
  | session, .turn caller :: moves =>
    session.slowCall? caller && slowRun? admission (session.turn admission caller) moves
  | session, move :: moves => slowRun? admission (session.move admission move) moves

/-- A call that is found to be slow is. -/
theorem slowCall_of_slowCall? (h : session.slowCall? caller = true) :
    session.SlowCall admission caller := by
  intro interval obtains _
  have hi : (session.ready? caller).bind
      (Phase.interval? session.mapper.config.refreshInterval) = some interval := by
    cases obtains with
    | atOnce ready unserved free => rw [ready]; rfl
    | handed ready => rw [ready]; rfl
  rw [slowCall?, hi] at h
  simp only [Option.all_some, Bool.and_eq_true, decide_eq_true_eq] at h
  obtain ⟨⟨hok, hlatency⟩, hlatest⟩ := h
  refine ⟨?_, hlatency, hlatest⟩
  cases ho : session.source.response.outcome with
  | ok resources => exact ⟨resources, rfl⟩
  | error error =>
    rw [ho] at hok
    cases hok

/-- In a run whose calls are found to be slow all are. -/
theorem slowCall_of_slowRun? (first : Session) {moves before after : List Move}
    (h : slowRun? admission first moves = true) (he : moves = before ++ .turn caller :: after) :
    (first.run admission before).SlowCall admission caller := by
  subst he
  induction before generalizing first with
  | nil =>
    rw [List.nil_append, slowRun?, Bool.and_eq_true] at h
    exact slowCall_of_slowCall? h.1
  | cons head rest ih =>
    cases head with
    | turn other =>
      rw [List.cons_append, slowRun?, Bool.and_eq_true] at h
      exact ih (first.turn admission other) h.2
    | call delay request => exact ih (first.move admission (.call delay request)) h
    | wait nanos => exact ih (first.move admission (.wait nanos)) h

/-- While discovery is slow, no answer is valid, and discovery was called once by every
refresh that is gone. -/
structure Stale (first session : Session) : Prop where
  /-- The session is in order. -/
  orderly : session.Orderly
  /-- No answer is valid. -/
  due : session.mapper.refresh.Due session.now
  /-- What is waited for is due when it is taken up. -/
  slow : ∀ phase ∈ session.calls, phase.Slow
  /-- Discovery was called once by each that is gone since. -/
  counted : session.source.calls + first.calls.countP Phase.gone =
    first.source.calls + session.calls.countP Phase.gone

namespace Stale

variable {first : Session}

/-- While discovery is slow nobody is served. -/
theorem cached? (h : first.Stale session) : session.mapper.refresh.cached? session.now = none :=
  RefreshState.cached?_eq_none_iff.mpr h.due

/-- Discovery stays slow when a call goes on. -/
theorem slow_set (h : first.Stale session) {new : Phase} (slow : new.Slow) (caller : Nat) :
    ∀ phase ∈ session.calls.set caller new, phase.Slow := by
  intro phase hm
  rcases List.mem_or_eq_of_mem_set hm with ho | rfl
  · exact h.slow phase ho
  · exact slow

/-- Nobody else is gone when a call goes on that stays gone or not. -/
theorem counted_set (h : first.Stale session) {old new : Phase}
    (hp : session.calls[caller]? = some old) (same : new.gone = old.gone) :
    session.source.calls + first.calls.countP Phase.gone =
      first.source.calls + (session.calls.set caller new).countP Phase.gone := by
  have hm := congrArg (List.countP id) (map_set_of_eq hp same)
  rw [List.countP_map, List.countP_map] at hm
  exact h.counted.trans (congrArg (first.source.calls + ·) hm.symm)

/-- The number of those that are gone grows by one when one more goes. -/
theorem countP_set_of_gone {calls : List Phase} {old new : Phase}
    (hp : calls[caller]? = some old) (stood : old.gone = false) (goes : new.gone = true) :
    (calls.set caller new).countP Phase.gone = calls.countP Phase.gone + 1 := by
  obtain ⟨hl, hg⟩ := List.getElem?_eq_some_iff.mp hp
  rw [List.countP_set hl, hg, stood, goes]
  rfl

/-- A response that succeeds and takes its time is slow. -/
theorem slow_of_slowCall {interval : Duration} (obtains : session.Obtains admission caller interval)
    (due : session.mapper.refresh.Due session.now)
    (hs : session.SlowCall admission caller) :
    Phase.Slow (.fetching session.now interval session.source.response.outcome
      (session.now + session.source.response.latency)) := by
  obtain ⟨hok, hlatency, hlatest⟩ := hs interval obtains (obtains.discovers_iff.mpr due)
  refine ⟨hok, ?_⟩
  rw [RefreshState.deadlineAfter_of_le hlatest]
  exact Nat.add_le_add_left hlatency session.now

/-- No answer is valid after a call that is answered at once. -/
theorem asked (h : first.Stale session) {due : Instant} {query : Query}
    (ready : session.ready? caller = some (.starting due (.query query))) :
    first.Stale ((session.ask query).1.finish caller (session.ask query).2) := by
  have hp := getElem?_of_ready? ready
  have hd : (session.ask query).1.mapper.refresh.Due (session.ask query).1.now := by
    rcases session.refresh_ask query with hr | hr
    · exact hr ▸ h.due.mono (session.now_le_ask query)
    · exact hr ▸ RefreshState.due_start _
  have hs : ((session.ask query).1.finish caller (session.ask query).2).source.calls =
      session.source.calls := source_calls_ask session query
  refine ⟨h.orderly.ask hp, hd, ?_, ?_⟩
  · rw [calls_finish_ask]
    exact h.slow_set (by trivial) caller
  · rw [hs, calls_finish_ask]
    exact h.counted_set hp (ofRefresh_ask session query)

/-- Whatever happens in a turn, no answer is valid afterwards if the call that is made
is slow. -/
theorem turned (h : first.Stale session) {after : Session}
    (slow : session.SlowCall admission caller) (ht : Turned admission session caller after) :
    first.Stale after := by
  have ho := h.orderly.of_turned ht
  cases ht with
  | idle waits => exact h
  | asked ready => exact h.asked ready
  | served ready look cached =>
    rw [h.cached?] at cached
    cases cached
  | queued ready unserved held =>
    have hp := getElem?_of_ready? ready
    exact ⟨ho, h.due, h.slow_set (by trivial) caller, h.counted_set hp rfl⟩
  | took obtains cached =>
    rw [h.cached?] at cached
    cases cached
  | discovered obtains cached =>
    obtain ⟨phase, hp, -, hg⟩ := obtains.ofRefresh
    refine ⟨ho, h.due, h.slow_set (slow_of_slowCall obtains h.due slow) caller, ?_⟩
    have hc := h.counted
    have hs : session.source.afterCall.calls = session.source.calls + 1 := rfl
    rw [countP_set_of_gone hp hg rfl]
    dsimp only
    omega
  | failed ready =>
    obtain ⟨⟨resources, he⟩, -⟩ := h.slow _ (List.mem_of_getElem? (getElem?_of_ready? ready))
    cases he
  | committed ready =>
    have hp := getElem?_of_ready? ready
    obtain ⟨-, hd⟩ := h.slow _ (List.mem_of_getElem? hp)
    obtain ⟨-, due, hdue, hn⟩ := ready?_eq_some_iff.mp ready
    cases hdue
    refine ⟨ho, ?_, h.slow_set (by trivial) caller, h.counted_set hp rfl⟩
    -- The new deadline is not after the response, and that is not after now.
    dsimp only
    rw [Mapper.commit, RefreshState.commit_of_due (h.orderly.due_of_fetching hp)]
    intro deadline hdeadline
    cases hdeadline
    exact Nat.le_trans hd hn

/-- No answer is valid after a move if the call that is made is slow. -/
theorem move (h : first.Stale session) {move : Move}
    (slow : ∀ caller, move = .turn caller → session.SlowCall admission caller) :
    first.Stale (session.move admission move) := by
  cases move with
  | call delay request =>
    refine ⟨h.orderly.move admission (.call delay request), h.due, ?_, ?_⟩
    · intro phase hm
      rcases List.mem_append.mp hm with ho | hn
      · exact h.slow phase ho
      · rw [List.mem_singleton.mp hn]
        trivial
    · have hc := h.counted
      have hn : [Phase.starting (session.now + delay) request].countP Phase.gone = 0 := rfl
      rw [Session.move, List.countP_append, hn]
      exact hc
  | wait nanos =>
    exact ⟨h.orderly.pass _, h.due.mono (Nat.le_add_right _ nanos), h.slow, h.counted⟩
  | turn caller => exact h.turned (slow caller rfl) (h.orderly.turned admission caller)

/-- No answer is valid after a run if all calls that are made are slow. -/
theorem run (h : first.Stale session) {moves : List Move}
    (slow : ∀ before caller after, moves = before ++ .turn caller :: after →
      (session.run admission before).SlowCall admission caller) :
    first.Stale (session.run admission moves) := by
  induction moves generalizing session with
  | nil => exact h
  | cons head rest ih =>
    have hh : first.Stale (session.move admission head) := by
      refine h.move fun caller he => ?_
      subst he
      exact slow [] caller rest rfl
    refine ih hh fun before caller after he => ?_
    subst he
    exact slow (head :: before) caller after rfl

/-- Whoever comes to be given the answer to a refresh in a turn takes up what it waited
for. -/
theorem fetching_of_answer (h : first.Stale session) {after : Session}
    (ht : Turned admission session caller after) {time : Instant} {answer : Answer}
    (before : session.calls[caller]? ≠ some (.finished time answer))
    (given : after.calls[caller]? = some (.finished time answer))
    (refresh : answer.ofRefresh = true) :
    ∃ turn interval resources due, answer = .resources resources ∧
      session.calls[caller]? = some (.fetching turn interval (.ok resources) due) := by
  cases answer with
  | resources resources =>
    obtain ⟨rfl, ⟨turn, interval, due, hp⟩ | cached⟩ := ht.answer before given
    · exact ⟨turn, interval, resources, due, rfl, hp⟩
    · rw [h.cached?] at cached
      cases cached
  | failed error =>
    obtain ⟨turn, interval, due, hp⟩ := ht.failed_origin before given
    obtain ⟨⟨resources, he⟩, -⟩ := h.slow _ (List.mem_of_getElem? hp)
    cases he
  | _ => cases refresh

end Stale

/-- In a session at rest discovery is not called, so nothing is counted yet. -/
theorem AtRest.stale (h : session.AtRest) (due : session.mapper.refresh.Due session.now) :
    session.Stale session where
  orderly := h.orderly
  due := due
  slow phase hm := by
    obtain ⟨time, answer, rfl⟩ := h.finished phase hm
    trivial
  counted := rfl

section

variable {precedes : Nat → Nat → Prop} {batch : List (Nat × Request)} {moves : List Move}

/-- A refresh of a batch that is over was given the answer to a refresh. -/
theorem AtRest.finished_of_refresh (h : session.AtRest)
    (clocked : Clocked precedes .checkFirst (session.call .checkFirst batch) moves)
    {place delay : Nat} {asked : Option Duration}
    (hb : batch[place]? = some (delay, .refresh asked)) :
    ∃ time answer, answer.ofRefresh = true ∧
      (session.served batch moves).session.calls[session.calls.length + place]? =
        some (.finished time answer) := by
  have hm := clocked.map_ofRefresh (h.orderly.call .checkFirst batch)
  have hp : (session.call .checkFirst batch).calls[session.calls.length + place]? =
      some (.starting (session.now + delay) (.refresh asked)) := by
    rw [calls_call_getElem?, hb]
    rfl
  have hg := congrArg (·[session.calls.length + place]?) hm
  rw [List.getElem?_map, List.getElem?_map, hp] at hg
  obtain ⟨phase, hlast, hr⟩ := Option.map_eq_some_iff.mp hg
  obtain ⟨time, answer, rfl⟩ := clocked.finished phase (List.mem_of_getElem? hlast)
  exact ⟨time, answer, hr, hlast⟩

/-- When a batch is over as many more are gone as it has refreshes. -/
theorem AtRest.countP_gone (h : session.AtRest)
    (clocked : Clocked precedes .checkFirst (session.call .checkFirst batch) moves) :
    (session.served batch moves).session.calls.countP Phase.gone =
      session.calls.countP Phase.gone + batch.countP (·.2.isRefresh) := by
  have hgone : ∀ calls : List Phase, (∀ phase ∈ calls, phase.Finished) →
      calls.countP Phase.gone = (calls.map Phase.ofRefresh).countP id := by
    intro calls finished
    rw [List.countP_map]
    exact List.countP_congr fun phase hm => by rw [(finished phase hm).gone_eq]; rfl
  have hs : (session.served batch moves).session.calls.map Phase.ofRefresh =
      session.calls.map Phase.ofRefresh ++ batch.map (·.2.isRefresh) := by
    refine (clocked.map_ofRefresh (h.orderly.call .checkFirst batch)).trans ?_
    rw [call_eq, List.map_append, List.map_map]
    rfl
  rw [hgone _ (h.served clocked).finished, hgone _ h.finished, hs, List.countP_append,
    List.countP_map, List.countP_map]
  rfl

end

/-- At no moment of a batch is an answer valid, if all calls are slow. -/
theorem AtRest.stale_run (h : session.AtRest) (due : session.mapper.refresh.Due session.now)
    {moves before after : List Move}
    (slow : ∀ before caller after, moves = before ++ .turn caller :: after →
      (session.run .checkFirst before).SlowCall .checkFirst caller)
    (hm : moves = before ++ after) : session.Stale (session.run .checkFirst before) := by
  refine (h.stale due).run fun first caller last he => ?_
  refine slow first caller (last ++ after) ?_
  rw [hm, he, List.append_assoc, List.cons_append]

/-- A refresh of a batch was given the answer to a discovery call of its own, if all
calls are slow. -/
theorem AtRest.calledDiscovery_of_slow (h : session.AtRest)
    (due : session.mapper.refresh.Due session.now) {precedes : Nat → Nat → Prop}
    {batch : List (Nat × Request)} {moves : List Move}
    (clocked : Clocked precedes .checkFirst (session.call .checkFirst batch) moves)
    (slow : ∀ before caller after, withCalls batch moves = before ++ .turn caller :: after →
      (session.run .checkFirst before).SlowCall .checkFirst caller)
    {place delay : Nat} {asked : Option Duration}
    (hb : batch[place]? = some (delay, .refresh asked)) :
    ∃ turn interval resources time,
      CalledDiscovery .checkFirst session (withCalls batch moves)
        (session.calls.length + place) turn interval (.ok resources) ∧
      (session.served batch moves).answers[place]? = some (time, .resources resources) := by
  obtain ⟨time, answer, hr, hp⟩ := h.finished_of_refresh clocked hb
  have hanswer := h.answers_getElem? clocked hp
  have hbefore : ∀ phase, session.calls[session.calls.length + place]? ≠ some phase := by
    intro phase
    rw [List.getElem?_eq_none (Nat.le_add_right _ place)]
    exact nofun
  rw [session_served] at hp
  -- The turn in which the answer was given leads back to the one that called discovery.
  obtain ⟨before, after, hm, hn, hgiven⟩ := h.orderly.phase_origin (hbefore _) hp nofun
  have hstale := h.stale_run due slow hm
  have ht := hstale.orderly.turned .checkFirst (session.calls.length + place)
  obtain ⟨turn, interval, resources, begin, rfl, hf⟩ :=
    hstale.fetching_of_answer ht hn hgiven hr
  refine ⟨turn, interval, resources, _, ?_, hanswer⟩
  rw [hm]
  exact (h.orderly.fetching_origin (hbefore _) hf).append _

end Session

end ModelRegistry
